import Nodekeeper.QueriesCache.Model

/-!
# Queries cache — the invariant

`Inv s` is what holds in every reachable state of the model.  Its clauses fall in three groups.

* Bookkeeping: ids above the counters are unused; a call's program point fits its `old`
  (`UpdatePc.Fits`); a suspended party arrived in the barrier's first generation; a handle that
  has not made its removal is not `finished`.
* Resolvers and barriers: a call that replaced `Sent(r)` is the *resolver* of registration `r`
  (`World.Resolves`); it targets a registration of its own id, and it is unique.  Each barrier is
  the `barrierAfter` of the arrivals of its handle and of its resolver, and no other party ever
  arrives there.
* The map, while the cache is alive: an entry exists exactly for the ids of the *pending* handles
  (those that have not made their removal), one pending handle per id, and the entry of a
  pending handle is `Sent` of its own barrier until its resolver replaces it by the resolver's
  outcome.

`init_inv` and `step_inv` give `reachable_inv`.
-/

namespace Nodekeeper.QueriesCache

/-- A handle that has not made its removal: live, or inside `wait` before the remove. -/
def WaitPc.pending : WaitPc → Bool
  | .idle | .waiting _ | .released => true
  | _ => false

/-- A handle that has arrived at its barrier. -/
def WaitPc.arrived : WaitPc → Bool
  | .idle | .dropped => false
  | _ => true

namespace World

/-- Call `c` found registration `r`'s entry `Sent` and replaced it. -/
def Resolves (s : World) (c r : Nat) (u : UpdateQuery) : Prop :=
  s.calls c = some u ∧ u.old = some (.sent r)

/-- The resolver of registration `r` has arrived at its barrier. -/
def ResolverArrived (s : World) (r : Nat) : Prop :=
  ∃ c u, s.Resolves c r u ∧ s.callPcs c ≠ .arriving

end World

/-- A barrier after the arrival or not of its handle (`a`) and of its resolver (`b`). -/
def barrierAfter : Bool → Bool → Barrier
  | false, false => Barrier.new
  | true, true => ⟨0, 2⟩
  | _, _ => ⟨1, 1⟩

/-- The program points a call can be at, given its `old`. -/
def UpdatePc.Fits : Option QueryState → UpdatePc → Prop
  | some (.sent _), pc => pc = .arriving ∨ pc = .waiting 1 ∨ pc = .returned (.ok true) ∨ pc = .cancelled
  | some _, _ => False
  | none, pc => pc = .returned (.ok false)

/-- The registrations and calls made so far, and what each resolver replaced. -/
structure Links (s : World) : Prop where
  handles_fresh : ∀ r, s.nextQuery ≤ r → s.handles r = none
  calls_fresh : ∀ c, s.nextCall ≤ c → s.calls c = none
  resolver_handle : ∀ c r u, s.Resolves c r u → ∃ h, s.handles r = some h ∧ h.queryId = u.queryId
  resolver_unique : ∀ c₁ c₂ r u₁ u₂, s.Resolves c₁ r u₁ → s.Resolves c₂ r u₂ → c₁ = c₂

/-- The map of a live cache: one entry per pending handle, `Sent` of its own barrier until its
resolver replaces it. -/
structure Owners (s : World) : Prop where
  entry_owner : ∀ id st, s.queries id = some st →
    ∃ r h, s.handles r = some h ∧ h.queryId = id ∧ (s.waits r).pending = true
  owner_sent : ∀ r h, s.handles r = some h → (s.waits r).pending = true →
    (∀ c u, ¬ s.Resolves c r u) → s.queries h.queryId = some (.sent r)
  owner_resolved : ∀ r h c u, s.handles r = some h → (s.waits r).pending = true →
    s.Resolves c r u → s.queries h.queryId = some (.ofAnswer u.answer)
  owner_unique : ∀ r₁ r₂ h₁ h₂, s.handles r₁ = some h₁ → s.handles r₂ = some h₂ →
    (s.waits r₁).pending = true → (s.waits r₂).pending = true → h₁.queryId = h₂.queryId → r₁ = r₂

/-- What holds of one registration `r`: its handle's program point, its barrier, and what its
`wait` returned. -/
structure RegOk (s : World) (r : Nat) : Prop where
  wait_gen : ∀ g, s.waits r = .waiting g → g = 1
  unfinished : ∀ h, s.handles r = some h → (s.waits r).pending = true → h.finished = false
  barrier_arrived : s.ResolverArrived r → s.barriers r = barrierAfter (s.waits r).arrived true
  barrier_waiting : ¬ s.ResolverArrived r → s.barriers r = barrierAfter (s.waits r).arrived false
  released_resolved : s.waits r = .released → s.ResolverArrived r
  rendezvous : ∀ c u, s.Resolves c r u → s.callPcs c = .returned (.ok true) →
    (s.waits r).arrived = true
  returned : ∀ res, s.waits r = .returned res → ∃ c u, s.Resolves c r u ∧
    s.callPcs c ≠ .arriving ∧ (res = .ok u.answer ∨ res = .error .cacheDropped)

/-- The invariant of the queries cache. -/
structure Inv (s : World) extends Links s : Prop where
  owners : s.alive = true → Owners s
  pc_fits : ∀ c u, s.calls c = some u → UpdatePc.Fits u.old (s.callPcs c)
  dead_quiet : s.alive = false → ∀ c u, s.calls c = some u → (s.callPcs c).inFlight = false
  dropped_dead : ∀ r, s.waits r = .returned (.error .cacheDropped) → s.alive = false
  reg : ∀ r, RegOk s r

theorem init_inv : Inv World.init where
  handles_fresh _ _ := rfl
  calls_fresh _ _ := rfl
  resolver_handle _ _ _ h := by simp [World.Resolves, World.init] at h
  resolver_unique _ _ _ _ _ h := by simp [World.Resolves, World.init] at h
  owners _ := ⟨by simp [World.init], by simp [World.init], by simp [World.init],
    by simp [World.init]⟩
  pc_fits _ _ h := by simp [World.init] at h
  dead_quiet h := by simp [World.init] at h
  dropped_dead _ h := by simp [World.init] at h
  reg _ := ⟨by simp [World.init], by simp [World.init],
    by simp [World.ResolverArrived, World.Resolves, World.init], fun _ => rfl,
    by simp [World.init], by simp [World.Resolves, World.init], by simp [World.init]⟩

@[simp] theorem QueryState.ofAnswer_ne_sent (a : Option (List UInt8)) (r : Nat) :
    QueryState.ofAnswer a ≠ .sent r := by
  cases a <;> simp [QueryState.ofAnswer]

theorem barrierAfter_wait (a b : Bool) (hb : b = false) :
    (barrierAfter a b).wait =
      if a then (barrierAfter a true, none) else (barrierAfter a true, some 1) := by
  subst hb; cases a <;> rfl

theorem waitResult_ne_cacheDropped (st : Option QueryState) :
    waitResult st ≠ .error .cacheDropped := by
  rcases st with _ | ⟨_ | _ | _⟩ <;> simp [waitResult]

@[simp] theorem waitResult_ofAnswer (a : Option (List UInt8)) :
    waitResult (some (.ofAnswer a)) = .ok a := by
  cases a <;> rfl

namespace Inv

variable {s : World} (hi : Inv s)
include hi

theorem lt_of_handle {r : Nat} {h : PendingAdnlQuery} (h₁ : s.handles r = some h) :
    r < s.nextQuery :=
  Nat.lt_of_not_le fun hr => by simp [hi.handles_fresh r hr] at h₁

theorem lt_of_call {c : Nat} {u : UpdateQuery} (h₁ : s.calls c = some u) : c < s.nextCall :=
  Nat.lt_of_not_le fun hc => by simp [hi.calls_fresh c hc] at h₁

theorem lt_of_resolves {c r : Nat} {u : UpdateQuery} (h₁ : s.Resolves c r u) :
    r < s.nextQuery := by
  obtain ⟨h, hh, -⟩ := hi.resolver_handle c r u h₁
  exact hi.lt_of_handle hh

/-- A `Sent` entry belongs to the pending handle of its barrier, which has no resolver. -/
theorem sent_owner (ha : s.alive = true) {id : QueryId} {r : Nat}
    (he : s.queries id = some (.sent r)) :
    ∃ h, s.handles r = some h ∧ h.queryId = id ∧ (s.waits r).pending = true ∧
      ∀ c u, ¬ s.Resolves c r u := by
  have ho := hi.owners ha
  obtain ⟨r', h, hh, rfl, hp⟩ := ho.entry_owner id _ he
  by_cases hres : ∃ c u, s.Resolves c r' u
  · obtain ⟨c, u, hu⟩ := hres
    rw [ho.owner_resolved r' h c u hh hp hu] at he
    simp at he
  · simp only [not_exists] at hres
    rw [ho.owner_sent r' h hh hp hres] at he
    cases he
    exact ⟨h, hh, rfl, hp, hres⟩

/-- A pending handle has an entry. -/
theorem entry_of_pending (ha : s.alive = true) {r : Nat} {h : PendingAdnlQuery}
    (hh : s.handles r = some h) (hp : (s.waits r).pending = true) :
    (s.queries h.queryId).isSome := by
  by_cases hres : ∃ c u, s.Resolves c r u
  · obtain ⟨c, u, hu⟩ := hres
    simp [(hi.owners ha).owner_resolved r h c u hh hp hu]
  · simp only [not_exists] at hres
    simp [(hi.owners ha).owner_sent r h hh hp hres]

/-- The only arrival besides the handle's is its resolver's. -/
theorem not_arrived_of_arriving {c r : Nat} {u : UpdateQuery} (hu : s.Resolves c r u)
    (hpc : s.callPcs c = .arriving) : ¬ s.ResolverArrived r := by
  rintro ⟨c', u', hu', hpc'⟩
  exact hpc' (hi.resolver_unique c c' r u u' hu hu' ▸ hpc)

/-- A barrier that lets a waiter of the first generation through has had both arrivals. -/
theorem arrived_of_released {r : Nat} (hr : (s.barriers r).released 1 = true) :
    s.ResolverArrived r ∧ (s.waits r).arrived = true := by
  by_cases hres : s.ResolverArrived r
  · have hb := (hi.reg r).barrier_arrived hres
    refine ⟨hres, ?_⟩
    cases hw : (s.waits r).arrived <;> simp_all [barrierAfter, Barrier.released]
  · have hb := (hi.reg r).barrier_waiting hres
    cases hw : (s.waits r).arrived <;> simp_all [barrierAfter, Barrier.released, Barrier.new]

/-- A `wait` the barrier lets through has met its resolver. -/
theorem resolverArrived_of_wake {r : Nat}
    (hrel : s.waits r = .released ∨
      ∃ g, s.waits r = .waiting g ∧ (s.barriers r).released g = true) :
    s.ResolverArrived r := by
  rcases hrel with hw | ⟨g, hw, hg⟩
  · exact (hi.reg r).released_resolved hw
  · obtain rfl := (hi.reg r).wait_gen g hw; exact (hi.arrived_of_released hg).1

end Inv

end Nodekeeper.QueriesCache
