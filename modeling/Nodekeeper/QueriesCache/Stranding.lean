import Nodekeeper.QueriesCache.Delivery

/-!
# Queries cache — parties left at a barrier

A barrier with `n = 2` releases a party only when the other one arrives, and the code has one
other party for each side: a resolver's partner is its registration's handle, a handle's partner
is the one resolver of its registration.  Two ways to lose the partner are not covered.

* `Drop for PendingAdnlQuery` removes the entry but never arrives at the barrier.  A resolver
  suspended before the drop waits forever (`resolver_stuck_after_drop`); while the handle has
  not arrived, it is either idle, and one `wait` releases the resolver, or dropped
  (`resolver_waits_for_handle`).
* Nothing wakes the barriers when the cache's last strong reference goes.  A handle suspended in
  `wait` with no resolver then waits forever, since starting `update_query` needs the cache
  (`waiter_stuck_after_teardown`); one whose resolver has arrived returns `Err(CacheDropped)`
  (`wait_after_teardown`).

Both stuck states are invariants of every continuation of the run, proved with `Steps.preserve`
from what one step can do to a call (`step_call_frame`) and to a dead cache (`step_dead`).
-/

namespace Nodekeeper.QueriesCache

open Function

variable {s s' : World}

/-- A property that every contract-respecting step keeps from a state of the invariant holds
along every run. -/
theorem Steps.preserve {P : World → Prop}
    (hP : ∀ s a s', Inv s → P s → contract s a = true → step s a = some s' → P s')
    (h : Steps s s') (hi : Inv s) (hp : P s) : P s' := by
  induction h with
  | refl => exact hp
  | more a hc hs _ ih => exact ih (step_inv hi hc hs) (hP _ a _ hi hp hc hs)

/-- A call keeps its frame, and only its own steps move its program point. -/
theorem step_call_frame (hi : Inv s) {a : Action} (h : step s a = some s') {c : Nat}
    {u : UpdateQuery} (hc : s.calls c = some u) :
    s'.calls c = some u ∧ (s'.callPcs c = s.callPcs c ∨ a = .arriveUpdate c ∨
      a = .resumeUpdate c ∨ (a = .cancelUpdate c ∧ s'.callPcs c = .cancelled)) := by
  have hne : c ≠ s.nextCall := Nat.ne_of_lt (hi.lt_of_call hc)
  have hs := step_spec h
  cases a <;> simp only [StepSpec] at hs
  case updateQuery => obtain ⟨-, rfl⟩ := hs; simp [World.updateQuery, update_noteq hne, hc]
  case arriveUpdate c' =>
    obtain ⟨_, _, -, -, -, rfl⟩ := hs
    by_cases h₁ : c = c'
    · exact ⟨hc, .inr (.inl (h₁ ▸ rfl))⟩
    · exact ⟨hc, .inl (by simp [World.arriveUpdate, update_noteq h₁])⟩
  case resumeUpdate c' =>
    obtain ⟨_, _, _, -, -, -, -, rfl⟩ := hs
    by_cases h₁ : c = c'
    · exact ⟨hc, .inr (.inr (.inl (h₁ ▸ rfl)))⟩
    · exact ⟨hc, .inl (by simp [World.setCall, update_noteq h₁])⟩
  case cancelUpdate c' =>
    obtain ⟨_, _, -, -, rfl⟩ := hs
    by_cases h₁ : c = c'
    · subst h₁; exact ⟨hc, .inr (.inr (.inr ⟨rfl, by simp [World.setCall]⟩))⟩
    · exact ⟨hc, .inl (by simp [World.setCall, update_noteq h₁])⟩
  case addQuery => obtain ⟨-, rfl⟩ := hs; exact ⟨hc, .inl rfl⟩
  case wait => obtain ⟨_, -, -, rfl⟩ := hs; exact ⟨hc, .inl rfl⟩
  case resumeWait =>
    obtain ⟨_, -, -, rfl⟩ := hs
    unfold World.finishWait; split <;> exact ⟨hc, .inl rfl⟩
  case drop => obtain ⟨_, -, ⟨-, rfl⟩ | ⟨-, rfl⟩⟩ := hs <;> exact ⟨hc, .inl rfl⟩
  case dropCache => obtain ⟨-, -, rfl⟩ := hs; exact ⟨hc, .inl rfl⟩

/-- A dead cache stays dead: no call is made on it and no handle is made or lost. -/
theorem step_dead {a : Action} (h : step s a = some s') (ha : s.alive = false) :
    s'.alive = false ∧ s'.calls = s.calls ∧ ∀ r, (s'.handles r).isSome = (s.handles r).isSome := by
  have hs := step_spec h
  cases a <;> simp only [StepSpec] at hs
  case addQuery | updateQuery | dropCache => rw [ha] at hs; cases hs.1
  case arriveUpdate => obtain ⟨_, _, -, -, -, rfl⟩ := hs; exact ⟨ha, rfl, fun _ => rfl⟩
  case resumeUpdate => obtain ⟨_, _, _, -, -, -, -, rfl⟩ := hs; exact ⟨ha, rfl, fun _ => rfl⟩
  case cancelUpdate => obtain ⟨_, _, -, -, rfl⟩ := hs; exact ⟨ha, rfl, fun _ => rfl⟩
  case wait => obtain ⟨_, -, -, rfl⟩ := hs; exact ⟨ha, rfl, fun _ => rfl⟩
  case resumeWait r =>
    obtain ⟨hd, hh, -, rfl⟩ := hs
    have hk : ∀ r', (update s.handles r (some { hd with finished := true }) r').isSome =
        (s.handles r').isSome := fun r' => by
      by_cases h₁ : r' = r
      · subst h₁; simp [hh]
      · simp [update_noteq h₁]
    unfold World.finishWait; split <;> exact ⟨ha, rfl, hk⟩
  case drop => obtain ⟨_, -, ⟨-, rfl⟩ | ⟨-, rfl⟩⟩ := hs <;> exact ⟨ha, rfl, fun _ => rfl⟩

/-! ### A resolver whose handle was dropped -/

/-- A suspended resolver of a registration whose handle was dropped without calling `wait` never
returns: its barrier only ever sees its own arrival. -/
theorem resolver_stuck_after_drop (hi : Inv s) {c r : Nat} {u : UpdateQuery}
    (hc : s.calls c = some u) (ho : u.old = some (.sent r))
    (hpc : s.callPcs c = .waiting 1 ∨ s.callPcs c = .cancelled)
    (hw : s.waits r = .dropped) {s' : World} (h : Steps s s') :
    s'.callPcs c = .waiting 1 ∨ s'.callPcs c = .cancelled := by
  refine (h.preserve (P := fun s => s.calls c = some u ∧ s.waits r = .dropped ∧
    (s.callPcs c = .waiting 1 ∨ s.callPcs c = .cancelled)) ?_ hi ⟨hc, hw, hpc⟩).2.2
  rintro s a s' hi ⟨hc, hw, hpc⟩ - hstep
  obtain ⟨h', hh, -⟩ := hi.resolver_handle c r u ⟨hc, ho⟩
  obtain ⟨hc', hpc'⟩ := step_call_frame hi hstep hc
  have hw' : s'.waits r = .dropped := by
    rcases step_waits hi hstep hh with hw' | ⟨hp, -⟩
    · rw [hw', hw]
    · rw [hw] at hp; cases hp
  refine ⟨hc', hw', ?_⟩
  rcases hpc' with hpc' | rfl | rfl | ⟨rfl, hpc'⟩
  · rwa [hpc']
  · -- it arrived already
    obtain ⟨_, _, -, -, hpa, -⟩ := step_spec hstep
    rcases hpc with hpc | hpc <;> rw [hpc] at hpa <;> cases hpa
  · -- its barrier never lets it through
    obtain ⟨u', r', g, hc'', ho', hpw, hrel, -⟩ := step_spec hstep
    rw [hc] at hc''; cases hc''; rw [ho] at ho'; cases ho'
    rcases hpc with hpc | hpc <;> rw [hpc] at hpw <;> cases hpw
    have := (hi.arrived_of_released hrel).2
    rw [hw] at this; cases this
  · exact .inr hpc'

/-- While a resolver is suspended on its barrier, its handle has arrived there, or is idle and
one `wait` lets the resolver return `Ok(true)`, or was dropped and the resolver never returns. -/
theorem resolver_waits_for_handle (hs : Reachable s) {c r g : Nat} {u : UpdateQuery}
    (hc : s.calls c = some u) (ho : u.old = some (.sent r)) (hpc : s.callPcs c = .waiting g) :
    (s.waits r).arrived = true ∨
    (s.waits r = .idle ∧ ∃ s', Steps s s' ∧ s'.callPcs c = .returned (.ok true)) ∨
    (s.waits r = .dropped ∧
      ∀ s', Steps s s' → s'.callPcs c = .waiting 1 ∨ s'.callPcs c = .cancelled) := by
  have hi := reachable_inv hs
  have hg : g = 1 := by
    have := hi.pc_fits c u hc; rw [ho, hpc] at this; simpa [UpdatePc.Fits] using this
  subst hg
  cases hw : s.waits r with
  | idle =>
    -- the handle's `wait` arrives last, then the resolver is polled
    obtain ⟨hd, hh, -⟩ := hi.resolver_handle c r u ⟨hc, ho⟩
    have hb : s.barriers r = ⟨1, 1⟩ := by
      rw [(hi.reg r).barrier_arrived ⟨c, u, ⟨hc, ho⟩, by rw [hpc]; nofun⟩, hw]; rfl
    have h₁ : step s (.wait r) = some (s.arriveWait r) := by simp [step, hh, hw]
    have h₂ : step (s.arriveWait r) (.resumeUpdate c) =
        some ((s.arriveWait r).setCall c (.returned (.ok true))) := by
      obtain ⟨_, _, _⟩ := u; subst ho
      simp [step, World.arriveWait, hc, hpc, hb, Barrier.wait, Barrier.released]
    exact .inr (.inl ⟨rfl, _, .more (.wait r) rfl h₁ (.more (.resumeUpdate c) rfl h₂ (.refl _)),
      by simp [World.setCall]⟩)
  | dropped => exact .inr (.inr ⟨rfl, fun _ => resolver_stuck_after_drop hi hc ho (.inl hpc) hw⟩)
  | _ => exact .inl rfl

/-- `add_query([0x01; 32])`; `update_query(id, Some(b"PONG"))` suspends on the barrier while the
handle is idle. -/
theorem scenario_resolver_waits_for_handle :
    ∃ s, Reachable s ∧ s.calls 0 = some ⟨scenarioId, some pong, some (.sent 0)⟩ ∧
      s.callPcs 0 = .waiting 1 ∧
      ((s.waits 0).arrived = true ∨
        (s.waits 0 = .idle ∧ ∃ s', Steps s s' ∧ s'.callPcs 0 = .returned (.ok true)) ∨
        (s.waits 0 = .dropped ∧
          ∀ s', Steps s s' → s'.callPcs 0 = .waiting 1 ∨ s'.callPcs 0 = .cancelled)) := by
  obtain ⟨s, hs, hp⟩ := reach_of_run
    [.addQuery scenarioId, .updateQuery scenarioId (some pong), .arriveUpdate 0]
    (fun s => s.calls 0 == some ⟨scenarioId, some pong, some (.sent 0)⟩ &&
      s.callPcs 0 == .waiting 1)
    (by decide)
  simp only [Bool.and_eq_true, beq_iff_eq] at hp
  exact ⟨s, hs, hp.1, hp.2, resolver_waits_for_handle hs hp.1 rfl hp.2⟩

/-- `add_query([0x01; 32])`; `update_query(id, Some(b"PONG"))` suspends on the barrier; the
handle is dropped.  The resolver never returns. -/
theorem resolver_stranded_by_drop :
    ∃ s, Reachable s ∧ s.callPcs 0 = .waiting 1 ∧ s.waits 0 = .dropped ∧
      ∀ s', Steps s s' → s'.callPcs 0 ≠ .returned (.ok true) := by
  obtain ⟨s, hs, hp⟩ := reach_of_run
    [.addQuery scenarioId, .updateQuery scenarioId (some pong), .arriveUpdate 0, .drop 0]
    (fun s => s.calls 0 == some ⟨scenarioId, some pong, some (.sent 0)⟩ &&
      s.callPcs 0 == .waiting 1 && s.waits 0 == .dropped)
    (by decide)
  simp only [Bool.and_eq_true, beq_iff_eq] at hp
  obtain ⟨⟨hc, hpc⟩, hw⟩ := hp
  refine ⟨s, hs, hpc, hw, fun s' h => ?_⟩
  rcases resolver_stuck_after_drop (reachable_inv hs) hc rfl (.inl hpc) hw h with h | h <;>
    rw [h] <;> nofun

/-! ### A waiter whose cache was torn down -/

/-- A handle suspended in `wait` in a dead cache with no resolver never returns: nothing can
arrive at its barrier any more. -/
theorem waiter_stuck_after_teardown (hi : Inv s) {r : Nat} (ha : s.alive = false)
    (hh : (s.handles r).isSome) (hres : ∀ c u, ¬ s.Resolves c r u)
    (hw : s.waits r = .waiting 1 ∨ s.waits r = .cancelled)
    {s' : World} (h : Steps s s') : s'.waits r = .waiting 1 ∨ s'.waits r = .cancelled := by
  refine (h.preserve (P := fun s => s.alive = false ∧ (s.handles r).isSome ∧
    (∀ c u, ¬ s.Resolves c r u) ∧ (s.waits r = .waiting 1 ∨ s.waits r = .cancelled))
    ?_ hi ⟨ha, hh, hres, hw⟩).2.2.2
  rintro s a s' hi ⟨ha, hh, hres, hw⟩ - hstep
  obtain ⟨ha', hcalls, hhandles⟩ := step_dead hstep ha
  refine ⟨ha', (hhandles r).trans hh, by rwa [World.resolves_congr hcalls], ?_⟩
  obtain ⟨hd, hh⟩ := Option.isSome_iff_exists.mp hh
  rcases step_waits hi hstep hh with hw' | ⟨-, rfl | rfl | rfl⟩
  · rwa [hw']
  · obtain ⟨_, -, hidle, -⟩ := step_spec hstep
    rcases hw with hw | hw <;> rw [hw] at hidle <;> cases hidle
  · -- a wake needs the resolver
    obtain ⟨_, -, hrel, -⟩ := step_spec hstep
    obtain ⟨c, u, hu, -⟩ := hi.resolverArrived_of_wake hrel
    exact absurd hu (hres c u)
  · obtain ⟨_, -, ⟨hidle, -⟩ | ⟨-, rfl⟩⟩ := step_spec hstep
    · rcases hw with hw | hw <;> rw [hw] at hidle <;> cases hidle
    · exact .inr (by simp [World.dropHandle])

/-- What teardown does to `wait`.  `Err(CacheDropped)` is returned only by a dead cache, after
the resolver's arrival; in a dead cache a suspended `wait` whose registration has a resolver is
let through and returns `Err(CacheDropped)`, and one whose registration has none never
returns. -/
theorem wait_after_teardown (hs : Reachable s) :
    (∀ r, s.waits r = .returned (.error .cacheDropped) →
      s.alive = false ∧ s.ResolverArrived r) ∧
    (s.alive = false → ∀ r g h, s.handles r = some h → s.waits r = .waiting g →
      (s.ResolverArrived r ∧ ∃ s', step s (.resumeWait r) = some s' ∧
        s'.waits r = .returned (.error .cacheDropped)) ∨
      ((∀ c u, ¬ s.Resolves c r u) ∧
        ∀ s', Steps s s' → s'.waits r = .waiting 1 ∨ s'.waits r = .cancelled)) := by
  have hi := reachable_inv hs
  refine ⟨fun r hw => ⟨hi.dropped_dead r hw, ?_⟩, fun ha r g h hh hw => ?_⟩
  · obtain ⟨c, u, hu, hpc, -⟩ := (hi.reg r).returned _ hw
    exact ⟨c, u, hu, hpc⟩
  obtain rfl := (hi.reg r).wait_gen g hw
  by_cases hres : ∃ c u, s.Resolves c r u
  · -- a dead cache has no call in flight, so the resolver has arrived
    obtain ⟨c, u, hu⟩ := hres
    have hR : s.ResolverArrived r := ⟨c, u, hu, fun hpc => by
      simpa [hpc, UpdatePc.inFlight] using hi.dead_quiet ha c u hu.1⟩
    have hb : s.barriers r = ⟨0, 2⟩ := by rw [(hi.reg r).barrier_arrived hR, hw]; rfl
    refine .inl ⟨hR, s.finishWait r h, ?_, by simp [World.finishWait, ha]⟩
    simp [step, hh, hw, hb, Barrier.released]
  · simp only [not_exists] at hres
    exact .inr ⟨hres, fun _ => waiter_stuck_after_teardown hi ha (by simp [hh]) hres (.inl hw)⟩

/-- `add_query([0x01; 32])`; `wait` suspends on the barrier; `update_query(id, Some(b"PONG"))`
arrives last and returns; the last `Arc` of the cache is dropped. -/
theorem scenario_wait_after_teardown :
    ∃ s, Reachable s ∧ s.alive = false ∧ s.waits 0 = .waiting 1 ∧
    (∀ r, s.waits r = .returned (.error .cacheDropped) →
      s.alive = false ∧ s.ResolverArrived r) ∧
    (s.alive = false → ∀ r g h, s.handles r = some h → s.waits r = .waiting g →
      (s.ResolverArrived r ∧ ∃ s', step s (.resumeWait r) = some s' ∧
        s'.waits r = .returned (.error .cacheDropped)) ∨
      ((∀ c u, ¬ s.Resolves c r u) ∧
        ∀ s', Steps s s' → s'.waits r = .waiting 1 ∨ s'.waits r = .cancelled)) := by
  obtain ⟨s, hs, hp⟩ := reach_of_run
    [.addQuery scenarioId, .wait 0, .updateQuery scenarioId (some pong), .arriveUpdate 0,
      .dropCache]
    (fun s => !s.alive && s.waits 0 == .waiting 1) (by decide)
  simp only [Bool.and_eq_true, beq_iff_eq, Bool.not_eq_true'] at hp
  exact ⟨s, hs, hp.1, hp.2, wait_after_teardown hs⟩

/-- `add_query([0x01; 32])`; the handle's `wait` arrives at the barrier; the last `Arc` of the
cache is dropped.  No call was ever made, and the `wait` never returns. -/
theorem waiter_stranded_by_teardown :
    ∃ s, Reachable s ∧ s.alive = false ∧ s.waits 0 = .waiting 1 ∧ s.barriers 0 = ⟨1, 1⟩ ∧
      s.nextCall = 0 ∧ ∀ s', Steps s s' → s'.waits 0 ≠ .returned (.error .cacheDropped) := by
  obtain ⟨s, hs, hp⟩ := reach_of_run [.addQuery scenarioId, .wait 0, .dropCache]
    (fun s => !s.alive && s.waits 0 == .waiting 1 && s.barriers 0 == ⟨1, 1⟩ &&
      s.nextCall == 0 && (s.handles 0).isSome)
    (by decide)
  simp only [Bool.and_eq_true, beq_iff_eq, Bool.not_eq_true'] at hp
  obtain ⟨⟨⟨⟨ha, hw⟩, hb⟩, hn⟩, hh⟩ := hp
  have hi := reachable_inv hs
  have hres : ∀ c u, ¬ s.Resolves c 0 u := fun c u hu => by
    simp [World.Resolves, hi.calls_fresh c (hn ▸ Nat.zero_le c)] at hu
  refine ⟨s, hs, ha, hw, hb, hn, fun s' h => ?_⟩
  rcases waiter_stuck_after_teardown hi ha hh hres (.inl hw) h with h | h <;> rw [h] <;> nofun

end Nodekeeper.QueriesCache
