import Nodekeeper.QueriesCache.Preservation

/-!
# Queries cache — what a resolve delivers

Consequences of `reachable_inv` for one registration at a time.

* `wait_returns_resolver_answer`: a `wait` that returns while the cache is alive returns the
  answer of the one `update_query` call that replaced its registration's `Sent` entry.
* `wait_error_arms_dead`: no `wait` returns `Err(InvalidQueryState)` or `Err(UnknownId)`.
* `map_tracks_pending_handles`: the map of a live cache holds exactly the ids of the handles
  that have not made their removal; only a handle's own `wait` or `Drop` removes its entry, and
  it does so once.
* `one_resolver_per_registration`: at most one call replaces a registration's `Sent` entry;
  only that call waits at the barrier or returns `Ok(true)`; a barrier sees at most one
  handoff; the entry keeps the first resolve's outcome until the handle removes it.
* `duplicate_resolve_returns_false`: `update_query`'s `Err(UnexpectedState)` arm is dead, since
  the entry section turns a `Received` or `Timeout` entry into `old = None`.
-/

namespace Nodekeeper.QueriesCache

open Function

variable {s s' : World}

/-! ### Delivery -/

/-- The id of the spec's scenario, `[0x01; 32]`. -/
def scenarioId : QueryId := ⟨List.replicate 32 1, rfl⟩

/-- `b"PONG"`. -/
def pong : List UInt8 := [80, 79, 78, 71]


/-- **No cross-delivery.**  The step that ends a `wait` while the cache is alive returns
`Ok(answer)` of the call that replaced the registration's `Sent` entry, a call on the handle's
own id. -/
theorem wait_returns_resolver_answer (hs : Reachable s) {r : Nat}
    (hstep : step s (.resumeWait r) = some s') (ha : s.alive = true) :
    ∃ h c u, s.handles r = some h ∧ s.calls c = some u ∧ u.old = some (.sent r) ∧
      u.queryId = h.queryId ∧ s'.waits r = .returned (.ok u.answer) := by
  have hi := reachable_inv hs
  obtain ⟨h, hh, hrel, rfl⟩ := step_spec hstep
  obtain ⟨c, u, ⟨hc, hold⟩, -⟩ := hi.resolverArrived_of_wake hrel
  obtain ⟨h', hh', hq⟩ := hi.resolver_handle c r u ⟨hc, hold⟩
  rw [hh] at hh'; cases hh'
  have hp : (s.waits r).pending = true := by rcases hrel with hw | ⟨g, hw, -⟩ <;> rw [hw] <;> rfl
  refine ⟨h, c, u, hh, hc, hold, hq.symm, ?_⟩
  simp [World.finishWait, ha, (hi.owners ha).owner_resolved r h c u hh hp ⟨hc, hold⟩]

/-- The spec's scenario: `register`, `resolve(id, Some(b"PONG"))` suspended on the barrier, then
`wait()`. -/
theorem scenario_wait_returns_answer :
    ∃ s s', Reachable s ∧ step s (.resumeWait 0) = some s' ∧ s.alive = true ∧
      ∃ h c u, s.handles 0 = some h ∧ s.calls c = some u ∧ u.old = some (.sent 0) ∧
        u.queryId = h.queryId ∧ s'.waits 0 = .returned (.ok u.answer) := by
  obtain ⟨s, hs, hp⟩ := reach_of_run
    [.addQuery scenarioId, .updateQuery scenarioId (some pong), .arriveUpdate 0, .wait 0]
    (fun s => (step s (.resumeWait 0)).isSome && s.alive) (by decide)
  simp only [Bool.and_eq_true, Option.isSome_iff_exists] at hp
  obtain ⟨⟨s', hstep⟩, ha⟩ := hp
  exact ⟨s, s', hs, hstep, ha, wait_returns_resolver_answer hs hstep ha⟩

/-- **Dead error arms of `wait`.**  No `wait` ever returns `Err(InvalidQueryState)` or
`Err(UnknownId)`: the entry it removes is its resolver's outcome, or the cache is gone. -/
theorem wait_error_arms_dead (hs : Reachable s) (r : Nat) :
    s.waits r ≠ .returned (.error .invalidQueryState) ∧
      s.waits r ≠ .returned (.error .unknownId) := by
  have hret := ((reachable_inv hs).reg r).returned
  constructor <;> intro hw <;> obtain ⟨_, _, -, -, hres | hres⟩ := hret _ hw <;> cases hres

/-- After the spec's scenario the `wait` has returned `Ok(b"PONG")`, not an error arm. -/
theorem scenario_wait_error_arms_dead :
    ∃ s, Reachable s ∧ s.waits 0 = .returned (.ok (some pong)) ∧
      s.waits 0 ≠ .returned (.error .invalidQueryState) ∧
      s.waits 0 ≠ .returned (.error .unknownId) := by
  obtain ⟨s, hs, hp⟩ := reach_of_run
    [.addQuery scenarioId, .updateQuery scenarioId (some pong), .arriveUpdate 0, .wait 0,
      .resumeWait 0] (fun s => s.waits 0 = .returned (.ok (some pong))) (by decide)
  exact ⟨s, hs, of_decide_eq_true hp, wait_error_arms_dead hs 0⟩

/-! ### The map and the handles -/

/-- Only a pending handle's own steps change its program point. -/
theorem step_waits (hi : Inv s) {a : Action} (h : step s a = some s') {r : Nat}
    {hd : PendingAdnlQuery} (hh : s.handles r = some hd) :
    s'.waits r = s.waits r ∨
      ((s.waits r).pending = true ∧ (a = .wait r ∨ a = .resumeWait r ∨ a = .drop r)) := by
  have hs := step_spec h
  have hne : r ≠ s.nextQuery := Nat.ne_of_lt (hi.lt_of_handle hh)
  cases a <;> simp only [StepSpec] at hs
  case addQuery => obtain ⟨-, rfl⟩ := hs; simp [World.addQuery, update_noteq hne]
  case updateQuery => obtain ⟨-, rfl⟩ := hs; exact .inl rfl
  case arriveUpdate => obtain ⟨_, _, -, -, -, rfl⟩ := hs; exact .inl rfl
  case resumeUpdate => obtain ⟨_, _, _, -, -, -, -, rfl⟩ := hs; exact .inl rfl
  case cancelUpdate => obtain ⟨_, _, -, -, rfl⟩ := hs; exact .inl rfl
  case dropCache => obtain ⟨-, -, rfl⟩ := hs; exact .inl rfl
  case wait r' =>
    obtain ⟨_, -, hw, rfl⟩ := hs
    by_cases h₁ : r = r'
    · subst h₁; exact .inr ⟨by rw [hw]; rfl, .inl rfl⟩
    · exact .inl (by simp [World.arriveWait, update_noteq h₁])
  case resumeWait r' =>
    obtain ⟨_, -, hrel, rfl⟩ := hs
    by_cases h₁ : r = r'
    · subst h₁
      exact .inr ⟨by rcases hrel with hw | ⟨g, hw, -⟩ <;> rw [hw] <;> rfl, .inr (.inl rfl)⟩
    · left; unfold World.finishWait; split <;> simp [update_noteq h₁]
  case drop r' =>
    obtain ⟨_, -, ⟨hw, rfl⟩ | ⟨⟨g, hw⟩, rfl⟩⟩ := hs <;> by_cases h₁ : r = r'
    · subst h₁; exact .inr ⟨by rw [hw]; rfl, .inr (.inr rfl)⟩
    · exact .inl (by simp [World.dropHandle, update_noteq h₁])
    · subst h₁; exact .inr ⟨by rw [hw]; rfl, .inr (.inr rfl)⟩
    · exact .inl (by simp [World.dropHandle, update_noteq h₁])

theorem updateEntry_snd_isSome (q : QueryId → Option QueryState) (id id' : QueryId)
    (answer : Option (List UInt8)) (h : (q id').isSome) :
    ((updateEntry q id answer).2 id').isSome := by
  unfold updateEntry
  split
  · exact h
  · simp only [update_apply]; split <;> simp_all
  · exact h

/-- An entry disappears only by the step of its own pending handle that ends its pendency. -/
theorem step_removes_own_entry (hi : Inv s) {a : Action} (h : step s a = some s') {id : QueryId}
    (h₁ : (s.queries id).isSome) (h₂ : s'.queries id = none) :
    ∃ r hd, (a = .resumeWait r ∨ a = .drop r) ∧ s.handles r = some hd ∧ hd.queryId = id ∧
      (s.waits r).pending = true ∧ (s'.waits r).pending = false := by
  have hs := step_spec h
  cases a <;> simp only [StepSpec] at hs
  case addQuery =>
    obtain ⟨-, rfl⟩ := hs
    simp only [World.addQuery, update_apply] at h₂; split_ifs at h₂; simp [h₂] at h₁
  case updateQuery id₀ answer =>
    obtain ⟨-, rfl⟩ := hs
    have := updateEntry_snd_isSome s.queries id₀ id answer h₁
    simp only [World.updateQuery] at h₂; simp [h₂] at this
  case arriveUpdate =>
    obtain ⟨_, _, -, -, -, rfl⟩ := hs; simp [show s.queries id = none from h₂] at h₁
  case resumeUpdate =>
    obtain ⟨_, _, _, -, -, -, -, rfl⟩ := hs; simp [show s.queries id = none from h₂] at h₁
  case cancelUpdate =>
    obtain ⟨_, _, -, -, rfl⟩ := hs; simp [show s.queries id = none from h₂] at h₁
  case wait => obtain ⟨_, -, -, rfl⟩ := hs; simp [show s.queries id = none from h₂] at h₁
  case dropCache => obtain ⟨-, -, rfl⟩ := hs; simp [show s.queries id = none from h₂] at h₁
  case resumeWait r =>
    obtain ⟨hd, hh, hrel, rfl⟩ := hs
    have hp : (s.waits r).pending = true := by
      rcases hrel with hw | ⟨g, hw, -⟩ <;> rw [hw] <;> rfl
    by_cases ha : s.alive = true
    · simp only [World.finishWait, ha, if_true, update_apply] at h₂
      split_ifs at h₂ with hid
      · exact ⟨r, hd, .inl rfl, hh, hid.symm, hp, by simp [World.finishWait, ha, WaitPc.pending]⟩
      · simp [h₂] at h₁
    · simp only [World.finishWait, ha, Bool.false_eq_true, if_false] at h₂; simp [h₂] at h₁
  case drop r =>
    obtain ⟨hd, hh, hw⟩ := hs
    have hp : (s.waits r).pending = true := by
      rcases hw with ⟨hw, -⟩ | ⟨⟨g, hw⟩, -⟩ <;> rw [hw] <;> rfl
    have hfin := (hi.reg r).unfinished hd hh hp
    have hq : s'.queries = s.dropQueries hd := by rcases hw with ⟨-, rfl⟩ | ⟨-, rfl⟩ <;> rfl
    have hp' : (s'.waits r).pending = false := by
      rcases hw with ⟨-, rfl⟩ | ⟨-, rfl⟩ <;> simp [World.dropHandle, WaitPc.pending]
    by_cases ha : s.alive = true
    · simp only [hq, World.dropQueries, hfin, ha, Bool.false_eq_true, if_false, if_true,
        update_apply] at h₂
      split_ifs at h₂ with hid
      · exact ⟨r, hd, .inr rfl, hh, hid.symm, hp, hp'⟩
      · simp [h₂] at h₁
    · simp only [hq, World.dropQueries, ha, Bool.false_eq_true, if_false, ite_self] at h₂
      simp [h₂] at h₁

/-- The step that ends a pending handle's pendency in a live cache removes its entry. -/
theorem step_unpend_removes (hi : Inv s) (ha : s.alive = true) {a : Action}
    (h : step s a = some s') {r : Nat} {hd : PendingAdnlQuery} (hh : s.handles r = some hd)
    (hp : (s.waits r).pending = true) (hp' : (s'.waits r).pending = false) :
    s'.queries hd.queryId = none := by
  rcases step_waits hi h hh with hw | ⟨-, rfl | rfl | rfl⟩
  · rw [hw, hp] at hp'; cases hp'
  · obtain ⟨_, -, -, rfl⟩ := step_spec h
    simp only [World.arriveWait, update_same] at hp'
    split at hp' <;> cases hp'
  · obtain ⟨hd', hh', -, rfl⟩ := step_spec h
    rw [hh] at hh'; cases hh'
    simp [World.finishWait, ha]
  · obtain ⟨hd', hh', hw⟩ := step_spec h
    rw [hh] at hh'; cases hh'
    have hfin := (hi.reg r).unfinished hd hh hp
    rcases hw with ⟨-, rfl⟩ | ⟨-, rfl⟩ <;> simp [World.dropHandle, World.dropQueries, hfin, ha]

/-- A handle that is not pending stays so. -/
theorem step_unpended_stays (hi : Inv s) {a : Action} (h : step s a = some s') {r : Nat}
    {hd : PendingAdnlQuery} (hh : s.handles r = some hd) (hp : (s.waits r).pending = false) :
    (s'.waits r).pending = false := by
  rcases step_waits hi h hh with hw | ⟨hp', -⟩
  · rwa [hw]
  · rw [hp] at hp'; cases hp'

theorem Inv.entry_iff_pending (hi : Inv s) (ha : s.alive = true) (id : QueryId) :
    (s.queries id).isSome ↔
      ∃ r h, s.handles r = some h ∧ h.queryId = id ∧ (s.waits r).pending = true := by
  constructor
  · intro he
    obtain ⟨st, hst⟩ := Option.isSome_iff_exists.mp he
    exact (hi.owners ha).entry_owner id st hst
  · rintro ⟨r, h, hh, rfl, hp⟩
    exact hi.entry_of_pending ha hh hp

/-- `update_query` on an id with no entry leaves the map alone and returns `Ok(false)` at once. -/
theorem updateQuery_vacant {id : QueryId} (answer : Option (List UInt8))
    (hn : s.queries id = none) :
    (s.updateQuery id answer).queries = s.queries ∧
      (s.updateQuery id answer).callPcs s.nextCall = .returned (.ok false) := by
  simp [World.updateQuery, updateEntry, hn, updateResult]

/-- **The map is the set of pending handles.**  In a reachable state of a live cache: an id has
an entry exactly when a handle that has not made its removal is registered under it; a `Sent`
entry holds that handle's own barrier; `update_query` on an id with no entry leaves the map
alone and returns `Ok(false)` at once; an entry disappears only by the step of its own handle
that ends its pendency, that step always removes it, and no handle becomes pending again; once
no handle is pending the map is empty. -/
theorem map_tracks_pending_handles (hs : Reachable s) (ha : s.alive = true) :
    (∀ id, (s.queries id).isSome ↔
      ∃ r h, s.handles r = some h ∧ h.queryId = id ∧ (s.waits r).pending = true) ∧
    (∀ id r, s.queries id = some (.sent r) →
      ∃ h, s.handles r = some h ∧ h.queryId = id ∧ (s.waits r).pending = true) ∧
    (∀ id answer, s.queries id = none → (s.updateQuery id answer).queries = s.queries ∧
      (s.updateQuery id answer).callPcs s.nextCall = .returned (.ok false)) ∧
    (∀ a s' id, step s a = some s' → (s.queries id).isSome → s'.queries id = none →
      ∃ r h, (a = .resumeWait r ∨ a = .drop r) ∧ s.handles r = some h ∧ h.queryId = id ∧
        (s.waits r).pending = true ∧ (s'.waits r).pending = false) ∧
    (∀ a s' r h, step s a = some s' → s.handles r = some h → (s.waits r).pending = true →
      (s'.waits r).pending = false → s'.queries h.queryId = none) ∧
    (∀ a s' r h, step s a = some s' → s.handles r = some h → (s.waits r).pending = false →
      (s'.waits r).pending = false) ∧
    ((∀ r h, s.handles r = some h → (s.waits r).pending = false) → ∀ id, s.queries id = none) := by
  have hi := reachable_inv hs
  refine ⟨hi.entry_iff_pending ha, fun id r he => ?_, fun id answer => updateQuery_vacant answer,
    fun a s' id h => step_removes_own_entry hi h,
    fun a s' r h hstep hh => step_unpend_removes hi ha hstep hh,
    fun a s' r h hstep hh => step_unpended_stays hi hstep hh, fun hno id => ?_⟩
  · obtain ⟨h, hh, hq, hp, -⟩ := hi.sent_owner ha he
    exact ⟨h, hh, hq, hp⟩
  · cases he : s.queries id with
    | none => rfl
    | some st =>
      obtain ⟨r, h, hh, -, hp⟩ := (hi.owners ha).entry_owner id st he
      rw [hno r h hh] at hp; cases hp

/-- The map after `add_query([0x01; 32])` and a resolve. -/
theorem scenario_map_tracks_pending_handles :
    ∃ s, Reachable s ∧ s.alive = true ∧
    (∀ id, (s.queries id).isSome ↔
      ∃ r h, s.handles r = some h ∧ h.queryId = id ∧ (s.waits r).pending = true) ∧
    (∀ id r, s.queries id = some (.sent r) →
      ∃ h, s.handles r = some h ∧ h.queryId = id ∧ (s.waits r).pending = true) ∧
    (∀ id answer, s.queries id = none → (s.updateQuery id answer).queries = s.queries ∧
      (s.updateQuery id answer).callPcs s.nextCall = .returned (.ok false)) ∧
    (∀ a s' id, step s a = some s' → (s.queries id).isSome → s'.queries id = none →
      ∃ r h, (a = .resumeWait r ∨ a = .drop r) ∧ s.handles r = some h ∧ h.queryId = id ∧
        (s.waits r).pending = true ∧ (s'.waits r).pending = false) ∧
    (∀ a s' r h, step s a = some s' → s.handles r = some h → (s.waits r).pending = true →
      (s'.waits r).pending = false → s'.queries h.queryId = none) ∧
    (∀ a s' r h, step s a = some s' → s.handles r = some h → (s.waits r).pending = false →
      (s'.waits r).pending = false) ∧
    ((∀ r h, s.handles r = some h → (s.waits r).pending = false) → ∀ id, s.queries id = none) := by
  obtain ⟨s, hs, ha⟩ := reach_of_run
    [.addQuery scenarioId, .updateQuery scenarioId (some pong)] (fun s => s.alive)
    (by decide)
  exact ⟨s, hs, ha, map_tracks_pending_handles hs ha⟩

/-! ### One resolver -/

/-- The barrier states two parties can leave. -/
theorem barrierAfter_cases (a b : Bool) :
    barrierAfter a b = Barrier.new ∨ barrierAfter a b = ⟨1, 1⟩ ∨ barrierAfter a b = ⟨0, 2⟩ := by
  cases a <;> cases b <;> simp [barrierAfter]

/-- **One resolver per registration.**  At most one `update_query` call finds a registration's
entry `Sent` and replaces it; only such a call is ever at a barrier or returns `Ok(true)`, and it
returns `Ok(true)` only after the handle's arrival; a barrier goes through at most one handoff;
and while the handle is pending, its entry is the outcome of that one call. -/
theorem one_resolver_per_registration (hs : Reachable s) :
    (∀ r c₁ c₂ u₁ u₂, s.calls c₁ = some u₁ → s.calls c₂ = some u₂ →
      u₁.old = some (.sent r) → u₂.old = some (.sent r) → c₁ = c₂) ∧
    (∀ c u, s.calls c = some u → ((s.callPcs c).inFlight = true ∨ s.callPcs c = .cancelled ∨
      s.callPcs c = .returned (.ok true)) → ∃ r, u.old = some (.sent r)) ∧
    (∀ c u r, s.calls c = some u → u.old = some (.sent r) →
      s.callPcs c = .returned (.ok true) → (s.waits r).arrived = true) ∧
    (∀ r, s.barriers r = Barrier.new ∨ s.barriers r = ⟨1, 1⟩ ∨ s.barriers r = ⟨0, 2⟩) ∧
    (s.alive = true → ∀ r h c u, s.handles r = some h → (s.waits r).pending = true →
      s.calls c = some u → u.old = some (.sent r) →
        s.queries h.queryId = some (.ofAnswer u.answer)) := by
  have hi := reachable_inv hs
  refine ⟨fun r c₁ c₂ u₁ u₂ h₁ h₂ o₁ o₂ => hi.resolver_unique c₁ c₂ r u₁ u₂ ⟨h₁, o₁⟩ ⟨h₂, o₂⟩,
    fun c u hc hpc => ?_, fun c u r hc ho => (hi.reg r).rendezvous c u ⟨hc, ho⟩,
    fun r => ?_, fun ha r h c u hh hp hc ho => (hi.owners ha).owner_resolved r h c u hh hp ⟨hc, ho⟩⟩
  · have hfits := hi.pc_fits c u hc
    rcases u with ⟨_, _, _ | ⟨r | _ | _⟩⟩ <;> simp only [UpdatePc.Fits] at hfits
    · rw [hfits] at hpc; simp [UpdatePc.inFlight] at hpc
    · exact ⟨r, rfl⟩
  · by_cases hR : s.ResolverArrived r
    · rw [(hi.reg r).barrier_arrived hR]; exact barrierAfter_cases _ _
    · rw [(hi.reg r).barrier_waiting hR]; exact barrierAfter_cases _ _

/-- The calls and barriers after two resolves of `[0x01; 32]`. -/
theorem scenario_one_resolver :
    ∃ s, Reachable s ∧
    (∀ r c₁ c₂ u₁ u₂, s.calls c₁ = some u₁ → s.calls c₂ = some u₂ →
      u₁.old = some (.sent r) → u₂.old = some (.sent r) → c₁ = c₂) ∧
    (∀ c u, s.calls c = some u → ((s.callPcs c).inFlight = true ∨ s.callPcs c = .cancelled ∨
      s.callPcs c = .returned (.ok true)) → ∃ r, u.old = some (.sent r)) ∧
    (∀ c u r, s.calls c = some u → u.old = some (.sent r) →
      s.callPcs c = .returned (.ok true) → (s.waits r).arrived = true) ∧
    (∀ r, s.barriers r = Barrier.new ∨ s.barriers r = ⟨1, 1⟩ ∨ s.barriers r = ⟨0, 2⟩) ∧
    (s.alive = true → ∀ r h c u, s.handles r = some h → (s.waits r).pending = true →
      s.calls c = some u → u.old = some (.sent r) →
        s.queries h.queryId = some (.ofAnswer u.answer)) := by
  obtain ⟨s, hs, -⟩ := reach_of_run
    ([.addQuery scenarioId, .updateQuery scenarioId (some pong), .arriveUpdate 0,
      .updateQuery scenarioId none]) (fun _ => true) (by decide)
  exact ⟨s, hs, one_resolver_per_registration hs⟩

/-! ### The dead `UnexpectedState` arm -/

/-- On a `Received` or `Timeout` entry `update_query` returns `Ok(false)` at once and leaves the
map alone: its entry section gives `old = None` for such an entry as for a vacant one, so the
`Err(UnexpectedState)` arm is not reached. -/
theorem updateQuery_terminal {id : QueryId} (answer : Option (List UInt8))
    (h : (∃ b, s.queries id = some (.received b)) ∨ s.queries id = some .timeout) :
    (s.updateQuery id answer).queries = s.queries ∧
      (s.updateQuery id answer).callPcs s.nextCall = .returned (.ok false) := by
  rcases h with ⟨b, h⟩ | h <;> simp [World.updateQuery, updateEntry, h, updateResult]

/-- At `[0x01; 32]`: `add_query`, then `update_query(id, Some(b"PONG"))` replaces the entry and
suspends on the barrier; the entry is `Received(b"PONG")`, and a second
`update_query(id, Some(b"PONG"))` returns `Ok(false)`. -/
theorem duplicate_resolve_returns_false :
    ∃ s, Reachable s ∧ s.queries scenarioId = some (.received pong) ∧
      (s.updateQuery scenarioId (some pong)).callPcs s.nextCall = .returned (.ok false) := by
  obtain ⟨s, hs, hp⟩ := reach_of_run
    [.addQuery scenarioId, .updateQuery scenarioId (some pong), .arriveUpdate 0]
    (fun s => s.queries scenarioId == some (.received pong)) (by decide)
  have hq : s.queries scenarioId = some (.received pong) := beq_iff_eq.1 hp
  exact ⟨s, hs, hq, (updateQuery_terminal (some pong) (.inl ⟨pong, hq⟩)).2⟩

end Nodekeeper.QueriesCache
