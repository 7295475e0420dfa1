import Mathlib.Logic.Function.Basic

/-!
# Queries cache — the model

`src/node_rpc/tcp_adnl/queries_cache.rs` as a concurrent system.  The cache is a `DashMap` from
32-byte query ids to `QueryState`; `add_query` registers an id and hands back a
`PendingAdnlQuery` that owns a two-party `tokio::sync::Barrier`; `update_query` deposits an
answer and meets the waiter at that barrier; `wait` meets the resolver, then removes the entry;
`Drop` removes the entry of a handle that never finished.

A `World` holds the map, whether the cache still has a strong reference (`alive`), one
`Barrier` and one `PendingAdnlQuery` per registration (indexed by registration number, which
stands for the identity of the `Arc<Barrier>`), and one frame per `update_query` call ever
started.  An `Action` is one atomic step of one party: the map operations are atomic (one
`DashMap` shard lock), a barrier arrival is atomic (tokio's barrier mutex), and the code
between two awaits of one future runs without a cancellation point.  `step` is partial: an
action that is not enabled gives `none`.

The caller contract of `add_query` (the id has no entry) is `contract`; runs (`Steps`) take only
contract-respecting steps.
-/

namespace Nodekeeper.QueriesCache

/-- A query id, `[u8; 32]`. -/
structure QueryId where
  bytes : List UInt8
  length_eq : bytes.length = 32
  deriving DecidableEq

instance instDecidableEqExcept {ε α : Type} [DecidableEq ε] [DecidableEq α] :
    DecidableEq (Except ε α)
  | .error a, .error b => decidable_of_iff (a = b) ⟨congrArg _, fun h => by cases h; rfl⟩
  | .ok a, .ok b => decidable_of_iff (a = b) ⟨congrArg _, fun h => by cases h; rfl⟩
  | .error _, .ok _ => isFalse nofun
  | .ok _, .error _ => isFalse nofun

/-! ### `tokio::sync::Barrier` with `n = 2` -/

/-- The state of a barrier: arrivals in the current generation, and the generation. -/
structure Barrier where
  arrived : Nat
  generation : Nat
  deriving DecidableEq, Repr

/-- `Barrier::new(2)`. -/
def Barrier.new : Barrier := ⟨0, 1⟩

/-- One arrival, up to `Barrier::wait`'s first await.  The last arrival of a generation starts
the next one and returns at once (`none`); any other arrival waits for the generation it
arrived in to end (`some g`).  An arrival is never retracted. -/
def Barrier.wait (b : Barrier) : Barrier × Option Nat :=
  if b.arrived + 1 = 2 then (⟨0, b.generation + 1⟩, none)
  else (⟨b.arrived + 1, b.generation⟩, some b.generation)

/-- A waiter of generation `g` wakes once the generation has moved past `g`. -/
def Barrier.released (b : Barrier) (g : Nat) : Bool := decide (g < b.generation)

/-! ### The cache's data -/

/-- `QueryState`; `sent r` holds the barrier of registration `r`. -/
inductive QueryState
  | sent (barrier : Nat)
  | received (answer : List UInt8)
  | timeout
  deriving DecidableEq

/-- `QueriesCacheError`. -/
inductive QueriesCacheError
  | cacheDropped
  | invalidQueryState
  | unknownId
  | unexpectedState
  deriving DecidableEq

/-- Where a `PendingAdnlQuery` is in its life. -/
inductive WaitPc
  /-- returned by `add_query`; `wait` not called -/
  | idle
  /-- in `wait`, suspended in `barrier.wait().await` after arriving in generation `g` -/
  | waiting (g : Nat)
  /-- in `wait`, arrived last at the barrier: the same poll goes on to the removal -/
  | released
  /-- `wait` returned -/
  | returned (result : Except QueriesCacheError (Option (List UInt8)))
  /-- dropped without calling `wait` -/
  | dropped
  /-- the `wait` future was dropped while suspended -/
  | cancelled
  deriving DecidableEq

/-- `PendingAdnlQuery`.  Its barrier is the one of its registration; its `Weak` reference is
the `World`'s one cache. -/
structure PendingAdnlQuery where
  queryId : QueryId
  finished : Bool
  deriving DecidableEq

/-- Where an `update_query` call is. -/
inductive UpdatePc
  /-- replaced a `Sent` entry; about to call `barrier.wait()` in the same poll -/
  | arriving
  /-- suspended in `barrier.wait().await` after arriving in generation `g` -/
  | waiting (g : Nat)
  /-- returned -/
  | returned (result : Except QueriesCacheError Bool)
  /-- the future was dropped while suspended -/
  | cancelled
  deriving DecidableEq

/-- The locals of one `update_query(query_id, answer)` call: its arguments and `old`. -/
structure UpdateQuery where
  queryId : QueryId
  answer : Option (List UInt8)
  old : Option QueryState
  deriving DecidableEq

/-- The cache, its barriers, the handles with the program points of their `wait`s, and the
`update_query` calls with their program points.  `waits r` and `callPcs c` mean nothing until
registration `r` or call `c` is made. -/
structure World where
  alive : Bool
  queries : QueryId → Option QueryState
  barriers : Nat → Barrier
  handles : Nat → Option PendingAdnlQuery
  waits : Nat → WaitPc
  calls : Nat → Option UpdateQuery
  callPcs : Nat → UpdatePc
  nextQuery : Nat
  nextCall : Nat

/-- A fresh cache (`QueriesCache::default()` behind one `Arc`). -/
def World.init : World where
  alive := true
  queries := fun _ => none
  barriers := fun _ => Barrier.new
  handles := fun _ => none
  waits := fun _ => .idle
  calls := fun _ => none
  callPcs := fun _ => .cancelled
  nextQuery := 0
  nextCall := 0

/-! ### The code, one atomic section at a time -/

/-- The state `update_query` writes over a `Sent` entry. -/
def QueryState.ofAnswer : Option (List UInt8) → QueryState
  | some bytes => .received bytes
  | none => .timeout

/-- `update_query`'s `match self.queries.entry(query_id)`: `old`, and the map after it. -/
def updateEntry (queries : QueryId → Option QueryState) (queryId : QueryId)
    (answer : Option (List UInt8)) : Option QueryState × (QueryId → Option QueryState) :=
  match queries queryId with
  | none => (none, queries)
  | some (.sent barrier) =>
      (some (.sent barrier), Function.update queries queryId (some (.ofAnswer answer)))
  | some _ => (none, queries)

/-- `update_query`'s `match old`, up to the barrier. -/
def updateResult : Option QueryState → UpdatePc
  | some (.sent _) => .arriving
  | some _ => .returned (.error .unexpectedState)
  | none => .returned (.ok false)

/-- `wait`'s `match cache.queries.remove(&self.query_id)`. -/
def waitResult : Option QueryState → Except QueriesCacheError (Option (List UInt8))
  | some (.received answer) => .ok (some answer)
  | some .timeout => .ok none
  | some _ => .error .invalidQueryState
  | none => .error .unknownId

namespace World

/-- `add_query(query_id)`: a new barrier and handle, and the entry `Sent(barrier)`. -/
def addQuery (s : World) (queryId : QueryId) : World :=
  { s with
    queries := Function.update s.queries queryId (some (.sent s.nextQuery))
    barriers := Function.update s.barriers s.nextQuery Barrier.new
    handles := Function.update s.handles s.nextQuery (some ⟨queryId, false⟩)
    waits := Function.update s.waits s.nextQuery .idle
    nextQuery := s.nextQuery + 1 }

/-- The first poll of `update_query(query_id, answer)` up to the barrier: the entry section and
`match old`. -/
def updateQuery (s : World) (queryId : QueryId) (answer : Option (List UInt8)) : World :=
  { s with
    queries := (updateEntry s.queries queryId answer).2
    calls := Function.update s.calls s.nextCall
      (some ⟨queryId, answer, (updateEntry s.queries queryId answer).1⟩)
    callPcs := Function.update s.callPcs s.nextCall
      (updateResult (updateEntry s.queries queryId answer).1)
    nextCall := s.nextCall + 1 }

/-- `barrier.wait()` of call `c` at barrier `r`: the last arrival returns `Ok(true)` in the
same poll. -/
def arriveUpdate (s : World) (c r : Nat) : World :=
  { s with
    barriers := Function.update s.barriers r (s.barriers r).wait.1
    callPcs := Function.update s.callPcs c (match (s.barriers r).wait.2 with
      | none => .returned (.ok true)
      | some g => .waiting g) }

/-- Sets the program point of call `c`. -/
def setCall (s : World) (c : Nat) (pc : UpdatePc) : World :=
  { s with callPcs := Function.update s.callPcs c pc }

/-- `self.barrier.wait()` of handle `r` on entering `wait`. -/
def arriveWait (s : World) (r : Nat) : World :=
  { s with
    barriers := Function.update s.barriers r (s.barriers r).wait.1
    waits := Function.update s.waits r (match (s.barriers r).wait.2 with
      | none => .released
      | some g => .waiting g) }

/-- The rest of `wait` after the barrier: `finished = true`, upgrade the `Weak`, remove the
entry; then `self` is dropped, and `Drop` sees `finished`. -/
def finishWait (s : World) (r : Nat) (h : PendingAdnlQuery) : World :=
  if s.alive then
    { s with
      queries := Function.update s.queries h.queryId none
      handles := Function.update s.handles r (some { h with finished := true })
      waits := Function.update s.waits r (.returned (waitResult (s.queries h.queryId))) }
  else
    { s with
      handles := Function.update s.handles r (some { h with finished := true })
      waits := Function.update s.waits r (.returned (.error .cacheDropped)) }

/-- `Drop for PendingAdnlQuery`: unless finished, upgrade the `Weak` and remove the entry. -/
def dropQueries (s : World) (h : PendingAdnlQuery) : QueryId → Option QueryState :=
  if h.finished then s.queries
  else if s.alive then Function.update s.queries h.queryId none
  else s.queries

/-- Handle `r` is dropped, and the program point of its `wait` becomes `pc`. -/
def dropHandle (s : World) (r : Nat) (h : PendingAdnlQuery) (pc : WaitPc) : World :=
  { s with
    queries := s.dropQueries h
    waits := Function.update s.waits r pc }

end World

/-- A call suspended on a barrier keeps the cache borrowed. -/
def UpdatePc.inFlight : UpdatePc → Bool
  | .arriving | .waiting _ => true
  | _ => false

/-- One step of one party. -/
inductive Action
  | addQuery (queryId : QueryId)
  | updateQuery (queryId : QueryId) (answer : Option (List UInt8))
  /-- call `c` reaches `barrier.wait()` -/
  | arriveUpdate (c : Nat)
  /-- call `c` is polled after its barrier released it -/
  | resumeUpdate (c : Nat)
  /-- the future of call `c` is dropped while suspended -/
  | cancelUpdate (c : Nat)
  /-- handle `r` calls `wait` -/
  | wait (r : Nat)
  /-- the `wait` of handle `r` is polled past its barrier -/
  | resumeWait (r : Nat)
  /-- handle `r`, or its suspended `wait` future, is dropped -/
  | drop (r : Nat)
  /-- the last strong reference to the cache is dropped -/
  | dropCache
  deriving DecidableEq

/-- No call is in flight: the cache is not borrowed by a suspended `update_query`. -/
def World.quiet (s : World) : Bool :=
  (List.range s.nextCall).all fun c => !(s.callPcs c).inFlight

/-- The step function.  `add_query` and `update_query` need the cache. -/
def step (s : World) : Action → Option World
  | .addQuery queryId => if s.alive then some (s.addQuery queryId) else none
  | .updateQuery queryId answer => if s.alive then some (s.updateQuery queryId answer) else none
  | .arriveUpdate c =>
      match s.calls c, s.callPcs c with
      | some ⟨_, _, some (.sent r)⟩, .arriving => some (s.arriveUpdate c r)
      | _, _ => none
  | .resumeUpdate c =>
      match s.calls c, s.callPcs c with
      | some ⟨_, _, some (.sent r)⟩, .waiting g =>
          if (s.barriers r).released g then some (s.setCall c (.returned (.ok true))) else none
      | _, _ => none
  | .cancelUpdate c =>
      match s.calls c, s.callPcs c with
      | some _, .waiting _ => some (s.setCall c .cancelled)
      | _, _ => none
  | .wait r =>
      match s.handles r, s.waits r with
      | some _, .idle => some (s.arriveWait r)
      | _, _ => none
  | .resumeWait r =>
      match s.handles r, s.waits r with
      | some h, .released => some (s.finishWait r h)
      | some h, .waiting g => if (s.barriers r).released g then some (s.finishWait r h) else none
      | _, _ => none
  | .drop r =>
      match s.handles r, s.waits r with
      | some h, .idle => some (s.dropHandle r h .dropped)
      | some h, .waiting _ => some (s.dropHandle r h .cancelled)
      | _, _ => none
  | .dropCache => if s.alive && s.quiet then some { s with alive := false } else none

/-- What each action needs and what it does. -/
def StepSpec (s s' : World) : Action → Prop
  | .addQuery queryId => s.alive = true ∧ s' = s.addQuery queryId
  | .updateQuery queryId answer => s.alive = true ∧ s' = s.updateQuery queryId answer
  | .arriveUpdate c => ∃ u r, s.calls c = some u ∧ u.old = some (.sent r) ∧
      s.callPcs c = .arriving ∧ s' = s.arriveUpdate c r
  | .resumeUpdate c => ∃ u r g, s.calls c = some u ∧ u.old = some (.sent r) ∧
      s.callPcs c = .waiting g ∧ (s.barriers r).released g = true ∧
      s' = s.setCall c (.returned (.ok true))
  | .cancelUpdate c => ∃ u g, s.calls c = some u ∧ s.callPcs c = .waiting g ∧
      s' = s.setCall c .cancelled
  | .wait r => ∃ h, s.handles r = some h ∧ s.waits r = .idle ∧ s' = s.arriveWait r
  | .resumeWait r => ∃ h, s.handles r = some h ∧
      (s.waits r = .released ∨ ∃ g, s.waits r = .waiting g ∧ (s.barriers r).released g = true) ∧
      s' = s.finishWait r h
  | .drop r => ∃ h, s.handles r = some h ∧
      ((s.waits r = .idle ∧ s' = s.dropHandle r h .dropped) ∨
        (∃ g, s.waits r = .waiting g) ∧ s' = s.dropHandle r h .cancelled)
  | .dropCache => s.alive = true ∧ s.quiet = true ∧ s' = { s with alive := false }

/-- The inversion of `step`. -/
theorem step_spec {s s' : World} {a : Action} (h : step s a = some s') : StepSpec s s' a := by
  cases a <;> simp only [step] at h <;> simp only [StepSpec]
  case addQuery | updateQuery => split at h <;> cases h; exact ⟨‹_›, rfl⟩
  case arriveUpdate c =>
    split at h <;> cases h; exact ⟨_, _, ‹_›, rfl, ‹_›, rfl⟩
  case resumeUpdate c =>
    split at h
    · split at h <;> cases h; exact ⟨_, _, _, ‹_›, rfl, ‹_›, ‹_›, rfl⟩
    · cases h
  case cancelUpdate c => split at h <;> cases h; exact ⟨_, _, ‹_›, ‹_›, rfl⟩
  case wait r => split at h <;> cases h; exact ⟨_, ‹_›, ‹_›, rfl⟩
  case resumeWait r =>
    split at h
    · cases h; exact ⟨_, ‹_›, .inl ‹_›, rfl⟩
    · split at h <;> cases h; exact ⟨_, ‹_›, .inr ⟨_, ‹_›, ‹_›⟩, rfl⟩
    · cases h
  case drop r =>
    split at h
    · cases h; exact ⟨_, ‹_›, .inl ⟨‹_›, rfl⟩⟩
    · cases h; exact ⟨_, ‹_›, .inr ⟨⟨_, ‹_›⟩, rfl⟩⟩
    · cases h
  case dropCache =>
    split at h <;> cases h
    rename_i hq
    simp only [Bool.and_eq_true] at hq
    exact ⟨hq.1, hq.2, rfl⟩

/-- The caller contract of `add_query`: the id has no entry. -/
def contract (s : World) : Action → Bool
  | .addQuery queryId => (s.queries queryId).isNone
  | _ => true

/-- Runs of contract-respecting steps. -/
inductive Steps : World → World → Prop
  | refl (s : World) : Steps s s
  | more {s s₁ s' : World} (a : Action) (hc : contract s a = true) (h : step s a = some s₁)
      (t : Steps s₁ s') : Steps s s'

/-- The states a fresh cache can reach. -/
def Reachable (s : World) : Prop := Steps World.init s

theorem Steps.trans {s s₁ s' : World} (h₁ : Steps s s₁) (h₂ : Steps s₁ s') : Steps s s' := by
  induction h₁ with
  | refl => exact h₂
  | more a hc h _ ih => exact .more a hc h (ih h₂)

/-- Runs a list of actions, refusing one that breaks the contract or is not enabled. -/
def run : World → List Action → Option World
  | s, [] => some s
  | s, a :: as => if contract s a then (step s a).bind (run · as) else none

theorem run_steps : ∀ {s s' : World} {as : List Action}, run s as = some s' → Steps s s'
  | _, _, [], h => by cases h; exact .refl _
  | s, s', a :: as, h => by
    simp only [run] at h
    split at h
    · cases hs : step s a with
      | none => simp [hs] at h
      | some s₁ => simp only [hs, Option.bind_some] at h; exact .more a ‹_› hs (run_steps h)
    · cases h

/-- A run of `as` from a fresh cache that ends where `p` holds. -/
theorem reach_of_run (as : List Action) (p : World → Bool)
    (h : (run World.init as).map p = some true) : ∃ s, Reachable s ∧ p s = true := by
  cases hr : run World.init as with
  | none => simp [hr] at h
  | some s => exact ⟨s, run_steps hr, by simpa [hr] using h⟩

theorem Steps.tail {s s₁ s' : World} {a : Action} (h : Steps s s₁) (hc : contract s₁ a = true)
    (hs : step s₁ a = some s') : Steps s s' :=
  h.trans (.more a hc hs (.refl _))

end Nodekeeper.QueriesCache
