import Nodekeeper.QueriesCache.Invariant

/-!
# Queries cache — every step keeps the invariant

One lemma per atomic section of the code, then `step_inv` by cases on the action and
`reachable_inv` by induction on the run.  Steps that leave the map, the handles and the calls
alone reuse `Links` and `Owners` through `Links.congr` and `Owners.congr`; the two removals
(`wait`'s and `Drop`'s) share `Owners.remove`.
-/

namespace Nodekeeper.QueriesCache

open Function

variable {s s' : World}

theorem World.resolves_congr (hc : s'.calls = s.calls) : s'.Resolves = s.Resolves := by
  funext c r u; simp [World.Resolves, hc]

theorem World.resolverArrived_congr (hc : s'.calls = s.calls) (hp : s'.callPcs = s.callPcs)
    (r : Nat) : s'.ResolverArrived r ↔ s.ResolverArrived r := by
  simp [World.ResolverArrived, World.resolves_congr hc, hp]

theorem World.quiet_spec (hq : s.quiet = true) {c : Nat} (hc : c < s.nextCall) :
    (s.callPcs c).inFlight = false := by
  simp only [World.quiet, List.all_eq_true, List.mem_range, Bool.not_eq_true'] at hq
  exact hq c hc

theorem Links.congr (h : Links s)
    (hh : ∀ r, (s'.handles r).map (·.queryId) = (s.handles r).map (·.queryId))
    (hc : s'.calls = s.calls) (hq : s'.nextQuery = s.nextQuery) (hn : s'.nextCall = s.nextCall) :
    Links s' where
  handles_fresh r hr := by
    simpa [h.handles_fresh r (hq ▸ hr)] using hh r
  calls_fresh c hc' := hc ▸ h.calls_fresh c (hn ▸ hc')
  resolver_handle c r u hu := by
    obtain ⟨h₀, hh₀, hq₀⟩ := h.resolver_handle c r u (World.resolves_congr hc ▸ hu)
    have := hh r
    rw [hh₀] at this
    obtain ⟨h', hh', hq'⟩ := Option.map_eq_some'.mp this
    exact ⟨h', hh', hq' ▸ hq₀⟩
  resolver_unique := World.resolves_congr hc ▸ h.resolver_unique

theorem Owners.congr (h : Owners s) (hq : s'.queries = s.queries) (hh : s'.handles = s.handles)
    (hr : s'.Resolves = s.Resolves) (hp : ∀ r, (s'.waits r).pending = (s.waits r).pending) :
    Owners s' := by
  obtain ⟨h₁, h₂, h₃, h₄⟩ := h
  exact ⟨by simpa only [hq, hh, hp] using h₁, by simpa only [hq, hh, hp, hr] using h₂,
    by simpa only [hq, hh, hp, hr] using h₃, by simpa only [hh, hp] using h₄⟩

/-- Removing the entry of a pending handle `r` that stops being pending. -/
theorem Owners.remove (ho : Owners s) {r : Nat} {h : PendingAdnlQuery}
    (hh : s.handles r = some h) (hp : (s.waits r).pending = true)
    (hq : s'.queries = update s.queries h.queryId none)
    (hh' : ∀ r', r' ≠ r → s'.handles r' = s.handles r')
    (hw : (s'.waits r).pending = false) (hw' : ∀ r', r' ≠ r → s'.waits r' = s.waits r')
    (hr : s'.Resolves = s.Resolves) : Owners s' := by
  have other : ∀ {r' h'}, s'.handles r' = some h' → (s'.waits r').pending = true →
      r' ≠ r ∧ s.handles r' = some h' ∧ (s.waits r').pending = true ∧ h'.queryId ≠ h.queryId := by
    intro r' h' hh₁ hp₁
    have hne : r' ≠ r := by rintro rfl; simp [hw] at hp₁
    rw [hh' r' hne] at hh₁
    rw [hw' r' hne] at hp₁
    exact ⟨hne, hh₁, hp₁, fun he => hne (ho.owner_unique r' r h' h hh₁ hh hp₁ hp he)⟩
  refine ⟨?_, ?_, ?_, ?_⟩
  · intro id st he
    rw [hq, update_apply] at he
    split_ifs at he with hid
    obtain ⟨r', h', hh₁, rfl, hp₁⟩ := ho.entry_owner id st he
    have hne : r' ≠ r := by rintro rfl; simp [hh] at hh₁; exact hid (hh₁ ▸ rfl)
    exact ⟨r', h', (hh' r' hne).trans hh₁, rfl, (hw' r' hne).symm ▸ hp₁⟩
  · intro r' h' hh₁ hp₁ hres
    obtain ⟨-, hh₂, hp₂, hne⟩ := other hh₁ hp₁
    rw [hq, update_noteq hne]
    exact ho.owner_sent r' h' hh₂ hp₂ (hr ▸ hres)
  · intro r' h' c u hh₁ hp₁ hu
    obtain ⟨-, hh₂, hp₂, hne⟩ := other hh₁ hp₁
    rw [hq, update_noteq hne]
    exact ho.owner_resolved r' h' c u hh₂ hp₂ (hr ▸ hu)
  · intro r₁ r₂ h₁ h₂ hh₁ hh₂ hp₁ hp₂ he
    obtain ⟨-, hh₁, hp₁, -⟩ := other hh₁ hp₁
    obtain ⟨-, hh₂, hp₂, -⟩ := other hh₂ hp₂
    exact ho.owner_unique r₁ r₂ h₁ h₂ hh₁ hh₂ hp₁ hp₂ he

/-- A step that leaves registration `r`'s handle, program point and barrier alone, and its
resolver's program point too, keeps `RegOk s r`. -/
theorem RegOk.frame {r : Nat} (h : RegOk s r)
    (hr : ∀ c u, s'.Resolves c r u ↔ s.Resolves c r u)
    (hpc : ∀ c u, s.Resolves c r u → s'.callPcs c = s.callPcs c)
    (hw : s'.waits r = s.waits r) (hb : s'.barriers r = s.barriers r)
    (hh : s'.handles r = s.handles r) : RegOk s' r := by
  have hR : s'.ResolverArrived r ↔ s.ResolverArrived r := by
    simp only [World.ResolverArrived]
    exact exists_congr fun c => exists_congr fun u =>
      ⟨fun ⟨h₁, h₂⟩ => ⟨(hr c u).mp h₁, hpc c u ((hr c u).mp h₁) ▸ h₂⟩,
        fun ⟨h₁, h₂⟩ => ⟨(hr c u).mpr h₁, (hpc c u h₁).symm ▸ h₂⟩⟩
  obtain ⟨h₁, h₂, h₃, h₄, h₅, h₆, h₇⟩ := h
  refine ⟨by rwa [hw], by rwa [hh, hw], by rwa [hR, hb, hw], by rwa [hR, hb, hw], by rwa [hw, hR],
    fun c u hu => ?_, fun res hres => ?_⟩
  · rw [hw, hpc c u ((hr c u).mp hu)]; exact h₆ c u ((hr c u).mp hu)
  · obtain ⟨c, u, hu, hpa, hres⟩ := h₇ res (hw ▸ hres)
    exact ⟨c, u, (hr c u).mpr hu, (hpc c u hu).symm ▸ hpa, hres⟩

theorem RegOk.frame_calls {r : Nat} (h : RegOk s r) (hc : s'.calls = s.calls)
    (hp : s'.callPcs = s.callPcs) (hw : s'.waits r = s.waits r) (hb : s'.barriers r = s.barriers r)
    (hh : s'.handles r = s.handles r) : RegOk s' r :=
  h.frame (by simp [World.resolves_congr hc]) (by simp [hp]) hw hb hh

/-! ### Steps of the program points and barriers -/

theorem inv_dropCache (hi : Inv s) (hq : s.quiet = true) : Inv { s with alive := false } where
  toLinks := hi.toLinks.congr (fun _ => rfl) rfl rfl rfl
  owners h := by cases h
  pc_fits := hi.pc_fits
  dead_quiet _ _ _ hc := World.quiet_spec hq (hi.lt_of_call hc)
  dropped_dead _ _ := rfl
  reg r := (hi.reg r).frame_calls rfl rfl rfl rfl rfl

/-- A call that is not at its arrival moves to another program point that is not either. -/
theorem inv_setCall (hi : Inv s) {c : Nat} {u : UpdateQuery} {pc : UpdatePc}
    (hc : s.calls c = some u) (hold : s.callPcs c ≠ .arriving) (hnew : pc ≠ .arriving)
    (hfits : UpdatePc.Fits u.old pc) (hflight : s.alive = false → pc.inFlight = false)
    (hrend : pc = .returned (.ok true) → ∀ r, u.old = some (.sent r) → (s.waits r).arrived = true) :
    Inv (s.setCall c pc) := by
  refine ⟨hi.toLinks.congr (fun _ => rfl) rfl rfl rfl,
    fun ha => (hi.owners ha).congr rfl rfl rfl fun _ => rfl, ?_, ?_, hi.dropped_dead, fun r => ?_⟩
  · rintro c' u' (hc' : s.calls c' = some u')
    simp only [World.setCall, update_apply]
    split_ifs with h
    · subst h; rw [hc] at hc'; cases hc'; exact hfits
    · exact hi.pc_fits c' u' hc'
  · intro hd c' u' hc'
    simp only [World.setCall, update_apply]
    split_ifs with h
    · exact hflight hd
    · exact hi.dead_quiet hd c' u' hc'
  · by_cases hr : u.old = some (.sent r)
    · -- `c` is `r`'s resolver: its arrival is unchanged, and only `Ok(true)` needs a look
      have hR : (s.setCall c pc).ResolverArrived r ↔ s.ResolverArrived r := by
        simp only [World.ResolverArrived, World.Resolves, World.setCall, update_apply]
        refine exists_congr fun c' => exists_congr fun u' => and_congr_right fun _ => ?_
        split_ifs with h <;> simp_all
      obtain ⟨h₁, h₂, h₃, h₄, h₅, h₆, h₇⟩ := hi.reg r
      refine ⟨h₁, h₂, fun h => h₃ (hR.mp h), fun h => h₄ (mt hR.mpr h), fun h => hR.mpr (h₅ h),
        ?_, fun res hw => ?_⟩
      · rintro c' u' ⟨hc' : s.calls c' = some u', hold'⟩ hpc
        simp only [World.setCall, update_apply] at hpc
        split_ifs at hpc with h
        · exact hrend hpc r hr
        · exact h₆ c' u' ⟨hc', hold'⟩ hpc
      · obtain ⟨c', u', hu', hpa, hres⟩ := h₇ res hw
        refine ⟨c', u', hu', ?_, hres⟩
        simp only [World.setCall, update_apply]
        split_ifs <;> assumption
    · refine (hi.reg r).frame (fun _ _ => Iff.rfl) (fun c' u' hu => ?_) rfl rfl rfl
      have hne : c' ≠ c := by
        rintro rfl; obtain ⟨hu₁, hu₂⟩ := hu; rw [hc] at hu₁; cases hu₁; exact hr hu₂
      simp [World.setCall, update_noteq hne]

/-- A resolver's arrival: the barrier now counts it, and the call returns at once when the
handle was already there. -/
theorem inv_arriveUpdate (hi : Inv s) {c r : Nat} {u : UpdateQuery} (hc : s.calls c = some u)
    (hold : u.old = some (.sent r)) (hpc : s.callPcs c = .arriving) :
    Inv (s.arriveUpdate c r) := by
  have hu : s.Resolves c r u := ⟨hc, hold⟩
  have hn := hi.not_arrived_of_arriving hu hpc
  have ha : s.alive = true := by
    cases h : s.alive
    · simpa [hpc, UpdatePc.inFlight] using hi.dead_quiet h c u hc
    · rfl
  have hb := (hi.reg r).barrier_waiting hn
  have hpc' : ∀ c', (s.arriveUpdate c r).callPcs c' =
      if c' = c then (if (s.waits r).arrived then .returned (.ok true) else .waiting 1)
      else s.callPcs c' := by
    intro c'
    simp only [World.arriveUpdate, hb, barrierAfter_wait _ _ rfl, update_apply]
    split_ifs <;> rfl
  refine ⟨hi.toLinks.congr (fun _ => rfl) rfl rfl rfl,
    fun ha => (hi.owners ha).congr rfl rfl rfl fun _ => rfl, ?_,
    fun hd => by simp [World.arriveUpdate, ha] at hd, hi.dropped_dead, fun r' => ?_⟩
  · rintro c' u' (hc' : s.calls c' = some u')
    rw [hpc']
    split_ifs with h h'
    · subst h; rw [hc] at hc'; cases hc'; simp [UpdatePc.Fits, hold]
    · subst h; rw [hc] at hc'; cases hc'; simp [UpdatePc.Fits, hold]
    · exact hi.pc_fits c' u' hc'
  · by_cases hr : r' = r
    · -- the resolver has now arrived
      subst hr
      have hR : (s.arriveUpdate c r').ResolverArrived r' :=
        ⟨c, u, hu, by rw [hpc', if_pos rfl]; split <;> simp⟩
      obtain ⟨h₁, h₂, -, -, -, h₆, h₇⟩ := hi.reg r'
      refine ⟨h₁, h₂, fun _ => ?_, absurd hR, fun _ => hR, ?_, fun res hw => ?_⟩
      · simp [World.arriveUpdate, hb, barrierAfter_wait _ _ rfl]; split <;> rfl
      · rintro c' u' ⟨hc' : s.calls c' = some u', hold'⟩ hret
        rw [hpc'] at hret
        split_ifs at hret with h h'
        · exact h'
        · exact h₆ c' u' ⟨hc', hold'⟩ hret
      · obtain ⟨c', u', hu', hpa, hres⟩ := h₇ res hw
        refine ⟨c', u', hu', ?_, hres⟩
        rw [hpc']
        split_ifs
        exacts [nofun, nofun, hpa]
    · refine (hi.reg r').frame (fun _ _ => Iff.rfl) (fun c' u' hu' => ?_) rfl
        (by simp [World.arriveUpdate, update_noteq hr]) rfl
      have hne : c' ≠ c := by
        rintro rfl; obtain ⟨hu₁, hu₂⟩ := hu'; rw [hc] at hu₁; cases hu₁; rw [hold] at hu₂
        exact hr (by cases hu₂; rfl)
      rw [hpc', if_neg hne]

/-- A handle's arrival on entering `wait`, for the program point `w` and barrier `b` it leads
to. -/
theorem inv_arriveWait_of (hi : Inv s) {r : Nat} {h : PendingAdnlQuery} {w : WaitPc} {b : Barrier}
    (hh : s.handles r = some h) (hw : s.waits r = .idle) (hwp : w.pending = true)
    (hwa : w.arrived = true) (hrel : w = .released → s.ResolverArrived r)
    (hgen : ∀ g, w = .waiting g → g = 1)
    (hbA : s.ResolverArrived r → b = barrierAfter true true)
    (hbW : ¬ s.ResolverArrived r → b = barrierAfter true false) :
    Inv { s with barriers := update s.barriers r b, waits := update s.waits r w } := by
  refine ⟨hi.toLinks.congr (fun _ => rfl) rfl rfl rfl, fun ha => (hi.owners ha).congr rfl rfl rfl
    fun r' => ?_, hi.pc_fits, hi.dead_quiet, fun r' hr' => ?_, fun r' => ?_⟩
  · by_cases h₁ : r' = r
    · subst h₁; simp only [update_same, hw, hwp]; rfl
    · simp [update_noteq h₁]
  · by_cases h₁ : r' = r
    · subst h₁; simp only [update_same] at hr'; subst hr'; cases hwp
    · exact hi.dropped_dead r' (by simpa [update_noteq h₁] using hr')
  · by_cases h₁ : r' = r
    · subst h₁
      have hR : World.ResolverArrived
          { s with barriers := update s.barriers r' b, waits := update s.waits r' w } r' ↔
            s.ResolverArrived r' := World.resolverArrived_congr rfl rfl r'
      refine ⟨fun g hg => hgen g (by simpa using hg), fun h' (hh' : s.handles r' = some h') _ =>
        (hi.reg r').unfinished h' hh' (by simp [hw, WaitPc.pending]),
        fun h => by simp [hbA (hR.mp h), hwa], fun h => by simp [hbW (mt hR.mpr h), hwa],
        fun h => hR.mpr (hrel (by simpa using h)), fun _ _ _ _ => by simp [hwa], ?_⟩
      intro res hres
      simp only [update_same] at hres
      subst hres; cases hwp
    · exact (hi.reg r').frame_calls rfl rfl (by simp [update_noteq h₁])
        (by simp [update_noteq h₁]) rfl

theorem inv_arriveWait (hi : Inv s) {r : Nat} {h : PendingAdnlQuery} (hh : s.handles r = some h)
    (hw : s.waits r = .idle) : Inv (s.arriveWait r) := by
  have hidle : (s.waits r).arrived = false := by rw [hw]; rfl
  by_cases hR : s.ResolverArrived r
  · have hb := (hi.reg r).barrier_arrived hR
    rw [hidle] at hb
    simp only [World.arriveWait, hb]
    exact inv_arriveWait_of hi hh hw rfl rfl (fun _ => hR) (fun _ h => by cases h) (fun _ => rfl)
      (absurd hR)
  · have hb := (hi.reg r).barrier_waiting hR
    rw [hidle] at hb
    simp only [World.arriveWait, hb]
    exact inv_arriveWait_of hi hh hw rfl rfl (fun h => by cases h) (fun _ h => by cases h; rfl)
      (absurd · hR) (fun _ => rfl)

/-! ### Registrations and removals -/

/-- A registration whose handle leaves its pending states, with its arrival unchanged. -/
theorem RegOk.leave {r : Nat} (h : RegOk s r) (hc : s'.calls = s.calls)
    (hp : s'.callPcs = s.callPcs) (hb : s'.barriers r = s.barriers r)
    (harr : (s'.waits r).arrived = (s.waits r).arrived) (hnp : (s'.waits r).pending = false)
    (hret : ∀ res, s'.waits r = .returned res → ∃ c u, s.Resolves c r u ∧
      s.callPcs c ≠ .arriving ∧ (res = .ok u.answer ∨ res = .error .cacheDropped)) :
    RegOk s' r := by
  have hR := World.resolverArrived_congr hc hp r
  have hr := World.resolves_congr hc
  refine ⟨fun g hg => by simp [hg, WaitPc.pending] at hnp, fun _ _ hp' => by simp [hp'] at hnp,
    fun h' => by rw [hb, harr]; exact h.barrier_arrived (hR.mp h'),
    fun h' => by rw [hb, harr]; exact h.barrier_waiting (mt hR.mpr h'),
    fun hw => by simp [hw, WaitPc.pending] at hnp,
    fun c u hu hret' => by rw [harr]; exact h.rendezvous c u (hr ▸ hu) (hp ▸ hret'),
    fun res hres => hr ▸ hp ▸ hret res hres⟩

/-- `add_query` on an id with no entry. -/
theorem inv_addQuery (hi : Inv s) {id : QueryId} (ha : s.alive = true)
    (hn : s.queries id = none) : Inv (s.addQuery id) := by
  have ho := hi.owners ha
  have hne : ∀ {r h}, s.handles r = some h → r ≠ s.nextQuery := fun hh => Nat.ne_of_lt (hi.lt_of_handle hh)
  have hid : ∀ {r h}, s.handles r = some h → (s.waits r).pending = true → h.queryId ≠ id := by
    rintro r h hh hp rfl
    simpa [hn] using hi.entry_of_pending ha hh hp
  have hfresh : ∀ c u, ¬ s.Resolves c s.nextQuery u := fun c u hu => Nat.ne_of_lt (hi.lt_of_resolves hu) rfl
  have hh₀ : (s.addQuery id).handles s.nextQuery = some ⟨id, false⟩ := by simp [World.addQuery]
  have hw₀ : (s.addQuery id).waits s.nextQuery = .idle := by simp [World.addQuery]
  have hh' : ∀ r, r ≠ s.nextQuery → (s.addQuery id).handles r = s.handles r := fun r h => by
    simp [World.addQuery, update_noteq h]
  have hw' : ∀ r, r ≠ s.nextQuery → (s.addQuery id).waits r = s.waits r := fun r h => by
    simp [World.addQuery, update_noteq h]
  -- a pending handle is the new one, or an old one of another id
  have hold : ∀ {r h}, (s.addQuery id).handles r = some h →
      ((s.addQuery id).waits r).pending = true →
      (r = s.nextQuery ∧ h.queryId = id) ∨
        (r ≠ s.nextQuery ∧ s.handles r = some h ∧ (s.waits r).pending = true ∧ h.queryId ≠ id) := by
    intro r h hh hp
    by_cases h₁ : r = s.nextQuery
    · subst h₁; rw [hh₀] at hh; cases hh; exact .inl ⟨rfl, rfl⟩
    · rw [hh' r h₁] at hh; rw [hw' r h₁] at hp; exact .inr ⟨h₁, hh, hp, hid hh hp⟩
  refine ⟨⟨fun r hr => ?_, hi.calls_fresh, fun c r u hu => ?_, hi.resolver_unique⟩,
    fun _ => ⟨?_, ?_, ?_, ?_⟩, hi.pc_fits, fun h => by simp [World.addQuery, ha] at h,
    fun r hr => ?_, fun r => ?_⟩
  · simp only [World.addQuery] at hr
    rw [hh' r (by omega)]; exact hi.handles_fresh r (by omega)
  · obtain ⟨h, hh, hq⟩ := hi.resolver_handle c r u hu
    exact ⟨h, (hh' r (hne hh)).trans hh, hq⟩
  · intro id' st he
    by_cases h₁ : id' = id
    · subst h₁; exact ⟨_, _, hh₀, rfl, by rw [hw₀]; rfl⟩
    · simp only [World.addQuery, update_noteq h₁] at he
      obtain ⟨r, h, hh, hq, hp⟩ := ho.entry_owner id' st he
      exact ⟨r, h, (hh' r (hne hh)).trans hh, hq, (hw' r (hne hh)).symm ▸ hp⟩
  · intro r h hh hp hres
    rcases hold hh hp with ⟨rfl, hq⟩ | ⟨-, hh, hp, hq⟩
    · simp [World.addQuery, hq]
    · simp only [World.addQuery, update_noteq hq]
      exact ho.owner_sent r h hh hp hres
  · intro r h c u hh hp hu
    rcases hold hh hp with ⟨rfl, -⟩ | ⟨-, hh, hp, hq⟩
    · exact absurd hu (hfresh c u)
    · simp only [World.addQuery, update_noteq hq]
      exact ho.owner_resolved r h c u hh hp hu
  · intro r₁ r₂ h₁ h₂ hh₁ hh₂ hp₁ hp₂ hq
    rcases hold hh₁ hp₁ with ⟨rfl, hq₁⟩ | ⟨-, hh₁, hp₁, hq₁⟩ <;>
      rcases hold hh₂ hp₂ with ⟨rfl, hq₂⟩ | ⟨-, hh₂, hp₂, hq₂⟩
    · rfl
    · exact absurd (hq ▸ hq₁) hq₂
    · exact absurd (hq ▸ hq₂.symm ▸ rfl) hq₁
    · exact ho.owner_unique r₁ r₂ h₁ h₂ hh₁ hh₂ hp₁ hp₂ hq
  · have : s.waits r = .returned (.error .cacheDropped) := by
      by_cases h₁ : r = s.nextQuery
      · subst h₁; rw [hw₀] at hr; cases hr
      · rwa [hw' r h₁] at hr
    simp [hi.dropped_dead r this] at ha
  · by_cases h₁ : r = s.nextQuery
    · subst h₁
      refine ⟨fun g hg => by simp [hw₀] at hg, fun h hh _ => by rw [hh₀] at hh; cases hh; rfl,
        fun ⟨c, u, hu, _⟩ => absurd hu (hfresh c u), fun _ => by simp [World.addQuery]; rfl,
        fun hw => by simp [hw₀] at hw, fun c u hu => absurd hu (hfresh c u),
        fun res hw => by simp [hw₀] at hw⟩
    · exact (hi.reg r).frame_calls rfl rfl (hw' r h₁) (by simp [World.addQuery, update_noteq h₁])
        (hh' r h₁)

/-- `update_query` on an id whose entry is not `Sent`: nothing but a new call frame. -/
theorem inv_updateQuery_vacant (hi : Inv s) (ha : s.alive = true) {id : QueryId}
    {answer : Option (List UInt8)} (he : updateEntry s.queries id answer = (none, s.queries)) :
    Inv (s.updateQuery id answer) := by
  have hc₀ : s.calls s.nextCall = none := hi.calls_fresh _ (Nat.le_refl _)
  have hr : ∀ c r u, (s.updateQuery id answer).Resolves c r u ↔ s.Resolves c r u := by
    intro c r u
    simp only [World.Resolves, World.updateQuery, he, update_apply]
    split_ifs with h
    · subst h; simp [hc₀]; rintro rfl; simp
    · rfl
  have hpc : ∀ c r u, s.Resolves c r u → (s.updateQuery id answer).callPcs c = s.callPcs c :=
    fun c r u hu => by simp [World.updateQuery, update_noteq (Nat.ne_of_lt (hi.lt_of_call hu.1))]
  have hR : (s.updateQuery id answer).Resolves = s.Resolves := by
    funext c r u; exact propext (hr c r u)
  refine ⟨⟨hi.handles_fresh, fun c hc => ?_, fun c r u hu => hi.resolver_handle c r u ((hr c r u).mp hu),
    fun c₁ c₂ r u₁ u₂ h₁ h₂ => hi.resolver_unique c₁ c₂ r u₁ u₂ ((hr _ _ _).mp h₁) ((hr _ _ _).mp h₂)⟩,
    fun _ => (hi.owners ha).congr (by simp [World.updateQuery, he]) rfl hR fun _ => rfl, ?_,
    fun h => by simp [World.updateQuery, ha] at h, hi.dropped_dead,
    fun r => (hi.reg r).frame (fun c u => hr c r u) (fun c u hu => hpc c r u hu) rfl rfl rfl⟩
  · simp only [World.updateQuery] at hc ⊢
    rw [update_noteq (by omega)]; exact hi.calls_fresh c (by omega)
  · intro c u hc
    simp only [World.updateQuery, he, update_apply] at hc ⊢
    split_ifs at hc ⊢ with h
    · cases hc; rfl
    · exact hi.pc_fits c u hc

/-- `update_query` on a `Sent` entry: the call becomes the registration's resolver. -/
theorem inv_updateQuery_sent (hi : Inv s) (ha : s.alive = true) {id : QueryId}
    {answer : Option (List UInt8)} {r : Nat} (he : s.queries id = some (.sent r)) :
    Inv (s.updateQuery id answer) := by
  have ho := hi.owners ha
  obtain ⟨h, hh, rfl, hp, hnone⟩ := hi.sent_owner ha he
  have hc₀ : s.calls s.nextCall = none := hi.calls_fresh _ (Nat.le_refl _)
  have hent : updateEntry s.queries h.queryId answer =
      (some (.sent r), update s.queries h.queryId (some (.ofAnswer answer))) := by
    simp [updateEntry, he]
  have hr : ∀ c r' u, (s.updateQuery h.queryId answer).Resolves c r' u ↔
      (c = s.nextCall ∧ r' = r ∧ u = ⟨h.queryId, answer, some (.sent r)⟩) ∨ s.Resolves c r' u := by
    intro c r' u
    simp only [World.Resolves, World.updateQuery, hent, update_apply]
    split_ifs with h₁
    · subst h₁; simp only [hc₀, true_and, reduceCtorEq, false_and, or_false]
      constructor
      · rintro ⟨⟨⟩, h₂⟩; cases h₂; exact ⟨rfl, rfl⟩
      · rintro ⟨rfl, rfl⟩; exact ⟨rfl, rfl⟩
    · simp [h₁]
  have hpc : ∀ c, c ≠ s.nextCall → (s.updateQuery h.queryId answer).callPcs c = s.callPcs c :=
    fun c h₁ => by simp [World.updateQuery, update_noteq h₁]
  have hpc₀ : (s.updateQuery h.queryId answer).callPcs s.nextCall = .arriving := by
    simp [World.updateQuery, hent, updateResult]
  have hother : ∀ {r' h'}, s.handles r' = some h' → (s.waits r').pending = true → r' ≠ r →
      h'.queryId ≠ h.queryId :=
    fun hh' hp' hne hq => hne (ho.owner_unique _ _ _ _ hh' hh hp' hp hq)
  refine ⟨⟨hi.handles_fresh, fun c hc => ?_, fun c r' u hu => ?_, fun c₁ c₂ r' u₁ u₂ h₁ h₂ => ?_⟩,
    fun _ => ⟨?_, ?_, ?_, ho.owner_unique⟩, ?_, fun h => by simp [World.updateQuery, ha] at h,
    hi.dropped_dead, fun r' => ?_⟩
  · simp only [World.updateQuery] at hc ⊢
    rw [update_noteq (by omega)]; exact hi.calls_fresh c (by omega)
  · rcases (hr c r' u).mp hu with ⟨-, rfl, rfl⟩ | hu
    · exact ⟨h, hh, rfl⟩
    · exact hi.resolver_handle c r' u hu
  · rcases (hr _ _ _).mp h₁ with ⟨rfl, rfl, -⟩ | h₁ <;>
      rcases (hr _ _ _).mp h₂ with ⟨rfl, hr₂, -⟩ | h₂
    · rfl
    · exact absurd h₂ (hnone _ _)
    · exact absurd (hr₂ ▸ h₁) (hnone _ _)
    · exact hi.resolver_unique _ _ _ _ _ h₁ h₂
  · intro id' st he'
    by_cases h₁ : id' = h.queryId
    · exact ⟨r, h, hh, h₁.symm, hp⟩
    · simp only [World.updateQuery, hent, update_noteq h₁] at he'
      exact ho.entry_owner id' st he'
  · intro r' h' (hh' : s.handles r' = some h') (hp' : (s.waits r').pending = true) hres
    have hne : r' ≠ r := by rintro rfl; exact hres _ _ ((hr _ _ _).mpr (.inl ⟨rfl, rfl, rfl⟩))
    simp only [World.updateQuery, hent, update_noteq (hother hh' hp' hne)]
    exact ho.owner_sent r' h' hh' hp' fun c u hu => hres c u ((hr c r' u).mpr (.inr hu))
  · intro r' h' c u (hh' : s.handles r' = some h') (hp' : (s.waits r').pending = true) hu
    rcases (hr c r' u).mp hu with ⟨-, rfl, rfl⟩ | hu
    · rw [hh] at hh'; cases hh'; simp [World.updateQuery, hent]
    · have hne : r' ≠ r := by rintro rfl; exact hnone c u hu
      simp only [World.updateQuery, hent, update_noteq (hother hh' hp' hne)]
      exact ho.owner_resolved r' h' c u hh' hp' hu
  · intro c u hc
    by_cases h₁ : c = s.nextCall
    · subst h₁; simp [World.updateQuery, hent] at hc; subst hc; simp [hpc₀, UpdatePc.Fits]
    · rw [hpc c h₁]; exact hi.pc_fits c u (by simpa [World.updateQuery, update_noteq h₁] using hc)
  · by_cases h₁ : r' = r
    · -- the new resolver has not arrived yet
      subst h₁
      have hR : ¬ (s.updateQuery h.queryId answer).ResolverArrived r' := by
        rintro ⟨c, u, hu, hpc'⟩
        rcases (hr c r' u).mp hu with ⟨rfl, -, -⟩ | hu
        · exact hpc' hpc₀
        · exact hnone c u hu
      have hR₀ : ¬ s.ResolverArrived r' := fun ⟨c, u, hu, _⟩ => hnone c u hu
      obtain ⟨h₁, h₂, -, h₄, h₅, -, h₇⟩ := hi.reg r'
      refine ⟨h₁, h₂, (absurd · hR), fun _ => h₄ hR₀, fun hw => absurd (h₅ hw) hR₀, ?_,
        fun res hw => ?_⟩
      · intro c u hu hret
        rcases (hr c r' u).mp hu with ⟨rfl, -, -⟩ | hu
        · rw [hpc₀] at hret; cases hret
        · exact absurd hu (hnone c u)
      · obtain ⟨c, u, hu, -⟩ := h₇ res hw; exact absurd hu (hnone c u)
    · refine (hi.reg r').frame (fun c u => ?_) (fun c u hu => hpc c ?_) rfl rfl rfl
      · rw [hr]; exact ⟨by rintro (⟨-, rfl, -⟩ | hu); exacts [absurd rfl h₁, hu], .inr⟩
      · rintro rfl; simp [World.Resolves, hc₀] at hu

/-- `wait`'s removal after the barrier, with the cache alive or not. -/
theorem inv_finishWait (hi : Inv s) {r : Nat} {h : PendingAdnlQuery} (hh : s.handles r = some h)
    (hrel : s.waits r = .released ∨
      ∃ g, s.waits r = .waiting g ∧ (s.barriers r).released g = true) :
    Inv (s.finishWait r h) := by
  have hpa : (s.waits r).pending = true ∧ (s.waits r).arrived = true := by
    rcases hrel with hw | ⟨g, hw, -⟩ <;> rw [hw] <;> exact ⟨rfl, rfl⟩
  obtain ⟨c, u, hu, hpcu⟩ := hi.resolverArrived_of_wake hrel
  have hsame : (s.finishWait r h).calls = s.calls ∧ (s.finishWait r h).callPcs = s.callPcs ∧
      (s.finishWait r h).barriers = s.barriers ∧ (s.finishWait r h).alive = s.alive ∧
      (s.finishWait r h).nextQuery = s.nextQuery ∧ (s.finishWait r h).nextCall = s.nextCall := by
    unfold World.finishWait; split <;> exact ⟨rfl, rfl, rfl, rfl, rfl, rfl⟩
  obtain ⟨hc, hpc, hb, ha, hnq, hnc⟩ := hsame
  have hh' : ∀ r', (s.finishWait r h).handles r' =
      if r' = r then some { h with finished := true } else s.handles r' := by
    intro r'; unfold World.finishWait; split <;> simp [update_apply]
  have hw' : ∀ r', r' ≠ r → (s.finishWait r h).waits r' = s.waits r' := by
    intro r' h₁; unfold World.finishWait; split <;> simp [update_noteq h₁]
  obtain ⟨res, hwr, hres⟩ : ∃ res, (s.finishWait r h).waits r = .returned res ∧
      (res = .ok u.answer ∨ res = .error .cacheDropped) := by
    unfold World.finishWait; split
    · refine ⟨waitResult (s.queries h.queryId), by simp, .inl ?_⟩
      rw [(hi.owners ‹_›).owner_resolved r h c u hh hpa.1 hu, waitResult_ofAnswer]
    · exact ⟨_, by simp, .inr rfl⟩
  refine ⟨hi.toLinks.congr (fun r' => ?_) hc hnq hnc, fun ha' => ?_,
    by rw [hc, hpc]; exact hi.pc_fits, by rw [ha, hc, hpc]; exact hi.dead_quiet, fun r' hr' => ?_,
    fun r' => ?_⟩
  · rw [hh']; split_ifs with h₁ <;> simp [h₁, hh]
  · have ha₀ : s.alive = true := ha ▸ ha'
    refine (hi.owners ha₀).remove hh hpa.1 (by simp [World.finishWait, ha₀])
      (fun r' h₁ => by rw [hh', if_neg h₁]) (by rw [hwr]; rfl) hw' (World.resolves_congr hc)
  · by_cases h₁ : r' = r
    · subst h₁
      by_cases ha₀ : s.alive = true
      · simp only [World.finishWait, ha₀, if_true, update_same, WaitPc.returned.injEq] at hr'
        exact absurd hr' (waitResult_ne_cacheDropped _)
      · simpa [ha] using ha₀
    · rw [ha]; exact hi.dropped_dead r' (hw' r' h₁ ▸ hr')
  · by_cases h₁ : r' = r
    · subst h₁
      exact (hi.reg r').leave hc hpc (by rw [hb]) (by rw [hwr, hpa.2]; rfl) (by rw [hwr]; rfl)
        fun res' h' => by rw [hwr] at h'; cases h'; exact ⟨c, u, hu, hpcu, hres⟩
    · exact (hi.reg r').frame_calls hc hpc (hw' r' h₁) (by rw [hb]) (by rw [hh', if_neg h₁])

/-- `Drop` of a handle, idle or suspended in `wait`. -/
theorem inv_dropHandle (hi : Inv s) {r : Nat} {h : PendingAdnlQuery} {pc : WaitPc}
    (hh : s.handles r = some h)
    (hpc : (s.waits r = .idle ∧ pc = .dropped) ∨ ((∃ g, s.waits r = .waiting g) ∧ pc = .cancelled)) :
    Inv (s.dropHandle r h pc) := by
  have hp : (s.waits r).pending = true := by
    rcases hpc with ⟨hw, -⟩ | ⟨⟨g, hw⟩, -⟩ <;> rw [hw] <;> rfl
  have harr : pc.arrived = (s.waits r).arrived := by
    rcases hpc with ⟨hw, rfl⟩ | ⟨⟨g, hw⟩, rfl⟩ <;> rw [hw] <;> rfl
  have hnp : pc.pending = false := by rcases hpc with ⟨-, rfl⟩ | ⟨-, rfl⟩ <;> rfl
  have hfin := (hi.reg r).unfinished h hh hp
  have hw' : ∀ r', r' ≠ r → (s.dropHandle r h pc).waits r' = s.waits r' :=
    fun r' h₁ => by simp [World.dropHandle, update_noteq h₁]
  refine ⟨hi.toLinks.congr (fun _ => rfl) rfl rfl rfl,
    fun ha => (hi.owners ha).remove hh hp ?_ (fun _ _ => rfl) (by simp [World.dropHandle, hnp]) hw'
      rfl, hi.pc_fits, hi.dead_quiet, fun r' hr' => ?_, fun r' => ?_⟩
  · simp only [World.dropHandle, World.dropQueries] at ha ⊢
    simp [hfin, ha]
  · by_cases h₁ : r' = r
    · subst h₁; simp only [World.dropHandle, update_same] at hr'
      rcases hpc with ⟨-, rfl⟩ | ⟨-, rfl⟩ <;> cases hr'
    · exact hi.dropped_dead r' (hw' r' h₁ ▸ hr')
  · by_cases h₁ : r' = r
    · subst h₁
      refine (hi.reg r').leave rfl rfl rfl (by simp [World.dropHandle, harr])
        (by simp [World.dropHandle, hnp]) fun res hres => ?_
      simp only [World.dropHandle, update_same] at hres
      rcases hpc with ⟨-, rfl⟩ | ⟨-, rfl⟩ <;> cases hres
    · exact (hi.reg r').frame_calls rfl rfl (hw' r' h₁) rfl rfl

/-! ### Every step, every run -/

theorem inv_updateQuery (hi : Inv s) (ha : s.alive = true) (id : QueryId)
    (answer : Option (List UInt8)) : Inv (s.updateQuery id answer) := by
  cases he : s.queries id with
  | none => exact inv_updateQuery_vacant hi ha (by simp [updateEntry, he])
  | some st =>
    cases st with
    | sent r => exact inv_updateQuery_sent hi ha he
    | received _ | timeout => exact inv_updateQuery_vacant hi ha (by simp [updateEntry, he])

/-- Every contract-respecting step keeps the invariant. -/
theorem step_inv (hi : Inv s) {a : Action} (hc : contract s a = true) (h : step s a = some s') :
    Inv s' := by
  have hs := step_spec h
  cases a with
  | addQuery id =>
    obtain ⟨ha, rfl⟩ := hs; exact inv_addQuery hi ha (by simpa [contract] using hc)
  | updateQuery id answer => obtain ⟨ha, rfl⟩ := hs; exact inv_updateQuery hi ha id answer
  | arriveUpdate c => obtain ⟨u, r, hc, hold, hpc, rfl⟩ := hs; exact inv_arriveUpdate hi hc hold hpc
  | resumeUpdate c =>
    obtain ⟨u, r, g, hc, hold, hpc, hrel, rfl⟩ := hs
    have hfits := hi.pc_fits c u hc
    rw [hold, hpc] at hfits
    obtain rfl : g = 1 := by simpa [UpdatePc.Fits] using hfits
    exact inv_setCall hi hc (by simp [hpc]) (by simp) (by simp [UpdatePc.Fits, hold]) (fun _ => rfl)
      fun _ r' hr => by rw [hold] at hr; cases hr; exact (hi.arrived_of_released hrel).2
  | cancelUpdate c =>
    obtain ⟨u, g, hc, hpc, rfl⟩ := hs
    have hfits := hi.pc_fits c u hc
    rw [hpc] at hfits
    refine inv_setCall hi hc (by simp [hpc]) (by simp) ?_ (fun _ => rfl) (fun h => by cases h)
    revert hfits; rcases u with ⟨_, _, _ | ⟨_ | _ | _⟩⟩ <;> simp [UpdatePc.Fits]
  | wait r => obtain ⟨h, hh, hw, rfl⟩ := hs; exact inv_arriveWait hi hh hw
  | resumeWait r => obtain ⟨h, hh, hrel, rfl⟩ := hs; exact inv_finishWait hi hh hrel
  | drop r =>
    obtain ⟨h, hh, ⟨hw, rfl⟩ | ⟨hw, rfl⟩⟩ := hs
    · exact inv_dropHandle hi hh (.inl ⟨hw, rfl⟩)
    · exact inv_dropHandle hi hh (.inr ⟨hw, rfl⟩)
  | dropCache => obtain ⟨-, hq, rfl⟩ := hs; exact inv_dropCache hi hq

theorem Steps.inv (h : Steps s s') (hi : Inv s) : Inv s' := by
  induction h with
  | refl => exact hi
  | more _ hc hs _ ih => exact ih (step_inv hi hc hs)

/-- Every reachable state satisfies the invariant. -/
theorem reachable_inv (h : Reachable s) : Inv s := Steps.inv h init_inv

end Nodekeeper.QueriesCache
