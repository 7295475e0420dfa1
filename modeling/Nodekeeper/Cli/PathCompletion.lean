import Nodekeeper.Str.Utf8
import Mathlib.Data.List.Sort

/-!
# `init.rs` — completion of the node DB path

`PathCompletion` completes what the user typed at the prompt for the node DB path.  An existing
directory typed with a trailing separator completes to its smallest subdirectory.  Otherwise the
last component `n` is completed among the subdirectories `D` of the parent: after sorting `D`,
skipping the names below `n`, and looking at the first name left.  That name is `n` itself when
`n ∈ D`, and then the completion cycles to the next name; otherwise it is taken only when it
properly extends `n`.

The file system and `std::path` are parameters (`Platform`); `pickName` is the part of `get`
that works on the list of names.

* `pickName_spec`: when `n ∈ D`, `pickName` returns the cyclic successor of `n` in `D`
  (`IsCyclicSucc`); otherwise it returns the least name of `D` that properly extends `n`
  (`IsLeastExtension`), and `none` when there is none.
* `get_completes`: `get` on a typed path completes its last component among the directories of
  its parent, as `pickName_spec` says.
* `tab_cycles`: pressing Tab again and again from a directory of the parent reaches every
  directory of the parent, in sorted order, and comes back to the start.

The heart of it is `prefix_of_le_of_le`, through `extends_of_least`: in lexicographic order the
names that extend `n` come right after `n`, so the first name not below `n` extends `n` if any
name does.
-/

namespace Nodekeeper.Cli

open Nodekeeper.Str

/-! ### The model -/

/-- What `get_directories` reads of a directory entry. -/
structure DirEntry where
  /-- `entry.metadata().ok()`, then `is_dir()` -/
  isDir : Option Bool
  /-- `entry.file_name().into_string().ok()` -/
  fileName : Option String

/-- The file system and `std::path`, as `PathCompletion` uses them.  Paths are the strings the
user typed; a path joined from two strings is a string, so `Path::to_str` after `join` is
`Some`. -/
structure Platform where
  /-- `Path::metadata`: `none` on error, else `is_dir()` -/
  metadata : String → Option Bool
  /-- `std::fs::read_dir`: `none` on error, else the entries, each `none` on error -/
  readDir : String → Option (List (Option DirEntry))
  /-- `std::path::is_separator` -/
  isSeparator : Char → Bool
  /-- `Path::parent` -/
  parent : String → Option String
  /-- `Path::file_name`, then `OsStr::to_str` -/
  fileName : String → Option String
  /-- `Path::join` -/
  join : String → String → String

variable (pf : Platform)

/-- `PathCompletion::get_directories`: the names, valid UTF-8, of the entries of `path` that are
directories. -/
def getDirectories (path : String) : List String :=
  match pf.readDir path with
  | some entries => entries.filterMap fun entry => match entry with
    | some entry => entry.isDir.bind fun isDir => if isDir then entry.fileName else none
    | none => none
  | none => []

/-- `input.ends_with(std::path::is_separator)`. -/
def withSeparator (input : String) : Bool :=
  match input.data.getLast? with
  | some c => pf.isSeparator c
  | none => false

/-- The part of `get` that works on the names: `sort_unstable`, `skip_while` the names below
`name`, and look at the first one left.  Strings compare as `Ord for str` does (`utf8_lt_iff`);
`len` and `starts_with` read bytes. -/
def pickName (entries : List String) (name : String) : Option String :=
  let entries := entries.mergeSort (· ≤ ·)
  let rest := entries.dropWhile (· < name)
  rest.head?.bind fun first =>
    if first = name then (rest.tail ++ entries.head?.toList).head?
    else if (utf8 name).length < (utf8 first).length ∧ (utf8 name).isPrefixOf (utf8 first) then
      some first
    else none

/-- `get` past the metadata check: complete the last component of `input` among the directories
of its parent. -/
def completeName (input : String) : Option String :=
  (pf.parent input).bind fun parent =>
    (pf.fileName input).bind fun name =>
      (pickName (getDirectories pf parent) name).map (pf.join parent)

/-- `Completion for PathCompletion::get`. -/
def get (input : String) : Option String :=
  match pf.metadata input with
  | some true =>
    if withSeparator pf input then (getDirectories pf input).min?.map (pf.join input)
    else completeName pf input
  | some false => none
  | none => completeName pf input

/-! ### What a completion is -/

/-- `e` follows `n` in `D`, cycling to the smallest name after the largest. -/
def IsCyclicSucc (D : List String) (n e : String) : Prop :=
  e ∈ D ∧ ((∃ x ∈ D, n < x) → n < e ∧ ∀ x ∈ D, n < x → e ≤ x) ∧
    ((∀ x ∈ D, x ≤ n) → ∀ x ∈ D, e ≤ x)

/-- `x` properly extends `n`. -/
def Extends (n x : String) : Prop := n.data <+: x.data ∧ n ≠ x

/-- `e` is the least name of `D` that properly extends `n`. -/
def IsLeastExtension (D : List String) (n e : String) : Prop :=
  e ∈ D ∧ Extends n e ∧ ∀ x ∈ D, Extends n x → e ≤ x

/-! ### Lexicographic order and prefixes -/

section Lex

variable {α : Type} [LinearOrder α]

theorem cons_le_cons_iff {a b : α} {l₁ l₂ : List α} (h : a :: l₁ ≤ b :: l₂) :
    a ≤ b ∧ (a = b → l₁ ≤ l₂) := by
  refine ⟨le_of_not_lt fun hba => not_lt_of_le h (.rel hba), ?_⟩
  rintro rfl
  rcases h.lt_or_eq with h | h
  · exact le_of_lt (show l₁ < l₂ from List.Lex.cons_iff.1 h)
  · exact (List.cons.inj h).2.le

/-- The names between `n` and one of its extensions extend `n`. -/
theorem prefix_of_le_of_le : ∀ {n y x : List α}, n <+: x → n ≤ y → y ≤ x → n <+: y
  | [], _, _, _, _, _ => List.nil_prefix
  | a :: n, y, x, ⟨t, ht⟩, h₁, h₂ => by
    subst ht
    cases y with
    | nil => exact absurd h₁ (not_le_of_lt (List.nil_lt_cons _ _))
    | cons b y =>
      obtain ⟨hab, h₁⟩ := cons_le_cons_iff h₁
      obtain ⟨hba, h₂⟩ := cons_le_cons_iff h₂
      obtain rfl := le_antisymm hab hba
      exact (List.prefix_cons_inj a).2
        (prefix_of_le_of_le (List.prefix_append n t) (h₁ rfl) (h₂ rfl))

theorem lt_of_prefix_of_ne {n x : List α} (h : n <+: x) (hne : n ≠ x) : n < x := by
  obtain ⟨t, rfl⟩ := h
  cases t with
  | nil => exact absurd (List.append_nil n).symm hne
  | cons b t => simpa using List.Lex.append_left (· < ·) (List.nil_lt_cons b t) n

end Lex

theorem Extends.lt {n x : String} (h : Extends n x) : n < x := by
  rw [String.lt_iff_toList_lt]
  exact lt_of_prefix_of_ne h.1 fun he => h.2 (String.ext he)

/-- `name.len() < first.len() && first.starts_with(name)` is `Extends name first`. -/
theorem extends_iff_bytes (n x : String) :
    ((utf8 n).length < (utf8 x).length ∧ (utf8 n).isPrefixOf (utf8 x) = true) ↔ Extends n x := by
  rw [List.isPrefixOf_iff_prefix, utf8_prefix_iff, Extends]
  constructor
  · rintro ⟨hl, hp⟩
    exact ⟨hp, by rintro rfl; exact Nat.lt_irrefl _ hl⟩
  · rintro ⟨⟨t, ht⟩, hne⟩
    refine ⟨?_, t, ht⟩
    have hx : x = n ++ ⟨t⟩ := String.ext (by simpa using ht.symm)
    subst hx
    cases t with
    | nil => exact absurd (String.ext (by simp)) hne
    | cons c t =>
      rw [utf8_append, List.length_append]
      have : 0 < (utf8 ⟨c :: t⟩).length := by
        simp [utf8, String.length_utf8EncodeChar, Char.utf8Size_pos]
      omega

/-! ### Sorted names -/

section Sorted

variable {l : List String}

theorem dropWhile_lt_eq_filter (hl : l.Pairwise (· < ·)) (n : String) :
    l.dropWhile (· < n) = l.filter (n ≤ ·) := by
  induction l with
  | nil => rfl
  | cons x l ih =>
    rw [List.pairwise_cons] at hl
    by_cases hx : x < n
    · rw [List.dropWhile_cons, List.filter_cons, if_pos (decide_eq_true hx),
        if_neg (by rw [decide_eq_true_eq]; exact not_le_of_lt hx), ih hl.2]
    · have hnx := le_of_not_lt hx
      rw [List.dropWhile_cons, List.filter_cons, if_neg (by rw [decide_eq_true_eq]; exact hx),
        if_pos (decide_eq_true hnx), List.filter_eq_self.2 fun y hy =>
          decide_eq_true (le_of_lt (lt_of_le_of_lt hnx (hl.1 y hy)))]

/-- The head of a sorted list is its least element. -/
theorem head?_eq_some_iff (hl : l.Pairwise (· < ·)) {y : String} :
    l.head? = some y ↔ y ∈ l ∧ ∀ x ∈ l, y ≤ x := by
  cases l with
  | nil => simp
  | cons h l =>
    rw [List.pairwise_cons] at hl
    simp only [List.head?_cons, Option.some.injEq, List.mem_cons, forall_eq_or_imp]
    constructor
    · rintro rfl
      exact ⟨.inl rfl, le_refl _, fun x hx => (hl.1 x hx).le⟩
    · rintro ⟨rfl | hy, hyh, -⟩
      · rfl
      · exact absurd (hl.1 y hy) (not_lt_of_le hyh)

/-- `sort_unstable` of distinct names: strictly increasing, the same names. -/
theorem sorted_of_nodup {D : List String} (hD : D.Nodup) :
    (D.mergeSort (· ≤ ·)).Pairwise (· < ·) ∧ ∀ x, x ∈ D.mergeSort (· ≤ ·) ↔ x ∈ D := by
  refine ⟨?_, fun x => List.mem_mergeSort⟩
  have hs : (D.mergeSort (· ≤ ·)).Pairwise fun a b => decide (a ≤ b) = true :=
    @List.sorted_mergeSort String (fun a b => decide (a ≤ b))
      (fun _ _ _ hab hbc => decide_eq_true (le_trans (of_decide_eq_true hab) (of_decide_eq_true hbc)))
      (fun a b => (le_total a b).elim (fun h => by simp only [decide_eq_true h, Bool.true_or])
        (fun h => by simp only [decide_eq_true h, Bool.or_true])) D
  have hn : (D.mergeSort (· ≤ ·)).Nodup := (List.mergeSort_perm D _).nodup_iff.2 hD
  exact (hs.and hn).imp fun ⟨h₁, h₂⟩ => lt_of_le_of_ne (of_decide_eq_true h₁) h₂

end Sorted

/-! ### Picking a name -/

/-- The names between `n` and one of its extensions extend `n`: so the least name `y ≠ n` not
below `n` extends `n` if any name does. -/
theorem extends_of_least {D : List String} {n y x : String} (hyn : y ≠ n) (hny : n ≤ y)
    (hleast : ∀ x ∈ D, n ≤ x → y ≤ x) (hx : x ∈ D) (hext : Extends n x) : Extends n y :=
  ⟨prefix_of_le_of_le hext.1 (String.le_iff_toList_le.1 hny)
    (String.le_iff_toList_le.1 (hleast x hx hext.lt.le)), Ne.symm hyn⟩

theorem IsLeastExtension.unique {D : List String} {n e e' : String} (h : IsLeastExtension D n e)
    (h' : IsLeastExtension D n e') : e = e' :=
  le_antisymm (h.2.2 e' h'.1 h'.2.1) (h'.2.2 e h.1 h.2.1)

section Pick

variable {D l : List String} (hl : l.Pairwise (· < ·)) (hmem : ∀ x, x ∈ l ↔ x ∈ D)
include hl hmem

/-- The first name of the sorted `l` not below `n` is the least name of `D` not below `n`. -/
theorem head?_filter_le {n y : String} :
    (l.filter (n ≤ ·)).head? = some y ↔ y ∈ D ∧ n ≤ y ∧ ∀ x ∈ D, n ≤ x → y ≤ x := by
  rw [head?_eq_some_iff (hl.filter _)]
  simp only [List.mem_filter, hmem, decide_eq_true_eq, and_imp, and_assoc]

omit hl in
theorem lt_of_filter_le_eq_nil {n : String} (h : l.filter (n ≤ ·) = []) : ∀ x ∈ D, x < n :=
  fun x hx => lt_of_not_le fun hnx => by
    have : x ∈ l.filter (n ≤ ·) := List.mem_filter.2 ⟨(hmem x).2 hx, decide_eq_true hnx⟩
    rw [h] at this
    exact List.not_mem_nil x this

/-- From `n` itself, `chain(entries.first())` gives the next name of `D`, or the least one. -/
theorem cyclicSucc_of_filter_le {n : String} {ys : List String} (hn : n ∈ D)
    (h : l.filter (n ≤ ·) = n :: ys) :
    ∃ e, (ys ++ l.head?.toList).head? = some e ∧ IsCyclicSucc D n e := by
  have hfl := h ▸ hl.filter (fun x => decide (n ≤ x))
  have hys : ∀ x, x ∈ ys ↔ x ∈ D ∧ n < x := fun x => by
    have hx : x ∈ n :: ys ↔ x ∈ D ∧ n ≤ x := by
      rw [← h, List.mem_filter, hmem, decide_eq_true_eq]
    constructor
    · intro hxy
      exact ⟨(hx.1 (.tail _ hxy)).1, List.rel_of_pairwise_cons hfl hxy⟩
    · rintro ⟨hxD, hnx⟩
      rcases List.mem_cons.1 (hx.2 ⟨hxD, hnx.le⟩) with rfl | hxy
      · exact absurd hnx (lt_irrefl _)
      · exact hxy
  cases ys with
  | nil =>
    -- `n` is the largest name: wrap around to the least
    obtain ⟨m, hm⟩ : ∃ m, l.head? = some m := by
      cases l with
      | nil => exact absurd ((hmem n).2 hn) (List.not_mem_nil n)
      | cons m _ => exact ⟨m, rfl⟩
    obtain ⟨hmD, hmin⟩ := (head?_eq_some_iff hl).1 hm
    refine ⟨m, by rw [List.nil_append, hm]; rfl, (hmem m).1 hmD, fun ⟨x, hx, hnx⟩ => ?_,
      fun _ x hx => hmin x ((hmem x).2 hx)⟩
    exact absurd ((hys x).2 ⟨hx, hnx⟩) (List.not_mem_nil x)
  | cons z zs =>
    obtain ⟨hzD, hnz⟩ := (hys z).1 (.head _)
    refine ⟨z, rfl, hzD, fun _ => ⟨hnz, fun x hx hnx => ?_⟩,
      fun hmax => absurd (hmax z hzD) (not_le_of_lt hnz)⟩
    rcases List.mem_cons.1 ((hys x).2 ⟨hx, hnx⟩) with rfl | hx'
    · exact le_refl _
    · exact (List.rel_of_pairwise_cons hfl.of_cons hx').le

end Pick

/-- **Completion.**  `pickName` cycles through `D` from a name of `D`, extends a name not in `D`
to the least name of `D` that properly extends it, and gives `none` when no name does. -/
theorem pickName_spec {D : List String} (hD : D.Nodup) (n : String) :
    (n ∈ D → ∃ e, pickName D n = some e ∧ IsCyclicSucc D n e) ∧
    (n ∉ D → ∀ e, pickName D n = some e ↔ IsLeastExtension D n e) ∧
    (pickName D n = none ↔ n ∉ D ∧ ∀ x ∈ D, ¬ Extends n x) := by
  obtain ⟨hl, hmem⟩ := sorted_of_nodup hD
  simp only [pickName, dropWhile_lt_eq_filter hl n]
  cases hf : (D.mergeSort (· ≤ ·)).filter (n ≤ ·) with
  | nil =>
    -- every name is below `n`
    have hlt := lt_of_filter_le_eq_nil hmem hf
    have hnD : n ∉ D := fun hn => lt_irrefl n (hlt n hn)
    have hnoext : ∀ x ∈ D, ¬ Extends n x := fun x hx hext => not_lt_of_lt hext.lt (hlt x hx)
    exact ⟨fun hn => absurd hn hnD, fun _ e => ⟨nofun, fun h => (hnoext e h.1 h.2.1).elim⟩,
      ⟨fun _ => ⟨hnD, hnoext⟩, fun _ => rfl⟩⟩
  | cons y ys =>
    obtain ⟨hyD, hny, hleast⟩ := (head?_filter_le hl hmem).1 (by rw [hf]; rfl)
    simp only [List.head?_cons, Option.some_bind, List.tail_cons]
    by_cases hyn : y = n
    · -- `n ∈ D`: cycle to the next name
      subst hyn
      obtain ⟨e, he, hsucc⟩ := cyclicSucc_of_filter_le hl hmem hyD hf
      rw [if_pos rfl, he]
      exact ⟨fun _ => ⟨e, rfl, hsucc⟩, fun h => absurd hyD h, ⟨nofun, fun h => absurd hyD h.1⟩⟩
    · -- `n ∉ D`: the first name not below `n` extends it, or none does
      have hnD : n ∉ D := fun hn => hyn (le_antisymm (hleast n hn (le_refl n)) hny)
      rw [if_neg hyn]
      by_cases hy : Extends n y
      · have hlx : IsLeastExtension D n y := ⟨hyD, hy, fun x hx hext => hleast x hx hext.lt.le⟩
        rw [if_pos ((extends_iff_bytes n y).2 hy)]
        exact ⟨fun h => absurd h hnD, fun _ e => ⟨by rintro ⟨⟩; exact hlx,
          fun he => congrArg some (hlx.unique he)⟩, ⟨nofun, fun h => (h.2 y hyD hy).elim⟩⟩
      · have hnoext : ∀ x ∈ D, ¬ Extends n x := fun x hx hext =>
          hy (extends_of_least hyn hny hleast hx hext)
        rw [if_neg (mt (extends_iff_bytes n y).1 hy)]
        exact ⟨fun h => absurd h hnD, fun _ e => ⟨nofun, fun h => (hnoext e h.1 h.2.1).elim⟩,
          ⟨fun _ => ⟨hnD, hnoext⟩, fun _ => rfl⟩⟩

/-! ### `get` -/

/-- Past the metadata check, `get` completes the last component. -/
theorem get_eq_completeName {input : String}
    (hm : pf.metadata input = none ∨ (pf.metadata input = some true ∧ withSeparator pf input = false)) :
    get pf input = completeName pf input := by
  rcases hm with hm | ⟨hm, hs⟩
  · simp only [get, hm]
  · simp [get, hm, hs]

theorem completeName_eq {input p n : String} (hp : pf.parent input = some p)
    (hn : pf.fileName input = some n) :
    completeName pf input = (pickName (getDirectories pf p) n).map (pf.join p) := by
  simp only [completeName, hp, hn, Option.some_bind]

/-- **`get` completes a path.**  For a path that is not a file and not a directory written with
a trailing separator, `get` joins the parent with the completion `pickName_spec` describes. -/
theorem get_completes {input p n : String} (hp : pf.parent input = some p)
    (hn : pf.fileName input = some n)
    (hm : pf.metadata input = none ∨ (pf.metadata input = some true ∧ withSeparator pf input = false))
    (D : List String) (hD : getDirectories pf p = D) (hnd : D.Nodup) :
    (n ∈ D → ∃ e, get pf input = some (pf.join p e) ∧ IsCyclicSucc D n e) ∧
    (n ∉ D → (∃ x ∈ D, Extends n x) →
      ∃ e, get pf input = some (pf.join p e) ∧ IsLeastExtension D n e) ∧
    (get pf input = none ↔ n ∉ D ∧ ∀ x ∈ D, ¬ Extends n x) := by
  rw [get_eq_completeName pf hm, completeName_eq pf hp hn, hD]
  obtain ⟨hin, hout, hnone⟩ := pickName_spec hnd n
  refine ⟨fun h => ?_, fun h hx => ?_, by rw [Option.map_eq_none', hnone]⟩
  · obtain ⟨e, he, hs⟩ := hin h
    exact ⟨e, by rw [he]; rfl, hs⟩
  · cases hpk : pickName D n with
    | none =>
      obtain ⟨x, hx, hext⟩ := hx
      exact absurd hext ((hnone.1 hpk).2 x hx)
    | some e => exact ⟨e, rfl, (hout h e).1 hpk⟩

/-- A node directory `db` holding the directories `node` and `node_db` and a file `notes`. -/
def demoPlatform : Platform where
  metadata path := if path = "db" then some true else none
  readDir path := if path = "db" then
    some [some ⟨some true, some "node_db"⟩, some ⟨some false, some "notes"⟩,
      some ⟨some true, some "node"⟩]
    else none
  isSeparator c := c = '/'
  parent path := if path = "db/no" then some "db" else none
  fileName path := if path = "db/no" then some "no" else none
  join parent name := parent ++ "/" ++ name

theorem demo_get_completes :
    demoPlatform.parent "db/no" = some "db" ∧ demoPlatform.fileName "db/no" = some "no" ∧
    demoPlatform.metadata "db/no" = none ∧ getDirectories demoPlatform "db" = ["node_db", "node"] ∧
    ["node_db", "node"].Nodup ∧
    ((("no" ∈ ["node_db", "node"]) → ∃ e, get demoPlatform "db/no" = some (demoPlatform.join "db" e) ∧
        IsCyclicSucc ["node_db", "node"] "no" e) ∧
      ("no" ∉ ["node_db", "node"] → (∃ x ∈ ["node_db", "node"], Extends "no" x) →
        ∃ e, get demoPlatform "db/no" = some (demoPlatform.join "db" e) ∧
          IsLeastExtension ["node_db", "node"] "no" e) ∧
      (get demoPlatform "db/no" = none ↔
        "no" ∉ ["node_db", "node"] ∧ ∀ x ∈ ["node_db", "node"], ¬ Extends "no" x)) :=
  ⟨by decide, by decide, by decide, by decide, by decide,
    get_completes demoPlatform (by decide) (by decide) (.inl (by decide)) _ (by decide) (by decide)⟩


/-! ### Pressing Tab again and again -/

/-- Tab at the prompt: the input becomes its completion, or stays when there is none. -/
def tab (input : String) : String := (get pf input).getD input

theorem IsCyclicSucc.unique {D : List String} {n e e' : String} (h : IsCyclicSucc D n e)
    (h' : IsCyclicSucc D n e') : e = e' := by
  by_cases hx : ∃ x ∈ D, n < x
  · exact le_antisymm ((h.2.1 hx).2 e' h'.1 (h'.2.1 hx).1) ((h'.2.1 hx).2 e h.1 (h.2.1 hx).1)
  · push_neg at hx
    exact le_antisymm (h.2.2 hx e' h'.1) (h'.2.2 hx e h.1)

section Cycle

variable {D l : List String} (hl : l.Pairwise (· < ·)) (hmem : ∀ x, x ∈ l ↔ x ∈ D)
include hl hmem

/-- In the sorted names, the cyclic successor of the `i`-th is the next one, or the first after
the last. -/
theorem isCyclicSucc_get (i : Fin l.length) :
    IsCyclicSucc D (l.get i) (l.get ⟨(i + 1) % l.length, Nat.mod_lt _ i.pos⟩) := by
  have hmono : StrictMono l.get := fun i j hij => List.pairwise_iff_get.1 hl i j hij
  have hidx : ∀ x ∈ D, ∃ j, l.get j = x := fun x hx => List.mem_iff_get.1 ((hmem x).2 hx)
  refine ⟨(hmem _).1 (List.get_mem _ _ _), fun ⟨x, hx, hix⟩ => ?_, fun hmax x hx => ?_⟩
  · obtain ⟨j, rfl⟩ := hidx x hx
    have hij : i < j := hmono.lt_iff_lt.1 hix
    have hsucc : (i.val + 1) % l.length = i.val + 1 := Nat.mod_eq_of_lt (by omega)
    refine ⟨hmono.lt_iff_lt.2 (show i < _ by simp only [Fin.lt_def, hsucc]; omega),
      fun y hy hiy => ?_⟩
    obtain ⟨k, rfl⟩ := hidx y hy
    exact hmono.le_iff_le.2 (show _ ≤ k by
      have := hmono.lt_iff_lt.1 hiy
      simp only [Fin.le_def, hsucc]
      omega)
  · obtain ⟨j, rfl⟩ := hidx x hx
    have hlast : i.val + 1 = l.length := by
      by_contra hne
      have hlt : i < ⟨i.val + 1, by omega⟩ := by simp only [Fin.lt_def]; omega
      exact absurd (hmax _ ((hmem _).1 (List.get_mem _ _ _))) (not_le_of_lt (hmono hlt))
    exact hmono.le_iff_le.2 (by simp only [Fin.le_def, hlast, Nat.mod_self]; omega)

end Cycle

section Tabs

variable {p : String} {D : List String} (hD : getDirectories pf p = D) (hnd : D.Nodup)
  (hlaws : ∀ e ∈ D, pf.parent (pf.join p e) = some p ∧ pf.fileName (pf.join p e) = some e ∧
    pf.metadata (pf.join p e) = some true ∧ withSeparator pf (pf.join p e) = false)
include hD hnd hlaws

/-- Tab on a directory of the parent moves to the next one in sorted order. -/
theorem tab_join_get (i : Fin (D.mergeSort (· ≤ ·)).length) :
    tab pf (pf.join p ((D.mergeSort (· ≤ ·)).get i)) =
      pf.join p ((D.mergeSort (· ≤ ·)).get ⟨(i + 1) % _, Nat.mod_lt _ i.pos⟩) := by
  obtain ⟨hl, hmem⟩ := sorted_of_nodup hnd
  have hn : (D.mergeSort (· ≤ ·)).get i ∈ D := (hmem _).1 (List.get_mem _ _ _)
  obtain ⟨hp, hf, hm, hs⟩ := hlaws _ hn
  obtain ⟨e, he, hsucc⟩ := (pickName_spec hnd _).1 hn
  rw [tab, get_eq_completeName pf (.inr ⟨hm, hs⟩), completeName_eq pf hp hf, hD, he,
    hsucc.unique (isCyclicSucc_get hl hmem i)]
  rfl

/-- `k` presses of Tab move `k` names on, cyclically. -/
theorem tab_iterate (i : Fin (D.mergeSort (· ≤ ·)).length) (k : Nat) :
    (tab pf)^[k] (pf.join p ((D.mergeSort (· ≤ ·)).get i)) =
      pf.join p ((D.mergeSort (· ≤ ·)).get ⟨(i + k) % _, Nat.mod_lt _ i.pos⟩) := by
  induction k with
  | zero => simp only [Function.iterate_zero, id, Nat.add_zero, Nat.mod_eq_of_lt i.isLt]
  | succ k ih =>
    rw [Function.iterate_succ_apply', ih, tab_join_get pf hD hnd hlaws]
    simp only [Nat.mod_add_mod, Nat.add_assoc]

/-- **Tab cycles through the directories.**  From a directory of the parent, pressing Tab
reaches every directory of the parent within as many presses as there are, and that many
presses come back to the start. -/
theorem tab_cycles {n : String} (hn : n ∈ D) :
    (∀ x ∈ D, ∃ k < D.length, (tab pf)^[k] (pf.join p n) = pf.join p x) ∧
      (tab pf)^[D.length] (pf.join p n) = pf.join p n := by
  obtain ⟨hl, hmem⟩ := sorted_of_nodup hnd
  have hlen : (D.mergeSort (· ≤ ·)).length = D.length := List.length_mergeSort D
  obtain ⟨i, rfl⟩ := List.mem_iff_get.1 ((hmem n).2 hn)
  have hi := i.isLt
  refine ⟨fun x hx => ?_, ?_⟩
  · obtain ⟨j, rfl⟩ := List.mem_iff_get.1 ((hmem x).2 hx)
    have hj := j.isLt
    refine ⟨(j + (D.mergeSort (· ≤ ·)).length - i) % (D.mergeSort (· ≤ ·)).length,
      hlen ▸ Nat.mod_lt _ (by omega), ?_⟩
    rw [tab_iterate pf hD hnd hlaws]
    congr
    rw [Nat.add_mod_mod, Nat.add_sub_cancel' (by omega), Nat.add_mod_right, Nat.mod_eq_of_lt hj]
  · rw [← hlen, tab_iterate pf hD hnd hlaws]
    congr
    rw [Nat.add_mod_right, Nat.mod_eq_of_lt hi]

end Tabs

/-- A node directory `db` holding the directories `node` and `node_db` and a file `notes`, with
the paths `join` builds. -/
def demoTabPlatform : Platform where
  metadata path := if path = "db" ∨ path = "db/node" ∨ path = "db/node_db" then some true else none
  readDir path := if path = "db" then
    some [some ⟨some true, some "node_db"⟩, some ⟨some false, some "notes"⟩,
      some ⟨some true, some "node"⟩]
    else none
  isSeparator c := c = '/'
  parent path := if path = "db/node" ∨ path = "db/node_db" then some "db" else none
  fileName path := if path = "db/node" then some "node"
    else if path = "db/node_db" then some "node_db" else none
  join parent name := parent ++ "/" ++ name

theorem demo_tab_cycles :
    getDirectories demoTabPlatform "db" = ["node_db", "node"] ∧ ["node_db", "node"].Nodup ∧
    (∀ e ∈ ["node_db", "node"], demoTabPlatform.parent (demoTabPlatform.join "db" e) = some "db" ∧
      demoTabPlatform.fileName (demoTabPlatform.join "db" e) = some e ∧
      demoTabPlatform.metadata (demoTabPlatform.join "db" e) = some true ∧
      withSeparator demoTabPlatform (demoTabPlatform.join "db" e) = false) ∧
    "node" ∈ ["node_db", "node"] ∧
    ((∀ x ∈ ["node_db", "node"], ∃ k < ["node_db", "node"].length,
        (tab demoTabPlatform)^[k] (demoTabPlatform.join "db" "node") = demoTabPlatform.join "db" x) ∧
      (tab demoTabPlatform)^[["node_db", "node"].length] (demoTabPlatform.join "db" "node") =
        demoTabPlatform.join "db" "node") :=
  ⟨by decide, by decide, by decide, by decide,
    tab_cycles demoTabPlatform (by decide) (by decide) (by decide) (by decide)⟩

end Nodekeeper.Cli
