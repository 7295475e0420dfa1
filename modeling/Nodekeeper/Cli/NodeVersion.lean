import Nodekeeper.Str.Utf8
import Mathlib.Data.List.Basic

/-!
# `init.rs` — the node's version

`get_node_version` runs the node binary with `--version` and reads its first line with
`parse_node_version`: the bytes after `TON Node, version ` up to the first `b'\n'`, as UTF-8.

* `parseNodeVersion_eq_some_iff`: the parser returns `s` exactly when the output is the prefix,
  the encoding of `s` with no `'\n'` in it, and nothing or a new line after it.
* `parse_node_version_spec`: the two outputs the node can print, and the refusal of every output
  without the prefix.
* `getNodeVersion_eq_ok_iff`: the version is returned only from a run that succeeded.
-/

namespace Nodekeeper.Cli

open Nodekeeper.Str

/-- `<[u8]>::strip_prefix`: `split_at` the prefix's length, and compare the head. -/
def stripPrefix (pre bytes : List UInt8) : Option (List UInt8) :=
  if pre.length ≤ bytes.length then
    if bytes.take pre.length = pre then some (bytes.drop pre.length) else none
  else none

/-- `b"TON Node, version "`. -/
def versionPrefix : List UInt8 := utf8 "TON Node, version "

/-- `parse_node_version`: the first line after the prefix, as UTF-8. -/
def parseNodeVersion (output : List UInt8) : Option String :=
  (stripPrefix versionPrefix output).bind fun output =>
    (output.splitOnP (· == 10)).head?.bind fromUtf8

/-- What `Command::output` returns. -/
structure Output where
  /-- `ExitStatus::success` -/
  success : Bool
  /-- `ExitStatus` as `Display` prints it -/
  status : String
  stdout : List UInt8

/-- `get_node_version`, after the binary ran (`some`) or could not be run (`none`); an error is
its outermost context. -/
def getNodeVersion (child : Option Output) : Except String String :=
  match child with
  | none => .error "failed to run node binary"
  | some child =>
    if !child.success then .error ("node finished with exit code " ++ child.status)
    else match parseNodeVersion child.stdout with
      | some version => .ok version
      | none => .error "invalid node output during version check"

/-! ### The pieces -/

theorem stripPrefix_eq_some_iff {pre bytes rest : List UInt8} :
    stripPrefix pre bytes = some rest ↔ bytes = pre ++ rest := by
  unfold stripPrefix
  constructor
  · intro h
    split_ifs at h with h₁ h₂
    cases h
    conv_lhs => rw [← List.take_append_drop pre.length bytes, h₂]
  · rintro rfl
    simp

theorem stripPrefix_eq_none_iff {pre bytes : List UInt8} :
    stripPrefix pre bytes = none ↔ ¬ pre <+: bytes := by
  rw [← not_iff_not, ← ne_eq, Option.ne_none_iff_exists', not_not]
  simp only [stripPrefix_eq_some_iff]
  exact ⟨fun ⟨r, h⟩ => ⟨r, h.symm⟩, fun ⟨r, h⟩ => ⟨r, h.symm⟩⟩

/-- The first piece of a split is what comes before the first separator. -/
theorem head?_splitOnP {α : Type} (p : α → Bool) (l : List α) :
    (l.splitOnP p).head? = some (l.takeWhile fun x => !p x) := by
  induction l with
  | nil => rfl
  | cons x l ih =>
    rw [List.splitOnP_cons]
    cases hx : p x
    · cases h : l.splitOnP p with
      | nil => exact absurd h (List.splitOnP_ne_nil _ _)
      | cons a as => simp_all [List.takeWhile_cons]
    · simp [hx]

/-- The parser is `from_utf8` of the first line after the prefix. -/
theorem parseNodeVersion_eq {output : List UInt8} :
    parseNodeVersion output = (stripPrefix versionPrefix output).bind fun output =>
      fromUtf8 (output.takeWhile fun b => !(b == 10)) := by
  unfold parseNodeVersion
  congr; funext output
  rw [head?_splitOnP]; rfl

/-! ### The parser -/

/-- **The version line.**  `parse_node_version(out) = Some(s)` exactly when `out` is the prefix,
the encoding of `s`, which has no `'\n'`, and then nothing or `b'\n'` and anything. -/
theorem parseNodeVersion_eq_some_iff {output : List UInt8} {s : String} :
    parseNodeVersion output = some s ↔ ∃ rest, output = versionPrefix ++ utf8 s ++ rest ∧
      '\n' ∉ s.data ∧ (rest = [] ∨ rest.head? = some 10) := by
  rw [parseNodeVersion_eq]
  constructor
  · intro h
    obtain ⟨r, hr, h⟩ := Option.bind_eq_some.1 h
    rw [stripPrefix_eq_some_iff] at hr
    rw [fromUtf8_eq_some_iff] at h
    refine ⟨r.dropWhile fun b => !(b == 10), ?_, ?_, ?_⟩
    · rw [hr, ← h, List.append_assoc, List.takeWhile_append_dropWhile]
    · rw [← newline_mem_utf8, ← h]
      intro hm
      simpa using List.mem_takeWhile_imp hm
    · cases hd : r.dropWhile fun b => !(b == 10) with
      | nil => exact .inl rfl
      | cons b bs =>
        have := List.head?_dropWhile_not (fun b => !(b == 10)) r
        rw [hd] at this
        simp at this
        exact .inr (by simp [this])
  · rintro ⟨rest, rfl, hs, hrest⟩
    have hn : ∀ b ∈ utf8 s, (!(b == 10)) = true := fun b hb => by
      have : b ≠ 10 := fun h => hs ((newline_mem_utf8 s).1 (h ▸ hb))
      simpa using this
    have ht : (rest.takeWhile fun b => !(b == 10)) = [] := by
      rcases hrest with rfl | hrest
      · rfl
      · cases rest with
        | nil => cases hrest
        | cons b bs =>
          simp only [List.head?_cons, Option.some.injEq] at hrest
          simp [hrest]
    rw [List.append_assoc, show stripPrefix versionPrefix (versionPrefix ++ (utf8 s ++ rest)) =
      some (utf8 s ++ rest) from stripPrefix_eq_some_iff.2 rfl, Option.some_bind,
      List.takeWhile_append_of_pos hn, ht, List.append_nil, fromUtf8_eq_some_iff]

/-- `parse_node_version` on the node's output: the version line followed by more lines, the
version line alone, and anything without the prefix. -/
theorem parse_node_version_spec :
    (∀ (v : String) (rest : List UInt8), '\n' ∉ v.data →
      parseNodeVersion (versionPrefix ++ utf8 v ++ [10] ++ rest) = some v) ∧
    (∀ v : String, '\n' ∉ v.data → parseNodeVersion (versionPrefix ++ utf8 v) = some v) ∧
    (∀ output, ¬ versionPrefix <+: output → parseNodeVersion output = none) ∧
    (∀ output s, parseNodeVersion output = some s ↔ ∃ rest, output = versionPrefix ++ utf8 s ++ rest ∧
      '\n' ∉ s.data ∧ (rest = [] ∨ rest.head? = some 10)) := by
  refine ⟨fun v rest hv => ?_, fun v hv => ?_, fun output h => ?_,
    fun _ _ => parseNodeVersion_eq_some_iff⟩
  · exact parseNodeVersion_eq_some_iff.2 ⟨10 :: rest, by simp, hv, .inr rfl⟩
  · exact parseNodeVersion_eq_some_iff.2 ⟨[], by simp, hv, .inl rfl⟩
  · rw [parseNodeVersion, stripPrefix_eq_none_iff.2 h, Option.none_bind]

example : parseNodeVersion (utf8 "TON Node, version 0.51.1\nRust: rustc 1.61.0") = some "0.51.1" :=
  by decide

/-- `get_node_version` returns `v` exactly when the binary ran, exited with success, and printed
the version line of `v`. -/
theorem getNodeVersion_eq_ok_iff {child : Option Output} {v : String} :
    getNodeVersion child = .ok v ↔ ∃ output, child = some output ∧ output.success = true ∧
      ∃ rest, output.stdout = versionPrefix ++ utf8 v ++ rest ∧ '\n' ∉ v.data ∧
        (rest = [] ∨ rest.head? = some 10) := by
  rw [← exists_congr fun output => and_congr_right fun _ => and_congr_right fun _ =>
    parseNodeVersion_eq_some_iff]
  unfold getNodeVersion
  rcases child with _ | ⟨success, status, stdout⟩
  · simp
  · cases success
    · simp
    · simp only [Bool.not_true, Bool.false_eq_true, if_false, Option.some.injEq,
        exists_eq_left', true_and]
      split <;> simp_all

end Nodekeeper.Cli
