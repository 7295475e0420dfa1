import Mathlib.Data.String.Basic

/-!
# `core::str` — UTF-8

What `init.rs` relies on from Rust's strings: `str::from_utf8`, `str::as_bytes`, `str::len`,
`str::starts_with` and `Ord for str`.  A Rust `str` is a Lean `String` (a list of scalar values),
and its bytes are `utf8 s`, Lean's own encoder `String.utf8EncodeChar` applied to each scalar.
`from_utf8` is `decodeUtf8`: the checks of `run_utf8_validation`, one sequence at a time, with
the scalar value each accepted sequence stands for.

* `utf8EncodeChar_toNat`: Lean's encoder writes the bytes of the standard (`utf8Bytes`).
* `fromUtf8_eq_some_iff`: `from_utf8` accepts exactly the encodings of strings, and returns the
  string encoded.
* `newline_mem_utf8`, `utf8_prefix_iff`, `utf8_lt_iff`: byte `b'\n'` stands only for `'\n'`;
  byte prefixes are prefixes; comparing bytes, as `Ord for str` does, is comparing strings.

The arithmetic is done once, on the digits of a scalar value in base 64 (`utf8Bytes_cases`).
-/

namespace Nodekeeper.Str

/-! ### Encoding -/

/-- The UTF-8 bytes of scalar value `n`, as numbers (the Unicode standard, table 3-6). -/
def utf8Bytes (n : Nat) : List Nat :=
  if n < 0x80 then [n]
  else if n < 0x800 then [0xC0 + n / 64, 0x80 + n % 64]
  else if n < 0x10000 then [0xE0 + n / 4096, 0x80 + n / 64 % 64, 0x80 + n % 64]
  else [0xF0 + n / 262144, 0x80 + n / 4096 % 64, 0x80 + n / 64 % 64, 0x80 + n % 64]

/-- `str::as_bytes`. -/
def utf8 (s : String) : List UInt8 := s.data.flatMap String.utf8EncodeChar

/-- `utf8` is Lean's own `String.toUTF8`. -/
theorem utf8_eq_toUTF8 (s : String) : utf8 s = s.toUTF8.data.toList := rfl

/-- A scalar value: below the surrogates, or above them and at most `0x10FFFF`. -/
theorem Char.toNat_valid (c : Char) :
    c.toNat < 0xD800 ∨ 0xDFFF < c.toNat ∧ c.toNat < 0x110000 := by
  rcases c.valid with h | h <;> simp [UInt32.lt_def, BitVec.lt_def, Char.toNat] at h ⊢ <;> omega

theorem Char.toNat_ofNat_of_valid {n : Nat} (h : n < 0xD800 ∨ 0xDFFF < n ∧ n < 0x110000) :
    (Char.ofNat n).toNat = n := by
  have hv : n.isValidChar := by simp only [Nat.isValidChar]; omega
  simp [Char.ofNat, hv, Char.ofNatAux, Char.toNat, UInt32.toNat, UInt32.ofNat']

theorem UInt8.toNat_lor (a b : UInt8) : (a ||| b).toNat = a.toNat ||| b.toNat :=
  BitVec.toNat_or ..

/-- A byte `x &&& (2^i - 1) ||| t` keeps the low `i` bits of `x` under the tag `t`. -/
theorem UInt8.toNat_mask_tag (x m t : UInt8) (i k : Nat) (hm : m.toNat = 2 ^ i - 1)
    (ht : t.toNat = 2 ^ i * k) : (x &&& m ||| t).toNat = 2 ^ i * k + x.toNat % 2 ^ i := by
  rw [UInt8.toNat_lor, UInt8.and_toNat, hm, ht, Nat.and_pow_two_sub_one_eq_mod, Nat.or_comm,
    ← Nat.mul_add_lt_is_or (Nat.mod_lt _ (Nat.two_pow_pos i))]

theorem UInt32.toNat_toUInt8 (v : UInt32) : v.toUInt8.toNat = v.toNat % 256 := by
  simp [UInt8.toNat, UInt32.toUInt8, Nat.toUInt8, UInt8.ofNat, BitVec.toNat_ofNat]

theorem Nat.toNat_toUInt8 (x : Nat) : x.toUInt8.toNat = x % 256 := by
  simp [UInt8.toNat, Nat.toUInt8, UInt8.ofNat, BitVec.toNat_ofNat]

theorem Nat.toNat_toUInt8_of_lt {x : Nat} (h : x < 256) : x.toUInt8.toNat = x :=
  (Nat.toNat_toUInt8 x).trans (Nat.mod_eq_of_lt h)

theorem UInt32.toNat_shiftRight (v : UInt32) :
    (v >>> 6).toNat = v.toNat / 64 ∧ (v >>> 12).toNat = v.toNat / 4096 ∧
      (v >>> 18).toNat = v.toNat / 262144 := by
  refine ⟨?_, ?_, ?_⟩
  · show (v.toBitVec >>> ((6 : UInt32) % 32).toBitVec).toNat = _
    simp [BitVec.toNat_ushiftRight, Nat.shiftRight_eq_div_pow, UInt32.toNat]
  · show (v.toBitVec >>> ((12 : UInt32) % 32).toBitVec).toNat = _
    simp [BitVec.toNat_ushiftRight, Nat.shiftRight_eq_div_pow, UInt32.toNat]
  · show (v.toBitVec >>> ((18 : UInt32) % 32).toBitVec).toNat = _
    simp [BitVec.toNat_ushiftRight, Nat.shiftRight_eq_div_pow, UInt32.toNat]

/-- Lean's encoder writes the bytes of the standard. -/
theorem utf8EncodeChar_toNat (c : Char) :
    (String.utf8EncodeChar c).map UInt8.toNat = utf8Bytes c.toNat := by
  have hv := Char.toNat_valid c
  have h₁ : c.val ≤ 0x7f ↔ c.toNat < 0x80 := by
    rw [UInt32.le_def, BitVec.le_def]; exact Nat.lt_succ_iff.symm
  have h₂ : c.val ≤ 0x7ff ↔ c.toNat < 0x800 := by
    rw [UInt32.le_def, BitVec.le_def]; exact Nat.lt_succ_iff.symm
  have h₃ : c.val ≤ 0xffff ↔ c.toNat < 0x10000 := by
    rw [UInt32.le_def, BitVec.le_def]; exact Nat.lt_succ_iff.symm
  obtain ⟨s₆, s₁₂, s₁₈⟩ := UInt32.toNat_shiftRight c.val
  have t₁ (x : UInt8) : (x &&& 0x3f ||| 0x80).toNat = 0x80 + x.toNat % 64 :=
    UInt8.toNat_mask_tag x _ _ 6 2 rfl rfl
  have t₂ (x : UInt8) : (x &&& 0x1f ||| 0xc0).toNat = 0xC0 + x.toNat % 32 :=
    UInt8.toNat_mask_tag x _ _ 5 6 rfl rfl
  have t₃ (x : UInt8) : (x &&& 0x0f ||| 0xe0).toNat = 0xE0 + x.toNat % 16 :=
    UInt8.toNat_mask_tag x _ _ 4 14 rfl rfl
  have t₄ (x : UInt8) : (x &&& 0x07 ||| 0xf0).toNat = 0xF0 + x.toNat % 8 :=
    UInt8.toNat_mask_tag x _ _ 3 30 rfl rfl
  unfold String.utf8EncodeChar utf8Bytes
  simp only [h₁, h₂, h₃]
  simp only [Char.toNat] at hv ⊢
  split_ifs <;> simp only [List.map, t₁, t₂, t₃, t₄, UInt32.toNat_toUInt8, s₆, s₁₂, s₁₈,
    List.cons.injEq, and_true] <;> omega

/-- A list of bytes is determined by their values. -/
theorem map_toNat_inj {l l' : List UInt8} (h : l.map UInt8.toNat = l'.map UInt8.toNat) : l = l' :=
  List.map_injective_iff.2 (fun _ _ => UInt8.toNat.inj) h

theorem utf8EncodeChar_eq (c : Char) :
    String.utf8EncodeChar c = (utf8Bytes c.toNat).map Nat.toUInt8 := by
  refine map_toNat_inj ?_
  rw [utf8EncodeChar_toNat, List.map_map]
  have hv := Char.toNat_valid c
  unfold utf8Bytes; split_ifs <;> simp [Nat.toNat_toUInt8] <;> omega

/-! ### Digits -/

/-- A number, in base 64 with three low digits. -/
theorem exists_digits (n : Nat) :
    ∃ d₀ d₁ d₂ d₃, d₁ < 64 ∧ d₂ < 64 ∧ d₃ < 64 ∧ n = ((d₀ * 64 + d₁) * 64 + d₂) * 64 + d₃ :=
  ⟨n / 262144, n / 4096 % 64, n / 64 % 64, n % 64, by omega, by omega, by omega, by omega⟩

theorem utf8Bytes_two {d₀ d₁ : Nat} (h₁ : d₁ < 64) (h : 0x80 ≤ d₀ * 64 + d₁)
    (h' : d₀ * 64 + d₁ < 0x800) : utf8Bytes (d₀ * 64 + d₁) = [0xC0 + d₀, 0x80 + d₁] := by
  unfold utf8Bytes
  rw [if_neg (by omega), if_pos h']
  simp only [List.cons.injEq, and_true]
  omega

theorem utf8Bytes_three {d₀ d₁ d₂ : Nat} (h₁ : d₁ < 64) (h₂ : d₂ < 64)
    (h : 0x800 ≤ (d₀ * 64 + d₁) * 64 + d₂) (h' : (d₀ * 64 + d₁) * 64 + d₂ < 0x10000) :
    utf8Bytes ((d₀ * 64 + d₁) * 64 + d₂) = [0xE0 + d₀, 0x80 + d₁, 0x80 + d₂] := by
  unfold utf8Bytes
  rw [if_neg (by omega), if_neg (by omega), if_pos h']
  simp only [List.cons.injEq, and_true]
  omega

theorem utf8Bytes_four {d₀ d₁ d₂ d₃ : Nat} (h₁ : d₁ < 64) (h₂ : d₂ < 64) (h₃ : d₃ < 64)
    (h : 0x10000 ≤ ((d₀ * 64 + d₁) * 64 + d₂) * 64 + d₃) :
    utf8Bytes (((d₀ * 64 + d₁) * 64 + d₂) * 64 + d₃) =
      [0xF0 + d₀, 0x80 + d₁, 0x80 + d₂, 0x80 + d₃] := by
  unfold utf8Bytes
  rw [if_neg (by omega), if_neg (by omega), if_neg (by omega)]
  simp only [List.cons.injEq, and_true]
  omega

/-- The bytes of a scalar value, from its digits, in each of the four widths. -/
theorem utf8Bytes_cases {n d₀ d₁ d₂ d₃ : Nat} (h₁ : d₁ < 64) (h₂ : d₂ < 64) (h₃ : d₃ < 64)
    (hn : n = ((d₀ * 64 + d₁) * 64 + d₂) * 64 + d₃) :
    (n < 0x80 ∧ utf8Bytes n = [n]) ∨
    (0x80 ≤ n ∧ n < 0x800 ∧ utf8Bytes n = [0xC0 + ((d₀ * 64 + d₁) * 64 + d₂), 0x80 + d₃]) ∨
    (0x800 ≤ n ∧ n < 0x10000 ∧ utf8Bytes n = [0xE0 + (d₀ * 64 + d₁), 0x80 + d₂, 0x80 + d₃]) ∨
    (0x10000 ≤ n ∧ utf8Bytes n = [0xF0 + d₀, 0x80 + d₁, 0x80 + d₂, 0x80 + d₃]) := by
  subst hn
  by_cases e₁ : ((d₀ * 64 + d₁) * 64 + d₂) * 64 + d₃ < 0x80
  · exact .inl ⟨e₁, by rw [utf8Bytes, if_pos e₁]⟩
  by_cases e₂ : ((d₀ * 64 + d₁) * 64 + d₂) * 64 + d₃ < 0x800
  · exact .inr (.inl ⟨by omega, e₂, utf8Bytes_two h₃ (by omega) e₂⟩)
  by_cases e₃ : ((d₀ * 64 + d₁) * 64 + d₂) * 64 + d₃ < 0x10000
  · exact .inr (.inr (.inl ⟨by omega, e₃, utf8Bytes_three h₂ h₃ (by omega) e₃⟩))
  · exact .inr (.inr (.inr ⟨by omega, utf8Bytes_four h₁ h₂ h₃ (by omega)⟩))

/-! ### Decoding -/

/-- `utf8_char_width`: the length of a sequence, read from its first byte; `0` for a byte that
starts none. -/
def utf8CharWidth (b : UInt8) : Nat :=
  if b.toNat < 0x80 then 1
  else if b.toNat < 0xC2 then 0
  else if b.toNat < 0xE0 then 2
  else if b.toNat < 0xF0 then 3
  else if b.toNat < 0xF5 then 4
  else 0

/-- `utf8_is_cont_byte`: `(byte as i8) < -64`. -/
def utf8IsContByte (b : UInt8) : Bool := 0x80 ≤ b.toNat && b.toNat < 0xC0

/-- `run_utf8_validation`'s match on `(first, next!())` for three- and four-byte sequences: no
overlong form, no surrogate, nothing above `0x10FFFF`. -/
def secondByteOk (first b : UInt8) : Bool :=
  if first.toNat = 0xE0 then 0xA0 ≤ b.toNat && b.toNat < 0xC0
  else if first.toNat = 0xED then 0x80 ≤ b.toNat && b.toNat < 0xA0
  else if first.toNat = 0xF0 then 0x90 ≤ b.toNat && b.toNat < 0xC0
  else if first.toNat = 0xF4 then 0x80 ≤ b.toNat && b.toNat < 0x90
  else utf8IsContByte b

/-- `run_utf8_validation`, one sequence at a time, with the scalar value each accepted sequence
stands for (accumulated six bits a continuation byte, as `utf8_acc_cont_byte` does). -/
def decodeUtf8 : List UInt8 → Option (List Char)
  | [] => some []
  | b₀ :: bs =>
    match utf8CharWidth b₀, bs with
    | 1, bs => (Char.ofNat b₀.toNat :: ·) <$> decodeUtf8 bs
    | 2, b₁ :: bs =>
      if utf8IsContByte b₁ then
        (Char.ofNat (b₀.toNat % 32 * 64 + b₁.toNat % 64) :: ·) <$> decodeUtf8 bs
      else none
    | 3, b₁ :: b₂ :: bs =>
      if secondByteOk b₀ b₁ && utf8IsContByte b₂ then
        (Char.ofNat ((b₀.toNat % 16 * 64 + b₁.toNat % 64) * 64 + b₂.toNat % 64) :: ·) <$>
          decodeUtf8 bs
      else none
    | 4, b₁ :: b₂ :: b₃ :: bs =>
      if secondByteOk b₀ b₁ && utf8IsContByte b₂ && utf8IsContByte b₃ then
        (Char.ofNat (((b₀.toNat % 8 * 64 + b₁.toNat % 64) * 64 + b₂.toNat % 64) * 64 +
          b₃.toNat % 64) :: ·) <$> decodeUtf8 bs
      else none
    | _, _ => none

/-- `str::from_utf8(v).ok()`. -/
def fromUtf8 (v : List UInt8) : Option String := String.mk <$> decodeUtf8 v

example : decodeUtf8 [0xE2, 0x82, 0xAC, 65] = some ['€', 'A'] := by decide
example : decodeUtf8 [0xED, 0xA0, 0x80] = none := by decide

theorem utf8CharWidth_eq (b : UInt8) :
    (utf8CharWidth b = 1 ↔ b.toNat < 0x80) ∧
    (utf8CharWidth b = 2 ↔ 0xC2 ≤ b.toNat ∧ b.toNat < 0xE0) ∧
    (utf8CharWidth b = 3 ↔ 0xE0 ≤ b.toNat ∧ b.toNat < 0xF0) ∧
    (utf8CharWidth b = 4 ↔ 0xF0 ≤ b.toNat ∧ b.toNat < 0xF5) := by
  unfold utf8CharWidth; split_ifs <;> simp <;> omega

@[simp] theorem utf8IsContByte_iff (b : UInt8) :
    utf8IsContByte b = true ↔ 0x80 ≤ b.toNat ∧ b.toNat < 0xC0 := by
  simp [utf8IsContByte]

theorem secondByteOk_iff (first b : UInt8) : secondByteOk first b = true ↔
    (0x80 ≤ b.toNat ∧ b.toNat < 0xC0) ∧ (first.toNat = 0xE0 → 0xA0 ≤ b.toNat) ∧
    (first.toNat = 0xED → b.toNat < 0xA0) ∧ (first.toNat = 0xF0 → 0x90 ≤ b.toNat) ∧
    (first.toNat = 0xF4 → b.toNat < 0x90) := by
  unfold secondByteOk; split_ifs <;> simp <;> omega

theorem decodeUtf8_one {b₀ : UInt8} {bs : List UInt8} (hw : utf8CharWidth b₀ = 1) :
    decodeUtf8 (b₀ :: bs) = (Char.ofNat b₀.toNat :: ·) <$> decodeUtf8 bs := by
  simp only [decodeUtf8, hw]

theorem decodeUtf8_two {b₀ b₁ : UInt8} {bs : List UInt8} (hw : utf8CharWidth b₀ = 2)
    (hc : utf8IsContByte b₁ = true) :
    decodeUtf8 (b₀ :: b₁ :: bs) =
      (Char.ofNat (b₀.toNat % 32 * 64 + b₁.toNat % 64) :: ·) <$> decodeUtf8 bs := by
  simp only [decodeUtf8, hw, hc, if_true]

theorem decodeUtf8_three {b₀ b₁ b₂ : UInt8} {bs : List UInt8} (hw : utf8CharWidth b₀ = 3)
    (hc : (secondByteOk b₀ b₁ && utf8IsContByte b₂) = true) :
    decodeUtf8 (b₀ :: b₁ :: b₂ :: bs) =
      (Char.ofNat ((b₀.toNat % 16 * 64 + b₁.toNat % 64) * 64 + b₂.toNat % 64) :: ·) <$>
        decodeUtf8 bs := by
  simp only [decodeUtf8, hw, hc, if_true]

theorem decodeUtf8_four {b₀ b₁ b₂ b₃ : UInt8} {bs : List UInt8} (hw : utf8CharWidth b₀ = 4)
    (hc : (secondByteOk b₀ b₁ && utf8IsContByte b₂ && utf8IsContByte b₃) = true) :
    decodeUtf8 (b₀ :: b₁ :: b₂ :: b₃ :: bs) =
      (Char.ofNat (((b₀.toNat % 8 * 64 + b₁.toNat % 64) * 64 + b₂.toNat % 64) * 64 +
        b₃.toNat % 64) :: ·) <$> decodeUtf8 bs := by
  simp only [decodeUtf8, hw, hc, if_true]

/-! ### Round trip -/

theorem map_cons_ofNat {m n : Nat} (h : m = n) (d : Option (List Char)) :
    (Char.ofNat m :: ·) <$> d = (Char.ofNat n :: ·) <$> d := h ▸ rfl

/-- Decoding the bytes of one scalar value gives it back, ahead of what follows. -/
theorem decodeUtf8_encode_append (c : Char) (t : List UInt8) :
    decodeUtf8 (String.utf8EncodeChar c ++ t) = (c :: ·) <$> decodeUtf8 t := by
  have hv := Char.toNat_valid c
  rw [utf8EncodeChar_eq, ← Char.ofNat_toNat c, Char.toNat_ofNat_of_valid hv]
  obtain ⟨d₀, d₁, d₂, d₃, h₁, h₂, h₃, hn⟩ := exists_digits c.toNat
  have hw := utf8CharWidth_eq
  rcases utf8Bytes_cases h₁ h₂ h₃ hn with ⟨a₁, hb⟩ | ⟨a₁, a₂, hb⟩ | ⟨a₁, a₂, hb⟩ | ⟨a₁, hb⟩ <;>
    rw [hb] <;> simp only [List.map, List.cons_append, List.nil_append]
  · rw [decodeUtf8_one ((hw _).1.2 ?_), map_cons_ofNat ?_]
    all_goals simp (disch := omega) only [Nat.toNat_toUInt8_of_lt] <;> omega
  · rw [decodeUtf8_two ((hw _).2.1.2 ?_) ?_, map_cons_ofNat ?_]
    all_goals (simp (disch := omega) only [Nat.toNat_toUInt8_of_lt, utf8IsContByte_iff]; omega)
  · rw [decodeUtf8_three ((hw _).2.2.1.2 ?_) ?_, map_cons_ofNat ?_]
    all_goals (simp (disch := omega) only [Nat.toNat_toUInt8_of_lt, Bool.and_eq_true,
      secondByteOk_iff, utf8IsContByte_iff]; omega)
  · rw [decodeUtf8_four ((hw _).2.2.2.2 ?_) ?_, map_cons_ofNat ?_]
    all_goals (simp (disch := omega) only [Nat.toNat_toUInt8_of_lt, Bool.and_eq_true,
      secondByteOk_iff, utf8IsContByte_iff]; omega)

theorem decodeUtf8_utf8_append (cs : List Char) (t : List UInt8) :
    decodeUtf8 (cs.flatMap String.utf8EncodeChar ++ t) = (cs ++ ·) <$> decodeUtf8 t := by
  induction cs with
  | nil => simp
  | cons c cs ih =>
    simp [List.append_assoc, decodeUtf8_encode_append, ih, Function.comp_def]

theorem decodeUtf8_utf8 (s : String) : decodeUtf8 (utf8 s) = some s.data := by
  simpa [decodeUtf8] using decodeUtf8_utf8_append s.data []

/-- The scalar value `n` is encoded as `bs` when its standard bytes are `bs`'s values. -/
theorem utf8EncodeChar_ofNat {n : Nat} {bs : List UInt8}
    (hn : n < 0xD800 ∨ 0xDFFF < n ∧ n < 0x110000) (h : utf8Bytes n = bs.map UInt8.toNat) :
    String.utf8EncodeChar (Char.ofNat n) = bs :=
  map_toNat_inj (by rw [utf8EncodeChar_toNat, Char.toNat_ofNat_of_valid hn, h])

/-- What `decodeUtf8` accepts is the encoding of what it returns. -/
theorem eq_utf8_of_decodeUtf8 {bs : List UInt8} {cs : List Char} (h : decodeUtf8 bs = some cs) :
    bs = cs.flatMap String.utf8EncodeChar := by
  induction bs using decodeUtf8.induct generalizing cs with
  | case1 => simp only [decodeUtf8, Option.some.injEq] at h; subst h; rfl
  | case2 b₀ bs hw ih =>
    obtain ⟨cs', hd, rfl⟩ := Option.map_eq_some'.1 ((decodeUtf8_one hw).symm.trans h)
    have := (utf8CharWidth_eq b₀).1.1 hw
    rw [List.flatMap_cons, ← ih hd, utf8EncodeChar_ofNat (by omega)
      (show utf8Bytes _ = [b₀].map UInt8.toNat by simp [utf8Bytes, this])]
    rfl
  | case3 b₀ b₁ bs hw hc ih =>
    obtain ⟨cs', hd, rfl⟩ := Option.map_eq_some'.1 ((decodeUtf8_two hw hc).symm.trans h)
    have := (utf8CharWidth_eq b₀).2.1.1 hw
    have := (utf8IsContByte_iff b₁).1 hc
    rw [List.flatMap_cons, ← ih hd, utf8EncodeChar_ofNat (by omega)
      (show utf8Bytes _ = [b₀, b₁].map UInt8.toNat by
        rw [utf8Bytes_two (by omega) (by omega) (by omega)]
        simp only [List.map, List.cons.injEq, and_true]; omega)]
    rfl
  | case5 b₀ b₁ b₂ bs hw hc ih =>
    obtain ⟨cs', hd, rfl⟩ := Option.map_eq_some'.1 ((decodeUtf8_three hw hc).symm.trans h)
    have := (utf8CharWidth_eq b₀).2.2.1.1 hw
    simp only [Bool.and_eq_true, secondByteOk_iff, utf8IsContByte_iff] at hc
    rw [List.flatMap_cons, ← ih hd, utf8EncodeChar_ofNat (by omega)
      (show utf8Bytes _ = [b₀, b₁, b₂].map UInt8.toNat by
        rw [utf8Bytes_three (by omega) (by omega) (by omega) (by omega)]
        simp only [List.map, List.cons.injEq, and_true]; omega)]
    rfl
  | case7 b₀ b₁ b₂ b₃ bs hw hc ih =>
    obtain ⟨cs', hd, rfl⟩ := Option.map_eq_some'.1 ((decodeUtf8_four hw hc).symm.trans h)
    have := (utf8CharWidth_eq b₀).2.2.2.1 hw
    simp only [Bool.and_eq_true, secondByteOk_iff, utf8IsContByte_iff] at hc
    rw [List.flatMap_cons, ← ih hd, utf8EncodeChar_ofNat (by omega)
      (show utf8Bytes _ = [b₀, b₁, b₂, b₃].map UInt8.toNat by
        rw [utf8Bytes_four (by omega) (by omega) (by omega) (by omega)]
        simp only [List.map, List.cons.injEq, and_true]; omega)]
    rfl
  | case4 _ _ _ hw hc | case6 _ _ _ _ hw hc | case8 _ _ _ _ _ hw hc =>
    simp [decodeUtf8, hw, hc] at h
  | case9 b₀ bs h₁ h₂ h₃ h₄ =>
    unfold decodeUtf8 at h
    split at h
    · exact (h₁ ‹_›).elim
    · exact (h₂ _ _ ‹_› rfl).elim
    · exact (h₃ _ _ _ ‹_› rfl).elim
    · exact (h₄ _ _ _ _ ‹_› rfl).elim
    · cases h

/-- `str::from_utf8` accepts exactly the encodings of strings, and gives back the string. -/
theorem fromUtf8_eq_some_iff {v : List UInt8} {s : String} :
    fromUtf8 v = some s ↔ v = utf8 s := by
  constructor
  · intro h
    obtain ⟨cs, hd, rfl⟩ := Option.map_eq_some'.1 h
    exact eq_utf8_of_decodeUtf8 hd
  · rintro rfl
    simp [fromUtf8, decodeUtf8_utf8]

/-! ### What `init.rs` reads of the bytes -/

@[simp] theorem utf8_append (s t : String) : utf8 (s ++ t) = utf8 s ++ utf8 t := by
  simp [utf8, String.data_append]

/-- Byte `b'\n'` occurs in an encoding only as the encoding of `'\n'`. -/
theorem newline_mem_utf8 (s : String) : (10 : UInt8) ∈ utf8 s ↔ '\n' ∈ s.data := by
  have hc (c : Char) : (10 : UInt8) ∈ String.utf8EncodeChar c ↔ c = '\n' := by
    have h₁ : (10 : UInt8) ∈ String.utf8EncodeChar c ↔ 10 ∈ utf8Bytes c.toNat := by
      rw [← utf8EncodeChar_toNat, List.mem_map]
      exact ⟨fun h => ⟨_, h, rfl⟩,
        fun ⟨b, hb, h⟩ => UInt8.toNat.inj (show b.toNat = (10 : UInt8).toNat from h) ▸ hb⟩
    have h₂ : c = '\n' ↔ c.toNat = 10 :=
      ⟨fun h => h ▸ rfl, fun h => Char.ext (UInt32.toNat.inj (by rw [← Char.toNat, h]; rfl))⟩
    rw [h₁, h₂]
    unfold utf8Bytes; split_ifs <;> simp <;> omega
  simp [utf8, hc]

/-- Byte-prefixes of encodings are the encodings of prefixes. -/
theorem utf8_prefix_iff {s t : String} : utf8 s <+: utf8 t ↔ s.data <+: t.data := by
  constructor
  · rintro ⟨r, hr⟩
    have h := decodeUtf8_utf8_append s.data r
    rw [← utf8, hr, decodeUtf8_utf8] at h
    cases hd : decodeUtf8 r with
    | none => simp [hd] at h
    | some r' =>
      simp only [hd, Functor.map, Option.map_some', Option.some.injEq] at h
      exact ⟨r', h.symm⟩
  · rintro ⟨r, hr⟩
    exact ⟨utf8 ⟨r⟩, by rw [← utf8_append]; congr; exact String.ext hr⟩

/-! ### Byte order -/

theorem lex_cons_iff {a b : Nat} {as bs : List Nat} :
    a :: as < b :: bs ↔ a < b ∨ a = b ∧ as < bs :=
  ⟨fun | .cons h => .inr ⟨rfl, h⟩ | .rel h => .inl h,
   fun | .inl h => .rel h | .inr ⟨rfl, h⟩ => .cons h⟩

@[simp] theorem not_lt_nil (l : List Nat) : ¬ l < [] := List.Lex.not_nil_right _ _

/-- Core's lexicographic order on bytes is the order on their values. -/
theorem lt_iff_map_toNat_lt :
    ∀ {l₁ l₂ : List UInt8}, List.lt l₁ l₂ ↔ l₁.map UInt8.toNat < l₂.map UInt8.toNat
  | [], [] => ⟨nofun, fun h => (not_lt_nil _ h).elim⟩
  | [], _ :: _ => ⟨fun _ => List.nil_lt_cons _ _, fun _ => .nil _ _⟩
  | _ :: _, [] => ⟨nofun, fun h => (not_lt_nil _ h).elim⟩
  | a :: as, b :: bs => by
    rw [List.map_cons, List.map_cons, lex_cons_iff, ← lt_iff_map_toNat_lt]
    constructor
    · intro h
      cases h with
      | head _ _ h => exact .inl h
      | tail h₁ h₂ h => exact .inr ⟨Nat.le_antisymm (Nat.not_lt.1 h₂) (Nat.not_lt.1 h₁), h⟩
    · rintro (h | ⟨h₁, h⟩)
      · exact .head _ _ h
      · obtain rfl : a = b := UInt8.toNat.inj h₁
        exact .tail (Nat.lt_irrefl a.toNat) (Nat.lt_irrefl a.toNat) h

/-- The bytes of the standard are ordered as the scalar values, and no sequence is a prefix of
another. -/
theorem utf8Bytes_lt {n m : Nat} (h : n < m) (hm : m < 0x110000) :
    utf8Bytes n < utf8Bytes m ∧ ¬ utf8Bytes n <+: utf8Bytes m := by
  obtain ⟨d₀, d₁, d₂, d₃, h₁, h₂, h₃, rfl⟩ := exists_digits n
  obtain ⟨e₀, e₁, e₂, e₃, i₁, i₂, i₃, rfl⟩ := exists_digits m
  rcases utf8Bytes_cases h₁ h₂ h₃ rfl with ⟨a₁, hb⟩ | ⟨a₁, a₂, hb⟩ | ⟨a₁, a₂, hb⟩ | ⟨a₁, hb⟩ <;>
  rcases utf8Bytes_cases i₁ i₂ i₃ rfl with ⟨b₁, hb'⟩ | ⟨b₁, b₂, hb'⟩ | ⟨b₁, b₂, hb'⟩ | ⟨b₁, hb'⟩ <;>
  rw [hb, hb'] <;>
  simp only [lex_cons_iff, not_lt_nil, lt_self_iff_false, List.nil_lt_cons,
    List.cons_prefix_cons, List.nil_prefix, List.prefix_nil, and_true] <;> omega

theorem append_lt_append {l₁ l₂ : List Nat} (h : l₁ < l₂) (hp : ¬ l₁ <+: l₂)
    (r₁ r₂ : List Nat) : l₁ ++ r₁ < l₂ ++ r₂ := by
  induction h with
  | nil => exact absurd List.nil_prefix hp
  | cons _ ih => exact .cons (ih fun h => hp (List.prefix_cons_inj _ |>.2 h))
  | rel h => exact .rel h

theorem utf8_lt_of_lt {cs ds : List Char} (h : cs < ds) :
    (cs.flatMap String.utf8EncodeChar).map UInt8.toNat <
      (ds.flatMap String.utf8EncodeChar).map UInt8.toNat := by
  induction h with
  | nil =>
    simp only [List.flatMap_cons, List.map_append, utf8EncodeChar_toNat, List.flatMap_nil,
      List.map_nil]
    unfold utf8Bytes; split_ifs <;> exact List.nil_lt_cons _ _
  | cons _ ih =>
    simp only [List.flatMap_cons, List.map_append]
    exact List.Lex.append_left _ ih _
  | @rel c cs d ds h =>
    simp only [List.flatMap_cons, List.map_append, utf8EncodeChar_toNat]
    have hd := Char.toNat_valid d
    obtain ⟨hlt, hp⟩ := utf8Bytes_lt (show c.toNat < d.toNat from h) (by omega)
    exact append_lt_append hlt hp _ _

/-- Comparing the bytes of two strings, as `Ord for str` does, is comparing the strings. -/
theorem utf8_lt_iff {s t : String} : List.lt (utf8 s) (utf8 t) ↔ s < t := by
  rw [lt_iff_map_toNat_lt, String.lt_iff_toList_lt]
  refine ⟨fun h => ?_, utf8_lt_of_lt⟩
  rcases lt_trichotomy s.toList t.toList with h' | h' | h'
  · exact h'
  · exact absurd h (by rw [utf8, utf8, show s.data = t.data from h']; exact lt_irrefl _)
  · exact absurd h (lt_asymm (utf8_lt_of_lt h'))

end Nodekeeper.Str
