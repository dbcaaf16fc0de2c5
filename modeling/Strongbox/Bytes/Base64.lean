import Strongbox.Bytes

/-!
# Bytes — base 64

The standard base-64 text of bytes: three bytes give four digits, a last part of one or two bytes
is filled with `=`.  Reading is strict: the fill is required, nothing may follow it, and the bits
of the last digit that carry no data must be zero.  So each sequence of bytes has one text.

* `value?_digit` and `digit_of_value?`: digits and the values below 64 answer each other.
* `decode_encode`: what is written reads back.
* `encode_of_decode`: what reads is what is written; no second spelling is accepted.
-/

namespace Strongbox.Bytes.Base64

/-- The digit of a value below 64. -/
def digit (n : Nat) : Char :=
  if n < 26 then Char.ofNat (65 + n)
  else if n < 52 then Char.ofNat (71 + n)
  else if n < 62 then Char.ofNat (n - 4)
  else if n = 62 then '+' else '/'

/-- The value of a digit. -/
def value? (c : Char) : Option Nat :=
  if 'A' ≤ c ∧ c ≤ 'Z' then some (c.toNat - 65)
  else if 'a' ≤ c ∧ c ≤ 'z' then some (c.toNat - 71)
  else if '0' ≤ c ∧ c ≤ '9' then some (c.toNat + 4)
  else if c = '+' then some 62
  else if c = '/' then some 63
  else none

/-- The digits of bytes. -/
def encode : Bytes → List Char
  | a :: b :: c :: rest =>
    digit (a.toNat / 4) :: digit (a.toNat % 4 * 16 + b.toNat / 16)
      :: digit (b.toNat % 16 * 4 + c.toNat / 64) :: digit (c.toNat % 64) :: encode rest
  | [a, b] =>
    [digit (a.toNat / 4), digit (a.toNat % 4 * 16 + b.toNat / 16), digit (b.toNat % 16 * 4), '=']
  | [a] => [digit (a.toNat / 4), digit (a.toNat % 4 * 16), '=', '=']
  | [] => []

/-- The bytes of a group of four digits. -/
def group? (a b c d : Char) : Option Bytes := do
  let w ← value? a
  let x ← value? b
  let y ← value? c
  let z ← value? d
  return [UInt8.ofNat (w * 4 + x / 16), UInt8.ofNat (x % 16 * 16 + y / 4),
    UInt8.ofNat (y % 4 * 64 + z)]

/-- The bytes of a last group of three digits and one fill. -/
def pair? (a b c : Char) : Option Bytes := do
  let w ← value? a
  let x ← value? b
  let y ← value? c
  if y % 4 = 0 then
    return [UInt8.ofNat (w * 4 + x / 16), UInt8.ofNat (x % 16 * 16 + y / 4)]
  else none

/-- The byte of a last group of two digits and two fills. -/
def single? (a b : Char) : Option Bytes := do
  let w ← value? a
  let x ← value? b
  if x % 16 = 0 then return [UInt8.ofNat (w * 4 + x / 16)] else none

/-- The bytes of a text of digits, if it is the text of any. -/
def decode : List Char → Option Bytes
  | [] => some []
  | [a, b, c, d] =>
    if d = '=' then (if c = '=' then single? a b else pair? a b c) else group? a b c d
  | a :: b :: c :: d :: rest => do
    let head ← group? a b c d
    let tail ← decode rest
    return head ++ tail
  | _ => none

/-! ### Each sequence of bytes has one text -/

theorem value?_digit {n : Nat} (h : n < 64) : value? (digit n) = some n := by
  revert h
  have : ∀ m : Fin 64, value? (digit m) = some m.val := by decide +kernel
  exact fun h => this ⟨n, h⟩

theorem digit_ne_fill {n : Nat} (h : n < 64) : digit n ≠ '=' := by
  have : ∀ m : Fin 64, digit m ≠ '=' := by decide +kernel
  exact this ⟨n, h⟩

theorem digit_of_value? {c : Char} {n : Nat} (h : value? c = some n) : n < 64 ∧ c = digit n := by
  have key : ∀ m : Fin 128, ∀ k, value? (Char.ofNat m) = some k →
      k < 64 ∧ Char.ofNat m = digit k := by
    have : ∀ m : Fin 128, ∀ k ∈ value? (Char.ofNat m), k < 64 ∧ Char.ofNat m = digit k := by
      decide +kernel
    exact fun m k hk => this m k (by simp [hk])
  have hc : c.toNat < 128 := by
    simp only [value?] at h
    split at h
    · rename_i hh; have := hh.2; simp only [Char.le_def, UInt32.le_iff_toNat_le] at this
      exact Nat.lt_of_le_of_lt this (by decide)
    · split at h
      · rename_i hh; have := hh.2; simp only [Char.le_def, UInt32.le_iff_toNat_le] at this
        exact Nat.lt_of_le_of_lt this (by decide)
      · split at h
        · rename_i hh; have := hh.2; simp only [Char.le_def, UInt32.le_iff_toNat_le] at this
          exact Nat.lt_of_le_of_lt this (by decide)
        · split at h
          · rename_i hh; subst hh; decide
          · split at h
            · rename_i hh; subst hh; decide
            · cases h
  have := key ⟨c.toNat, hc⟩ n (by simpa using h)
  simpa using this

theorem group?_encode (a b c : UInt8) :
    group? (digit (a.toNat / 4)) (digit (a.toNat % 4 * 16 + b.toNat / 16))
      (digit (b.toNat % 16 * 4 + c.toNat / 64)) (digit (c.toNat % 64)) = some [a, b, c] := by
  have ha := a.toNat_lt; have hb := b.toNat_lt; have hc := c.toNat_lt
  rw [group?, value?_digit (by omega), value?_digit (by omega), value?_digit (by omega),
    value?_digit (by omega)]
  simp only [Option.bind_eq_bind, Option.bind_some, Option.pure_def, Option.some.injEq,
    List.cons.injEq, and_true, ← UInt8.toNat_inj, UInt8.toNat_ofNat']
  omega

theorem decode_cons {a b c d : Char} {rest : List Char} (hd : d ≠ '=') :
    decode (a :: b :: c :: d :: rest) =
      (group? a b c d).bind fun head => (decode rest).map (head ++ ·) := by
  cases rest with
  | nil => simp [decode, hd]
  | cons e r => simp only [decode, Option.bind_eq_bind, Option.pure_def, Option.map_eq_bind]; rfl

/-- What is written reads back. -/
theorem decode_encode (bs : Bytes) : decode (encode bs) = some bs := by
  fun_induction encode bs with
  | case1 a b c rest ih =>
    rw [decode_cons (digit_ne_fill (by omega)), group?_encode, ih]
    rfl
  | case2 a b =>
    have ha := a.toNat_lt; have hb := b.toNat_lt
    rw [decode, if_pos rfl, if_neg (digit_ne_fill (by omega)), pair?, value?_digit (by omega),
      value?_digit (by omega), value?_digit (by omega)]
    simp only [Option.bind_eq_bind, Option.bind_some, Option.pure_def]
    rw [if_pos (by omega)]
    simp only [Option.some.injEq, List.cons.injEq, and_true, ← UInt8.toNat_inj,
      UInt8.toNat_ofNat']
    omega
  | case3 a =>
    have ha := a.toNat_lt
    rw [decode, if_pos rfl, if_pos rfl, single?, value?_digit (by omega), value?_digit (by omega)]
    simp only [Option.bind_eq_bind, Option.bind_some, Option.pure_def]
    rw [if_pos (by omega)]
    simp only [Option.some.injEq, List.cons.injEq, and_true, ← UInt8.toNat_inj,
      UInt8.toNat_ofNat']
    omega
  | case4 => rfl

theorem encode_group? {a b c d : Char} {bs : Bytes} (h : group? a b c d = some bs) :
    ∃ x y z, bs = [x, y, z] ∧ encode [x, y, z] = [a, b, c, d] := by
  simp only [group?, Option.bind_eq_bind, Option.bind_eq_some_iff, Option.pure_def,
    Option.some.injEq] at h
  obtain ⟨w, hw, x, hx, y, hy, z, hz, rfl⟩ := h
  obtain ⟨hw, rfl⟩ := digit_of_value? hw
  obtain ⟨hx, rfl⟩ := digit_of_value? hx
  obtain ⟨hy, rfl⟩ := digit_of_value? hy
  obtain ⟨hz, rfl⟩ := digit_of_value? hz
  refine ⟨_, _, _, rfl, ?_⟩
  simp only [encode, UInt8.toNat_ofNat', List.cons.injEq, and_true]
  refine ⟨congrArg digit ?_, congrArg digit ?_, congrArg digit ?_, congrArg digit ?_⟩ <;> omega

/-- What reads is what is written: no second spelling is accepted. -/
theorem encode_of_decode {cs : List Char} {bs : Bytes} (h : decode cs = some bs) :
    encode bs = cs := by
  fun_induction decode cs generalizing bs with
  | case1 => cases h; rfl
  | case2 a b =>
    simp only [single?, Option.bind_eq_bind, Option.bind_eq_some_iff] at h
    obtain ⟨w, hw, x, hx, h⟩ := h
    split at h
    · obtain ⟨hw, rfl⟩ := digit_of_value? hw
      obtain ⟨hx, rfl⟩ := digit_of_value? hx
      cases h
      simp only [encode, UInt8.toNat_ofNat', List.cons.injEq, and_true]
      refine ⟨congrArg digit ?_, congrArg digit ?_⟩ <;> omega
    · cases h
  | case3 a b c =>
    simp only [pair?, Option.bind_eq_bind, Option.bind_eq_some_iff] at h
    obtain ⟨w, hw, x, hx, y, hy, h⟩ := h
    split at h
    · obtain ⟨hw, rfl⟩ := digit_of_value? hw
      obtain ⟨hx, rfl⟩ := digit_of_value? hx
      obtain ⟨hy, rfl⟩ := digit_of_value? hy
      cases h
      simp only [encode, UInt8.toNat_ofNat', List.cons.injEq, and_true]
      refine ⟨congrArg digit ?_, congrArg digit ?_, congrArg digit ?_⟩ <;> omega
    · cases h
  | case4 a b c d =>
    obtain ⟨x, y, z, rfl, hxyz⟩ := encode_group? h
    exact hxyz
  | case5 a b c d rest _ ih =>
    simp only [Option.bind_eq_bind, Option.bind_eq_some_iff, Option.pure_def,
      Option.some.injEq] at h
    obtain ⟨head, hh, tail, ht, rfl⟩ := h
    obtain ⟨x, y, z, rfl, hxyz⟩ := encode_group? hh
    simp only [encode, List.cons.injEq, and_true] at hxyz
    obtain ⟨h1, h2, h3, h4⟩ := hxyz
    simp [encode, h1, h2, h3, h4, ih ht]
  | case6 => cases h

end Strongbox.Bytes.Base64
