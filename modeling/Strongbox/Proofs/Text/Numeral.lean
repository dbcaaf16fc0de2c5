import Mathlib.Algebra.Group.Nat.Defs
import Strongbox.Text.Numeral

/-!
# Text — numerals, read back and sorted

* `spelledAfter_numeral`: a numeral in any base spells the number it was made from, up to the
  leading digits that it lost; `number?_decimal` for decimal numerals.
* `digits?_decimal`: a numeral before a character that is no digit is found whole.
* `getElem?_numeral`: the digits of a numeral one by one; `numeral_add`: the first of them and the
  rest.
* `numeral_append_lt`: numerals of one width sort like their numbers.
-/

namespace Strongbox.Text

/-! ### Reading a numeral back -/

/-- The number that digits in a base spell, after those whose number is `n`; none if one of the
characters is no digit. -/
def spelledAfter (value? : Char → Option Nat) (base n : Nat) : List Char → Option Nat
  | [] => some n
  | c :: rest => (value? c).bind fun d => spelledAfter value? base (base * n + d) rest

theorem numberAfter_eq (n : Nat) (cs : List Char) :
    numberAfter n cs = spelledAfter digit? 10 n cs := by
  induction cs generalizing n with
  | nil => rfl
  | cons c cs ih => simp only [numberAfter, spelledAfter, ih, Option.bind_eq_bind]

theorem hexAfter_eq (n : Nat) (cs : List Char) :
    hexAfter n cs = spelledAfter hexDigit? 16 n cs := by
  induction cs generalizing n with
  | nil => rfl
  | cons c cs ih => simp only [hexAfter, spelledAfter, ih, Option.bind_eq_bind]

section

variable {value? : Char → Option Nat} {digit : Nat → Char} {base : Nat}

theorem spelledAfter_append (n : Nat) (cs ds : List Char) :
    spelledAfter value? base n (cs ++ ds)
      = (spelledAfter value? base n cs).bind fun k => spelledAfter value? base k ds := by
  induction cs generalizing n with
  | nil => rfl
  | cons c cs ih =>
      simp only [List.cons_append, spelledAfter]
      cases value? c with
      | none => rfl
      | some d => exact ih _

/-- A numeral after other digits spells the number it was made from, up to the leading digits that
it lost. -/
theorem spelledAfter_numeral (hd : ∀ d < base, value? (digit d) = some d) (hb : 0 < base)
    (width k n : Nat) :
    spelledAfter value? base k (numeral digit base width n)
      = some (k * base ^ width + n % base ^ width) := by
  induction width generalizing n with
  | zero => simp [numeral, spelledAfter, Nat.mod_one]
  | succ width ih =>
      have hm : n % base ^ (width + 1) = n % base + base * (n / base % base ^ width) := by
        rw [Nat.pow_succ', Nat.mod_mul]
      have hk : k * base ^ (width + 1) = base * (k * base ^ width) := by
        rw [Nat.pow_succ', Nat.mul_left_comm]
      simp only [numeral, spelledAfter_append, ih, Option.bind_some, spelledAfter,
        hd _ (Nat.mod_lt _ hb), hm, hk, Nat.mul_add]
      congr 1
      omega

end

theorem digit?_digitChar {d : Nat} (h : d < 10) : digit? (Nat.digitChar d) = some d := by
  have key : ∀ d : Fin 10, digit? (Nat.digitChar d) = some d.val := by decide
  exact key ⟨d, h⟩

theorem hexDigit?_digitChar {d : Nat} (h : d < 16) : hexDigit? (Nat.digitChar d) = some d := by
  have key : ∀ d : Fin 16, hexDigit? (Nat.digitChar d) = some d.val := by decide
  exact key ⟨d, h⟩

theorem numberAfter_append (n : Nat) (cs ds : List Char) :
    numberAfter n (cs ++ ds) = (numberAfter n cs).bind fun k => numberAfter k ds := by
  simp only [numberAfter_eq, spelledAfter_append]

/-- A numeral after other digits. -/
theorem numberAfter_decimal (width k n : Nat) :
    numberAfter k (decimal width n) = some (k * 10 ^ width + n % 10 ^ width) := by
  rw [numberAfter_eq]
  exact spelledAfter_numeral (fun _ => digit?_digitChar) (by decide) width k n

theorem number?_decimal (width n : Nat) :
    number? (decimal width n) = some (n % 10 ^ width) := by
  rw [number?, numberAfter_decimal, Nat.zero_mul, Nat.zero_add]

theorem isDigit_of_mem_decimal {width n : Nat} {c : Char} (h : c ∈ decimal width n) :
    isDigit c = true := by
  induction width generalizing n with
  | zero => simp [decimal, numeral] at h
  | succ width ih =>
      rcases List.mem_append.1 h with h | h
      · exact ih h
      · obtain rfl := List.mem_singleton.1 h
        rw [isDigit, digit?_digitChar (Nat.mod_lt _ (by decide))]
        rfl

/-- A numeral before a character that is no digit is found whole. -/
theorem digits?_decimal {width n most : Nat} {c : Char} {rest : List Char} (hw : 0 < width)
    (hm : width ≤ most) (hc : isDigit c = false) :
    digits? most (decimal width n ++ c :: rest) = some (decimal width n, c :: rest) := by
  have ht : ((decimal width n ++ c :: rest).take most).takeWhile isDigit = decimal width n := by
    rw [List.take_append, List.take_of_length_le (by simpa using hm),
      List.takeWhile_append_of_pos fun _ => isDigit_of_mem_decimal]
    cases e : (c :: rest).take (most - (decimal width n).length) with
    | nil => simp
    | cons a as =>
        have : a = c := by
          cases k : most - (decimal width n).length with
          | zero => rw [k] at e; cases e
          | succ k' => rw [k, List.take_succ_cons] at e; exact (List.cons.inj e).1.symm
        rw [this, List.takeWhile_cons_of_neg (by simp [hc]), List.append_nil]
  have hne : (decimal width n).isEmpty = false := by
    rw [List.isEmpty_eq_false_iff, ← List.length_pos_iff, length_numeral]
    exact hw
  simp only [digits?, ht, hne, Bool.false_eq_true, if_false, List.drop_left]

/-! ### Numerals sort like numbers -/

section

variable {digit : Nat → Char} {base : Nat}

/-- A numeral shows its number up to the leading digits that it lost. -/
theorem numeral_congr {width n m : Nat} (h : n % base ^ width = m % base ^ width) :
    numeral digit base width n = numeral digit base width m := by
  induction width generalizing n m with
  | zero => rfl
  | succ width ih =>
      rw [Nat.pow_succ'] at h
      have hq : n / base % base ^ width = m / base % base ^ width := by
        rw [← Nat.mod_mul_right_div_self, h, Nat.mod_mul_right_div_self]
      have hr : n % base = m % base := by
        rw [← Nat.mod_mul_right_mod n base (base ^ width), h, Nat.mod_mul_right_mod]
      simp only [numeral, ih hq, hr]

/-- The digit of a numeral at a place from the left. -/
theorem getElem?_numeral {width i : Nat} (h : i < width) (n : Nat) :
    (numeral digit base width n)[i]? = some (digit (n / base ^ (width - 1 - i) % base)) := by
  induction width generalizing n with
  | zero => exact absurd h (Nat.not_lt_zero i)
  | succ width ih =>
      rw [numeral]
      rcases Nat.lt_succ_iff_lt_or_eq.1 h with hlt | rfl
      · have hplace : width + 1 - 1 - i = width - 1 - i + 1 := by omega
        rw [List.getElem?_append_left (by rwa [length_numeral]), ih hlt, hplace, Nat.pow_succ',
          Nat.div_div_eq_div_mul]
      · rw [List.getElem?_append_right (Nat.le_of_eq (length_numeral ..)), length_numeral]
        simp

/-- A numeral cut in two: its first digits are those of the number without its last ones. -/
theorem numeral_add (width skipped n : Nat) :
    numeral digit base (width + skipped) n
      = numeral digit base width (n / base ^ skipped) ++ numeral digit base skipped n := by
  induction skipped generalizing n with
  | zero => rw [Nat.add_zero, Nat.pow_zero, Nat.div_one, numeral, List.append_nil]
  | succ skipped ih =>
      rw [← Nat.add_assoc, numeral, ih, Nat.div_div_eq_div_mul, ← Nat.pow_succ', List.append_assoc]
      rfl

/-- **Numerals sort like numbers**, whatever comes after them. -/
theorem numeral_append_lt (hd : ∀ a b, a < b → b < base → digit a < digit b) (hb : 0 < base)
    {width n m : Nat} (h : n % base ^ width < m % base ^ width) (r r' : List Char) :
    numeral digit base width n ++ r < numeral digit base width m ++ r' := by
  induction width generalizing n m r r' with
  | zero => simp only [Nat.pow_zero, Nat.mod_one] at h; omega
  | succ width ih =>
      simp only [numeral, List.append_assoc, List.cons_append, List.nil_append]
      have hle : n / base % base ^ width ≤ m / base % base ^ width := by
        rw [← Nat.mod_mul_right_div_self, ← Nat.mod_mul_right_div_self, ← Nat.pow_succ']
        exact Nat.div_le_div_right (Nat.le_of_lt h)
      rcases Nat.lt_or_eq_of_le hle with hlt | heq
      · exact ih hlt _ _
      · -- the leading digits agree, so the last one decides
        rw [Nat.pow_succ', Nat.mod_mul, Nat.mod_mul, heq] at h
        rw [numeral_congr heq]
        refine List.append_left_lt (List.cons_lt_cons_iff.2 (.inl ?_))
        exact hd _ _ (by omega) (Nat.mod_lt _ hb)

/-- Where the numerals agree, what comes after them decides. -/
theorem numeral_append_lt_append (hd : ∀ a b, a < b → b < base → digit a < digit b) (hb : 0 < base)
    {width n m : Nat} {r r' : List Char} (h : n % base ^ width < m % base ^ width ∨
      (n % base ^ width = m % base ^ width ∧ r < r')) :
    numeral digit base width n ++ r < numeral digit base width m ++ r' := by
  rcases h with h | ⟨h, hr⟩
  · exact numeral_append_lt hd hb h r r'
  · rw [numeral_congr h]
    exact List.append_left_lt hr

/-- A group of digits within a number: where the groups agree, the digits after them decide. -/
theorem numeral_group_lt (hd : ∀ a b, a < b → b < base → digit a < digit b) (hb : 0 < base)
    {width skipped n m : Nat} {r r' : List Char}
    (h : n % base ^ (skipped + width) < m % base ^ (skipped + width))
    (hr : n % base ^ skipped < m % base ^ skipped → r < r') :
    numeral digit base width (n / base ^ skipped) ++ r
      < numeral digit base width (m / base ^ skipped) ++ r' := by
  refine numeral_append_lt_append hd hb ?_
  rw [Nat.pow_add, Nat.mod_mul, Nat.mod_mul] at h
  have hm := Nat.mod_lt m (Nat.pow_pos hb : 0 < base ^ skipped)
  rcases Nat.lt_trichotomy (n / base ^ skipped % base ^ width) (m / base ^ skipped % base ^ width)
    with hlt | heq | hgt
  · exact .inl hlt
  · rw [heq] at h
    exact .inr ⟨heq, hr (by omega)⟩
  · -- the group of `m` would be smaller by at least one, which the rest of `n` cannot make up
    have hgap := Nat.mul_le_mul_left (base ^ skipped) (Nat.succ_le_of_lt hgt)
    rw [Nat.mul_succ] at hgap
    exact absurd (Nat.lt_of_le_of_lt (Nat.le_add_left _ _) h) (by omega)

end

theorem digitChar_lt {a b : Nat} (h : a < b) (hb : b < 16) : Nat.digitChar a < Nat.digitChar b := by
  have key : ∀ a b : Fin 16, a < b → Nat.digitChar a < Nat.digitChar b := by decide
  exact key ⟨a, Nat.lt_trans h hb⟩ ⟨b, hb⟩ h

/-- Decimal numerals of numbers that fit sort like the numbers. -/
theorem decimal_append_lt {width n m : Nat} {r r' : List Char} (hn : n < 10 ^ width)
    (hm : m < 10 ^ width) (h : n < m ∨ (n = m ∧ r < r')) :
    decimal width n ++ r < decimal width m ++ r' := by
  refine numeral_append_lt_append (fun _ _ h hb => digitChar_lt h (by omega)) (by decide) ?_
  rwa [Nat.mod_eq_of_lt hn, Nat.mod_eq_of_lt hm]

end Strongbox.Text
