import Mathlib.Tactic.ByContra
import Strongbox.Proofs.Text.Numeral
import Strongbox.Uuid

/-!
# Ids — their order and their texts

* `Uuid.exists_groups`: the text of an id is its digits in groups with hyphens between.
* `Uuid.read?_text`: an id is read back from its text.
* `Uuid.text_lt_iff`: the texts of ids sort like the ids.
-/

namespace Strongbox.Uuid

/-! ### Order -/

theorem toNat_inj {a b : Uuid} : a.toNat = b.toNat ↔ a = b := by
  cases a
  cases b
  simp [toNat, BitVec.toNat_inj]

theorem lt_iff {a b : Uuid} : a < b ↔ a.toNat < b.toNat := Iff.rfl

theorem ne_of_lt {a b : Uuid} (h : a < b) : a ≠ b := by
  rintro rfl
  exact Nat.lt_irrefl _ (lt_iff.1 h)

theorem lt_of_not_lt {a b : Uuid} (h : ¬ a < b) (hne : a ≠ b) : b < a := by
  rw [lt_iff] at h ⊢
  have : a.toNat ≠ b.toNat := fun e => hne (toNat_inj.1 e)
  omega

theorem lt_trans {a b c : Uuid} (h : a < b) (h' : b < c) : a < c :=
  Nat.lt_trans h h'

theorem lt_irrefl (a : Uuid) : ¬ a < a :=
  Nat.lt_irrefl a.toNat

theorem toNat_lt (u : Uuid) : u.toNat < 2 ^ 128 :=
  u.bits.isLt

@[simp] theorem ofNat_toNat (u : Uuid) : ofNat u.toNat = u := by
  rw [ofNat, toNat, BitVec.ofNat_toNat, BitVec.setWidth_eq]

/-! ### Texts -/

/-- **The text of an id** is its 32 digits in groups with hyphens between. -/
theorem exists_groups (u : Uuid) : ∃ groups, u.text.toList = ['-'].intercalate groups ∧
    groups.map List.length = [8, 4, 4, 4, 12] ∧
      groups.flatten = Text.numeral Nat.digitChar 16 32 u.toNat := by
  let group := fun width skipped => Text.numeral Nat.digitChar 16 width (u.toNat / 16 ^ skipped)
  refine ⟨[group 8 24, group 4 20, group 4 16, group 4 12, group 12 0], ?_, ?_, ?_⟩
  · simp [text, textChars, group, List.intercalate, Nat.shiftRight_eq_div_pow]
  · simp [group]
  · -- the first group is cut off the numeral, then the next off what is left
    have hcut : ∀ width skipped, Text.numeral Nat.digitChar 16 (width + skipped) u.toNat
        = group width skipped ++ Text.numeral Nat.digitChar 16 skipped u.toNat :=
      fun width skipped => Text.numeral_add width skipped u.toNat
    have hlast : Text.numeral Nat.digitChar 16 12 u.toNat = group 12 0 := by simp [group]
    rw [hcut 8 24, hcut 4 20, hcut 4 16, hcut 4 12, hlast]
    simp

/-- The digits in groups between hyphens are the digits of the id. -/
theorem ofGroups?_groups {a b c d e : List Char} (ha : a.length = 8) (hb : b.length = 4)
    (hc : c.length = 4) (hd : d.length = 4) (he : e.length = 12) :
    ofGroups? (a ++ '-' :: b ++ '-' :: c ++ '-' :: d ++ '-' :: e)
      = ofDigits? (a ++ b ++ c ++ d ++ e) := by
  simp [ofGroups?, ha, hb, hc, hd, he, List.drop_append, List.drop_of_length_le]

/-- **An id is read back from its text.** -/
theorem read?_text (u : Uuid) : read? u.text = some u := by
  have hspell : ∀ width k n, Text.spelledAfter Text.hexDigit? 16 k
      (Text.numeral Nat.digitChar 16 width n) = some (k * 16 ^ width + n % 16 ^ width) :=
    Text.spelledAfter_numeral (fun _ => Text.hexDigit?_digitChar) (by decide)
  have hlen : u.textChars.length = 36 := by simp [textChars]
  have hlt := u.toNat_lt
  rw [read?, text, String.toList_ofList, if_neg (by omega), if_pos hlen, textChars,
    ofGroups?_groups (by simp) (by simp) (by simp) (by simp) (by simp), ofDigits?,
    if_pos (by simp), Text.hexAfter_eq]
  simp only [Text.spelledAfter_append, hspell, Option.bind_some, Option.bind_eq_bind,
    Option.pure_def, Nat.shiftRight_eq_div_pow]
  rw [← u.ofNat_toNat]
  congr 2
  simp only [ofNat_toNat]
  omega

/-- The texts of ids ascend with the ids: the first groups that differ decide. -/
theorem text_lt {a b : Uuid} (h : a < b) : a.text < b.text := by
  have group : ∀ {width skipped n m : Nat} {r r' : List Char},
      n % 16 ^ (skipped + width) < m % 16 ^ (skipped + width) →
      (n % 16 ^ skipped < m % 16 ^ skipped → '-' :: r < '-' :: r') →
      Text.numeral Nat.digitChar 16 width (n / 16 ^ skipped) ++ '-' :: r
        < Text.numeral Nat.digitChar 16 width (m / 16 ^ skipped) ++ '-' :: r' :=
    Text.numeral_group_lt (fun _ _ => Text.digitChar_lt) (by decide)
  have hpow : (16 : Nat) ^ (24 + 8) = 2 ^ 128 := by decide
  have hlt : a.toNat % 16 ^ (24 + 8) < b.toNat % 16 ^ (24 + 8) := by
    rw [hpow, Nat.mod_eq_of_lt a.toNat_lt, Nat.mod_eq_of_lt b.toNat_lt]
    exact lt_iff.1 h
  have hbits : ∀ skipped, 2 ^ (4 * skipped) = 16 ^ skipped := Nat.pow_mul 2 4
  rw [String.lt_iff, text, text, String.toList_ofList, String.toList_ofList]
  simp only [textChars, List.append_assoc, List.cons_append, Nat.shiftRight_eq_div_pow, hbits]
  refine group hlt fun h₁ => List.cons_lt_cons_self.2 ?_
  refine group h₁ fun h₂ => List.cons_lt_cons_self.2 ?_
  refine group h₂ fun h₃ => List.cons_lt_cons_self.2 ?_
  refine group h₃ fun h₄ => List.cons_lt_cons_self.2 ?_
  rw [Nat.pow_zero, Nat.div_one, Nat.div_one]
  simpa only [List.append_nil] using
    Text.numeral_append_lt (fun _ _ => Text.digitChar_lt) (by decide) h₄ [] []

theorem text_inj {a b : Uuid} (h : a.text = b.text) : a = b := by
  have := read?_text a
  rw [h, read?_text] at this
  exact (Option.some.inj this).symm

/-- **The texts of ids sort like the ids.** -/
theorem text_lt_iff {a b : Uuid} : a.text < b.text ↔ a < b := by
  refine ⟨fun h => ?_, text_lt⟩
  by_contra hn
  by_cases he : a = b
  · exact String.lt_irrefl _ (he ▸ h)
  · exact String.lt_irrefl _ (String.lt_trans h (text_lt (lt_of_not_lt hn he)))

end Strongbox.Uuid
