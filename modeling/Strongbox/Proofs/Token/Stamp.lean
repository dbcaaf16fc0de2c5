import Mathlib.Data.List.GetD
import Strongbox.Proofs.Text.Bytes
import Strongbox.Proofs.Text.Numeral
import Strongbox.Proofs.Token.Suffix

/-!
# Token — the parts of a token, and how tokens sort

A token that a generator makes is the mark, a stamp and a suffix.  The stamp comes right after the
mark, and its digits ascend in the order of characters, so among tokens with stamps of one width
the earlier one comes first, whatever their lengths and suffixes.

* `Composed`: what the characters of a token are.
* `Generator.make_composes`: when a token is made, what it is made of, and which of two tokens
  comes first.
-/

namespace Strongbox.Token

/-! ### The stamp -/

theorem stampDigit_eq {n : Nat} (h : n < 32) : stampAlphabet[n]? = some (stampDigit n) := by
  have hlen : n < stampAlphabet.length := h
  rw [stampDigit, List.getD_eq_getElem _ _ hlen, List.getElem?_eq_getElem hlen]

/-- The digits of a stamp ascend. -/
theorem stampDigit_lt {a b : Nat} (h : a < b) (hb : b < 32) : stampDigit a < stampDigit b := by
  have hdigits : ∀ a b : Fin 32, a < b → stampDigit a < stampDigit b := by decide +kernel
  exact hdigits ⟨a, Nat.lt_trans h hb⟩ ⟨b, hb⟩ h

/-! ### Whole tokens -/

/-- What a token of a length for a time in milliseconds is made of: the mark, a stamp of nine
digits, or as many as leave room for a suffix of six letters, and a suffix that fills the length.
The digits are those of the time in base 32, most significant first, without the ones that there is
no room for. -/
structure Composed (length millis : Nat) (token : String) : Prop where
  length_eq : token.length = length
  parts : ∃ stamp suffix : List Char, token.toList = "tk_".toList ++ stamp ++ suffix ∧
    stamp.length = min 9 (length - 9) ∧
    (∀ i < stamp.length, stamp[i]?
      = stampAlphabet[millis % 32 ^ stamp.length / 32 ^ (stamp.length - 1 - i) % 32]?) ∧
    suffix.length = length - 3 - stamp.length ∧ 6 ≤ suffix.length ∧
    ∀ c ∈ suffix, c ∈ Suffix.alphabet

namespace Generator

variable {g g' : Generator} {length length' millis millis' : Nat} {s rest s' rest' : Supply}
  {token token' : String}

theorem stampLength_eq (length : Nat) : stampLength length = min 9 (length - 9) := by
  have hmark : mark.length = 3 := rfl
  rw [stampLength, stampWidth, leastSuffix, hmark, Nat.sub_sub]

/-- A token that was made, with its length. -/
theorem eq_of_make (h : g.make length millis s = .ok (token, rest)) :
    15 ≤ length ∧ ∃ suffix : List Char, suffix.length = length - 3 - stampLength length ∧
      (∀ c ∈ suffix, c ∈ Suffix.alphabet) ∧
      token = String.ofList
        (mark ++ (Text.numeral stampDigit 32 (stampLength length) millis ++ suffix)) := by
  simp only [make] at h
  split at h
  · rename_i hlen
    obtain ⟨rfl, -⟩ := Prod.mk.inj (Except.ok.inj h)
    refine ⟨Nat.le_trans g.floor_le hlen.1, _, Suffix.length_draw _ s,
      fun _ => Suffix.mem_alphabet_of_mem_draw, ?_⟩
    rw [List.append_assoc]
    rfl
  · cases h

/-- **The parts of a token** that was made. -/
theorem composed_of_make (h : g.make length millis s = .ok (token, rest)) :
    Composed length millis token := by
  obtain ⟨hlen, suffix, hsuffix, hletters, rfl⟩ := eq_of_make h
  have hwidth := stampLength_eq length
  have hmark : mark.length = 3 := rfl
  constructor
  · rw [String.length_ofList, List.length_append, List.length_append, Text.length_numeral, hsuffix]
    omega
  · refine ⟨_, suffix, by rw [String.toList_ofList, List.append_assoc]; rfl,
      by rw [Text.length_numeral, hwidth], fun i hi => ?_, by rw [Text.length_numeral, hsuffix],
      by omega, hletters⟩
    rw [Text.length_numeral] at hi ⊢
    rw [← Text.numeral_congr (Nat.mod_mod millis (32 ^ stampLength length)),
      Text.getElem?_numeral hi, stampDigit_eq (Nat.mod_lt _ (by decide))]

/-- **The earlier token comes first**, if the stamps have one width and room for both times. -/
theorem make_lt (h : g.make length millis s = .ok (token, rest))
    (h' : g'.make length' millis' s' = .ok (token', rest'))
    (hwidth : stampLength length = stampLength length') (hlt : millis < millis')
    (hroom : millis' < 32 ^ stampLength length) : token < token' := by
  obtain ⟨-, suffix, -, -, rfl⟩ := eq_of_make h
  obtain ⟨-, suffix', -, -, rfl⟩ := eq_of_make h'
  rw [String.lt_iff, String.toList_ofList, String.toList_ofList, ← hwidth]
  refine List.append_left_lt (Text.numeral_append_lt (fun _ _ => stampDigit_lt) (by decide) ?_ _ _)
  rwa [Nat.mod_eq_of_lt hroom, Nat.mod_eq_of_lt (Nat.lt_trans hlt hroom)]

/-- **What a generator makes.**  With the least length raised to 15 and the greatest to the least,
it refuses exactly the lengths outside, and tells them.  For any other length it makes a token: of
that length, with the mark, the stamp of the time and a suffix of at least six letters.  Of two
tokens of any generators with stamps of one width, the one with the earlier stamp comes first by its
bytes, if the width has room for both times; a width of nine has room for all below 2⁴⁵. -/
theorem make_composes (least most length millis : Nat) (s : Supply) :
    (∀ error, (ofBounds least most).make length millis s = .error error ↔
      (length < max least 15 ∨ max most (max least 15) < length) ∧
        error = ⟨length, max least 15, max most (max least 15)⟩) ∧
    (max least 15 ≤ length ∧ length ≤ max most (max least 15) →
      ∃ token rest, (ofBounds least most).make length millis s = .ok (token, rest)) ∧
    ∀ token rest, (ofBounds least most).make length millis s = .ok (token, rest) →
      Composed length millis token ∧
      ∀ (g' : Generator) (length' millis' : Nat) (s' : Supply) (token' : String) (rest' : Supply)
        (k : Nat), g'.make length' millis' s' = .ok (token', rest') →
          k = min 9 (length - 9) → k = min 9 (length' - 9) → millis < millis' →
            millis' < 32 ^ k ∨ (k = 9 ∧ millis' < 2 ^ 45) →
              Bytes.ofText token < Bytes.ofText token' ∧ token ≠ token' := by
  have hleast : (ofBounds least most).least = max least 15 := rfl
  have hmost : (ofBounds least most).most = max most (max least 15) := rfl
  refine ⟨fun error => ?_, fun hlen => ⟨_, _, if_pos hlen⟩, fun token rest h => ?_⟩
  · rw [make, hleast, hmost]
    split
    · rename_i hlen
      exact ⟨nofun, fun ⟨hout, _⟩ => by omega⟩
    · rename_i hlen
      constructor
      · rintro ⟨⟩
        exact ⟨by omega, rfl⟩
      · rintro ⟨-, rfl⟩
        rfl
  · refine ⟨composed_of_make h, ?_⟩
    rintro g' length' millis' s' token' rest' k h' hk hk' hlt hroom
    have hpow : (32 : Nat) ^ 9 = 2 ^ 45 := by decide
    have hroom' : millis' < 32 ^ k := by
      rcases hroom with hroom | ⟨rfl, hroom⟩
      · exact hroom
      · rwa [hpow]
    rw [← stampLength_eq] at hk hk'
    have hfirst := make_lt h h' (hk.symm.trans hk') hlt (hk ▸ hroom')
    exact ⟨Bytes.ofText_lt hfirst, fun he => String.lt_irrefl _ (he ▸ hfirst)⟩

/-- A token of 20 characters comes before a longer one of the next second. -/
theorem make_composes_usual : ∃ token rest token' rest',
    usual.make 20 1700000000000 (.seeded #[] 0) = .ok (token, rest) ∧
      usual.make 40 1700000001000 (.seeded #[] 1) = .ok (token', rest') ∧
      Bytes.ofText token < Bytes.ofText token' ∧ token ≠ token' := by
  obtain ⟨-, hmake, hmade⟩ := make_composes 15 40 20 1700000000000 (.seeded #[] 0)
  obtain ⟨-, hmake', -⟩ := make_composes 15 40 40 1700000001000 (.seeded #[] 1)
  obtain ⟨token, rest, h⟩ := hmake (by decide)
  obtain ⟨token', rest', h'⟩ := hmake' (by decide)
  exact ⟨token, rest, token', rest', h, h', (hmade token rest h).2 usual 40 1700000001000
    (.seeded #[] 1) token' rest' 9 h' rfl rfl (by decide) (.inr ⟨rfl, by decide⟩)⟩

end Generator

end Strongbox.Token
