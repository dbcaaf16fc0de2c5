import Mathlib.Data.List.Basic
import Strongbox.Bytes

/-!
# Text — texts sort like their bytes

A text is stored and sent as its bytes in UTF-8, and whoever sorts bytes sorts texts.

* `Bytes.encode_append_lt`: the bytes of one character before those of a greater one.
* `Bytes.ofText_lt_iff`: the bytes of one text come before those of another as the texts do.
* `Bytes.length_ofText`: a text of ASCII characters has one byte for each.
* `Bytes.size_letters`: there are texts of every size.
-/

namespace Strongbox.Bytes

theorem ofText_ofList (cs : List Char) :
    ofText (String.ofList cs) = cs.flatMap String.utf8EncodeChar := by
  simp [ofText, List.utf8Encode]

/-- The bytes of a character come before those of a greater one, whatever follows. -/
theorem encode_append_lt {c d : Char} (h : c < d) (r r' : Bytes) :
    String.utf8EncodeChar c ++ r < String.utf8EncodeChar d ++ r' := by
  have hlt : c.val.toNat < d.val.toNat := h
  have hmost : d.val.toNat < 1114112 := by
    have hvalid := d.valid
    simp only [UInt32.isValidChar, Nat.isValidChar] at hvalid
    omega
  simp only [String.utf8EncodeChar]
  generalize c.val.toNat = m at hlt
  generalize d.val.toNat = n at hlt hmost
  have widths : ∀ k, k ≤ 127 ∨ (127 < k ∧ k ≤ 2047) ∨ (2047 < k ∧ k ≤ 65535) ∨ 65535 < k := by
    omega
  -- the first byte tells the width, and a greater character takes no fewer bytes
  rcases widths m with hm | hm | hm | hm <;> rcases widths n with hn | hn | hn | hn <;>
    first
    | omega
    | simp (disch := omega) only [if_pos, if_neg, List.cons_append, List.nil_append,
        List.cons_lt_cons_iff, UInt8.lt_iff_toNat_lt, ← UInt8.toNat_inj, UInt8.toNat_ofNat',
        Nat.mod_eq_of_lt]
      omega

/-- The bytes of one text come before those of a greater one. -/
theorem ofText_lt {s t : String} (h : s < t) : ofText s < ofText t := by
  rw [String.lt_iff] at h
  rw [← s.ofList_toList, ← t.ofList_toList, ofText_ofList, ofText_ofList]
  generalize s.toList = cs at h
  generalize t.toList = ds at h
  induction cs generalizing ds with
  | nil =>
      cases ds with
      | nil => exact absurd h (List.lt_irrefl _)
      | cons d ds =>
          have hne : String.utf8EncodeChar d ≠ [] := String.utf8EncodeChar_ne_nil
          obtain ⟨b, bytes, hb⟩ := List.exists_cons_of_ne_nil hne
          rw [List.flatMap_cons, hb]
          exact List.nil_lt_cons _ _
  | cons c cs ih =>
      cases ds with
      | nil => exact absurd h (List.not_lt_nil _)
      | cons d ds =>
          rw [List.flatMap_cons, List.flatMap_cons]
          rcases List.cons_lt_cons_iff.1 h with hlt | ⟨rfl, hlt⟩
          · exact encode_append_lt hlt _ _
          · exact List.append_left_lt (ih _ hlt)

/-- **Texts sort like their bytes.** -/
theorem ofText_lt_iff {s t : String} : ofText s < ofText t ↔ s < t := by
  refine ⟨fun h => ?_, ofText_lt⟩
  by_contra hn
  by_cases hlt : t < s
  · exact List.lt_asymm h (ofText_lt hlt)
  · obtain rfl := String.le_antisymm (String.not_lt.1 hlt) (String.not_lt.1 hn)
    exact List.lt_irrefl _ h

/-- A text of characters below 128 has one byte for each. -/
theorem length_ofText {s : String} (h : ∀ c ∈ s.toList, c.toNat < 128) :
    (ofText s).length = s.toList.length := by
  rw [← s.ofList_toList, ofText_ofList, String.toList_ofList]
  generalize s.toList = cs at h
  induction cs with
  | nil => rfl
  | cons c cs ih =>
      obtain ⟨hc, hcs⟩ := List.forall_mem_cons.1 h
      have hone : (String.utf8EncodeChar c).length = 1 := by
        rw [String.length_utf8EncodeChar, Char.utf8Size_eq_one_iff, UInt32.le_iff_toNat_le]
        exact Nat.le_of_lt_succ hc
      rw [List.flatMap_cons, List.length_append, ih hcs, hone, List.length_cons, Nat.add_comm]

/-- The text of `n` equal letters.  It is not for evaluation, as `n` may be huge. -/
@[irreducible] def letters (n : Nat) : String :=
  String.ofList (List.replicate n 'a')

/-- There are texts of every size. -/
theorem size_letters (n : Nat) : (letters n).utf8ByteSize = n := by
  have hascii : ∀ c ∈ (letters n).toList, c.toNat < 128 := by
    intro c hc
    rw [letters, String.toList_ofList] at hc
    obtain rfl := List.eq_of_mem_replicate hc
    decide
  rw [← size_ofText, length_ofText hascii, letters, String.toList_ofList, List.length_replicate]

theorem letters_ne {n : Nat} (h : 0 < n) : letters n ≠ "" := by
  intro heq
  rw [← size_letters n, heq] at h
  exact absurd h (by decide)

end Strongbox.Bytes
