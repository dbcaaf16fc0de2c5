import Mathlib.Algebra.BigOperators.Group.Finset.Basic
import Mathlib.Algebra.Group.Action.Defs
import Mathlib.Data.FinEnum
import Mathlib.Data.List.GetD
import Mathlib.Data.Set.Card
import Mathlib.Order.Bounds.Defs
import Mathlib.Tactic.Ring
import Strongbox.Token.Generator

/-!
# Token — the letters of a suffix

A suffix is drawn from whole blocks of random bytes.  Every accepted byte gives one letter, wherever
the blocks begin, and every letter is given by as many bytes as any other, so no suffix is favoured.

* `Suffix.draw_blocks`: what is drawn, and from how many blocks.
* `Suffix.length_draw`, `Suffix.mem_alphabet_of_mem_draw`: a suffix has its length and its letters.
* `Suffix.card_spelling`, `Suffix.card_beginning`: how many strings of accepted bytes spell a
  suffix, and how many strings of any bytes begin with one.
* `Suffix.draw_fair`: all of it together.
-/

namespace Strongbox

/-! ### Lists of a length -/

section

open Finset

variable {α : Type} [DecidableEq α] {A : Finset α}

/-- The lists of `n` items of a finite set. -/
def words (A : Finset α) : (n : Nat) → Finset (List α)
  | 0 => {[]}
  | n + 1 => A.biUnion fun a => (words A n).image (a :: ·)

theorem mem_words {n : Nat} {xs : List α} :
    xs ∈ words A n ↔ xs.length = n ∧ ∀ x ∈ xs, x ∈ A := by
  induction n generalizing xs with
  | zero =>
      rw [words, mem_singleton, List.length_eq_zero_iff]
      exact ⟨fun h => ⟨h, h ▸ nofun⟩, (·.1)⟩
  | succ n ih =>
      rw [words, mem_biUnion]
      constructor
      · rintro ⟨a, ha, h⟩
        obtain ⟨ys, hys, rfl⟩ := mem_image.1 h
        obtain ⟨hlen, hmem⟩ := ih.1 hys
        exact ⟨congrArg (· + 1) hlen, List.forall_mem_cons.2 ⟨ha, hmem⟩⟩
      · rintro ⟨hlen, hmem⟩
        cases xs with
        | nil => cases hlen
        | cons a ys =>
            obtain ⟨ha, hys⟩ := List.forall_mem_cons.1 hmem
            exact ⟨a, ha, mem_image_of_mem _ (ih.2 ⟨Nat.succ.inj hlen, hys⟩)⟩

/-- Lists with one item more, counted by their first item. -/
theorem card_filter_words (A : Finset α) (n : Nat) (P : List α → Prop) [DecidablePred P] :
    ((words A (n + 1)).filter P).card
      = ∑ a ∈ A, ((words A n).filter fun xs => P (a :: xs)).card := by
  rw [words, filter_biUnion, card_biUnion]
  · refine sum_congr rfl fun a _ => ?_
    rw [filter_image, card_image_of_injective _ (List.cons_injective)]
  · intro a _ b _ hab
    refine disjoint_left.2 fun xs ha hb => hab ?_
    obtain ⟨ys, -, rfl⟩ := mem_image.1 (mem_filter.1 ha).1
    obtain ⟨zs, -, he⟩ := mem_image.1 (mem_filter.1 hb).1
    exact (List.cons.inj he).1.symm

theorem ncard_words (A : Finset α) (n : Nat) (P : List α → Prop) [DecidablePred P] :
    {xs : List α | xs.length = n ∧ (∀ x ∈ xs, x ∈ A) ∧ P xs}.ncard
      = ((words A n).filter P).card := by
  rw [← Set.ncard_coe_finset]
  congr 1
  ext xs
  simp [mem_words, and_assoc]

theorem card_words (A : Finset α) (n : Nat) : (words A n).card = A.card ^ n := by
  induction n with
  | zero => rfl
  | succ n ih =>
      have h := card_filter_words A n fun _ => True
      rwa [filter_true_of_mem fun _ _ => trivial, filter_true_of_mem fun _ _ => trivial,
        sum_const, ih, smul_eq_mul, ← pow_succ'] at h

end

/-! ### The bytes ahead -/

namespace Supply

theorem skip_skip (s : Supply) (m n : Nat) : (s.skip m).skip n = s.skip (m + n) :=
  congrArg (fun place => { s with place }) (Nat.add_assoc s.place m n)

theorem peek_add (s : Supply) (m n : Nat) : s.peek (m + n) = s.peek m ++ (s.skip m).peek n := by
  rw [peek, ← List.range'_append_1, List.map_append]
  rfl

end Supply

namespace Token.Suffix

/-! ### The letters of bytes -/

theorem getElem?_alphabet (b : UInt8) : alphabet[b.toNat % 31]? = some (letter b) := by
  have hlen : alphabet.length = 31 := by decide
  have hlt : b.toNat % 31 < alphabet.length := by
    rw [hlen]
    exact Nat.mod_lt _ (by decide)
  rw [letter, List.getD_eq_getElem _ _ hlt, List.getElem?_eq_getElem hlt]

theorem letter_mem (b : UInt8) : letter b ∈ alphabet :=
  List.mem_of_getElem? (getElem?_alphabet b)

theorem mem_alphabet_of_mem_letters {bs : Bytes} {c : Char} (h : c ∈ letters bs) :
    c ∈ alphabet := by
  obtain ⟨b, -, rfl⟩ := List.mem_map.1 h
  exact letter_mem b

theorem letters_append (as bs : Bytes) : letters (as ++ bs) = letters as ++ letters bs := by
  rw [letters, List.filter_append, List.map_append]
  rfl

theorem letters_cons (b : UInt8) (bs : Bytes) :
    letters (b :: bs) = if b < 248 then letter b :: letters bs else letters bs := by
  rw [letters, List.filter_cons, accepts, apply_ite (List.map letter)]
  exact if_congr decide_eq_true_iff rfl rfl

theorem length_letters (bs : Bytes) : (letters bs).length = bs.countP (· < 248) := by
  rw [letters, List.length_map, ← List.countP_eq_length_filter]
  rfl

theorem take_letters (n : Nat) (bs : Bytes) :
    (letters bs).take n = ((bs.filter (· < 248)).take n).map letter :=
  List.map_take.symm

/-! ### The blocks of a draw -/

variable {n m k : Nat} {s : Supply}

/-- **A suffix by its blocks**: the letters of as many whole blocks as are needed, up to the last
letter asked for. -/
theorem draw_blocks (n : Nat) (s : Supply) : ∃ blocks, (draw n s).2 = s.skip (64 * blocks) ∧
    (draw n s).1 = (letters (s.peek (64 * blocks))).take n ∧
    n ≤ (letters (s.peek (64 * blocks))).length ∧
    ∀ k < blocks, (letters (s.peek (64 * k))).length < n := by
  fun_induction draw n s with
  | case1 s => exact ⟨0, rfl, rfl, Nat.zero_le _, nofun⟩
  | case2 n s hn got rest hle =>
      refine ⟨1, rfl, rfl, hle, fun k hk => ?_⟩
      rw [Nat.lt_one_iff.1 hk]
      exact Nat.pos_of_ne_zero hn
  | case3 n s hn got rest hle more ih =>
      obtain ⟨blocks, hrest, hmore, hlen, hleast⟩ := ih
      have hpeek : ∀ k, letters (s.peek (64 * (k + 1))) = got ++ letters (rest.peek (64 * k)) := by
        intro k
        rw [Nat.mul_succ, Nat.add_comm, Supply.peek_add, letters_append]
        rfl
      refine ⟨blocks + 1, ?_, ?_, ?_, fun k hk => ?_⟩
      · rw [hrest, Supply.skip_skip, Nat.mul_succ, Nat.add_comm]
        rfl
      · rw [hpeek, List.take_append, List.take_of_length_le (by omega), ← hmore]
      · rw [hpeek, List.length_append]
        omega
      · cases k with
        | zero => exact Nat.pos_of_ne_zero hn
        | succ k =>
            have := hleast k (by omega)
            rw [hpeek, List.length_append]
            omega

/-- As many letters are drawn as were asked for. -/
@[simp] theorem length_draw (n : Nat) (s : Supply) : (draw n s).1.length = n := by
  obtain ⟨blocks, -, hletters, hlen, -⟩ := draw_blocks n s
  rw [hletters, List.length_take_of_le hlen]

theorem mem_alphabet_of_mem_draw {c : Char} (h : c ∈ (draw n s).1) : c ∈ alphabet := by
  obtain ⟨blocks, -, hletters, -⟩ := draw_blocks n s
  rw [hletters] at h
  exact mem_alphabet_of_mem_letters (List.mem_of_mem_take h)

/-- The first letters do not depend on how far ahead one looks for them. -/
theorem take_letters_peek (hm : n ≤ (letters (s.peek m)).length) (hmk : m ≤ k) :
    (letters (s.peek k)).take n = (letters (s.peek m)).take n := by
  obtain ⟨d, rfl⟩ := Nat.exists_eq_add_of_le hmk
  rw [Supply.peek_add, letters_append, List.take_append_of_le_length hm]

/-- **A suffix by its bytes**, as far ahead as one looks. -/
theorem draw_eq_take (h : n ≤ (letters (s.peek m)).length) :
    (draw n s).1 = (letters (s.peek m)).take n := by
  obtain ⟨blocks, -, hletters, hlen, -⟩ := draw_blocks n s
  rcases Nat.le_total m (64 * blocks) with hle | hle
  · rw [hletters, take_letters_peek h hle]
  · rw [hletters, take_letters_peek hlen hle]

/-! ### Counting byte strings -/

section

open Finset

variable {c : Char} {w : List Char}

/-- Eight of the accepted bytes pick a given letter, and eight bytes are not accepted. -/
theorem sum_bytes (hc : c ∈ alphabet) (x y z : Nat) :
    (∑ b : UInt8, if b < 248 then if letter b = c then x else y else z)
      = 8 * x + 240 * y + 8 * z := by
  have hpicks : (alphabet.all fun c => #{b : UInt8 | b < 248 ∧ letter b = c} = 8) = true := by
    decide +kernel
  have hpick := of_decide_eq_true (List.all_eq_true.1 hpicks c hc)
  have haccepted : #{b : UInt8 | b < 248} = 248 := by decide +kernel
  have hrefused : #{b : UInt8 | ¬ b < 248} = 8 := by decide +kernel
  have hother : #{b : UInt8 | b < 248 ∧ letter b ≠ c} = 240 := by
    have hsplit := card_filter_add_card_filter_not (s := {b : UInt8 | b < 248}) (letter · = c)
    rw [filter_filter, filter_filter, hpick, haccepted] at hsplit
    exact Nat.add_left_cancel (n := 8) hsplit
  rw [sum_ite, sum_ite, filter_filter, filter_filter, sum_const, sum_const, sum_const, hpick,
    hother, hrefused]
  simp only [smul_eq_mul]

/-- A suffix is spelt by 8ⁿ strings of accepted bytes. -/
theorem card_spelling (hw : ∀ c ∈ w, c ∈ alphabet) :
    #{bs ∈ words {b : UInt8 | b < 248} w.length | bs.map letter = w} = 8 ^ w.length := by
  induction w with
  | nil => rfl
  | cons c w ih =>
      obtain ⟨hc, hw⟩ := List.forall_mem_cons.1 hw
      have hsum := sum_bytes hc (8 ^ w.length) 0 0
      have hcons : ∀ b, #{bs ∈ words {b : UInt8 | b < 248} w.length | (b :: bs).map letter = c :: w}
          = if letter b = c then 8 ^ w.length else 0 := by
        intro b
        simp only [List.map_cons, List.cons.injEq]
        split
        · rename_i hb
          simp only [hb, true_and]
          exact ih hw
        · rename_i hb
          simp only [hb, false_and, filter_false, card_empty]
      rw [List.length_cons, card_filter_words, sum_congr rfl fun b _ => hcons b, sum_filter, hsum,
        pow_succ']
      omega

/-- The strings of `m` bytes that begin with a suffix. -/
def beginning (w : List Char) (m : Nat) : Finset Bytes :=
  {bs ∈ words univ m | w <+: letters bs}

/-- The strings of `m` bytes with at least `n` accepted ones. -/
def lettered (n m : Nat) : Finset Bytes :=
  {bs ∈ words univ m | n ≤ (letters bs).length}

theorem card_beginning_succ (hc : c ∈ alphabet) (w : List Char) (m : Nat) :
    #(beginning (c :: w) (m + 1)) = 8 * #(beginning w m) + 8 * #(beginning (c :: w) m) := by
  have hcons : ∀ b, #{bs ∈ words univ m | c :: w <+: letters (b :: bs)}
      = if b < 248 then if letter b = c then #(beginning w m) else 0
        else #(beginning (c :: w) m) := by
    intro b
    simp only [letters_cons]
    by_cases hb : b < 248
    · by_cases hletter : letter b = c
      · simp only [hb, hletter, if_true, List.cons_prefix_cons, true_and, beginning]
      · simp only [hb, if_true, if_neg hletter, List.cons_prefix_cons, Ne.symm hletter, false_and,
          filter_false, card_empty]
    · simp only [hb, if_false, beginning]
  rw [beginning, card_filter_words, sum_congr rfl fun b _ => hcons b, sum_bytes hc]
  rfl

theorem card_lettered_succ (n m : Nat) :
    #(lettered (n + 1) (m + 1)) = 248 * #(lettered n m) + 8 * #(lettered (n + 1) m) := by
  have hcons : ∀ b, #{bs ∈ words univ m | n + 1 ≤ (letters (b :: bs)).length}
      = if b < 248 then if letter b = '2' then #(lettered n m) else #(lettered n m)
        else #(lettered (n + 1) m) := by
    intro b
    simp only [letters_cons, ite_self]
    by_cases hb : b < 248
    · simp only [hb, if_true, List.length_cons, Nat.add_le_add_iff_right, lettered]
    · simp only [hb, if_false, lettered]
  rw [lettered, card_filter_words, sum_congr rfl fun b _ => hcons b, sum_bytes (by decide)]
  omega

/-- Of the strings with enough accepted bytes, every suffix begins the same share. -/
theorem card_beginning (hw : ∀ c ∈ w, c ∈ alphabet) (m : Nat) :
    31 ^ w.length * #(beginning w m) = #(lettered w.length m) := by
  induction m generalizing w with
  | zero =>
      cases w with
      | nil => rfl
      | cons c w => rfl
  | succ m ih =>
      cases w with
      | nil => simp only [beginning, lettered, List.nil_prefix, List.length_nil, Nat.zero_le,
          pow_zero, one_mul]
      | cons c w =>
          obtain ⟨hc, htail⟩ := List.forall_mem_cons.1 hw
          calc 31 ^ (w.length + 1) * #(beginning (c :: w) (m + 1))
              = 248 * (31 ^ w.length * #(beginning w m))
                + 8 * (31 ^ (w.length + 1) * #(beginning (c :: w) m)) := by
                rw [card_beginning_succ hc]
                ring
            _ = 248 * #(lettered w.length m) + 8 * #(lettered (w.length + 1) m) := by
                rw [ih htail]
                exact congrArg (_ + 8 * ·) (ih hw)
            _ = #(lettered (w.length + 1) (m + 1)) := (card_lettered_succ w.length m).symm

/-! ### Fair draws -/

/-- **A suffix is drawn fairly.**  Of the bytes ahead it takes whole blocks, as few as hold enough
accepted bytes, and its letters are those of the first accepted ones, as far ahead as one looks for
them.  Each of the 31ⁿ suffixes is spelt by 8ⁿ strings of accepted bytes, and of the strings of any
length with enough accepted bytes the same share gives each suffix. -/
theorem draw_fair (n : Nat) (s : Supply) :
    (∃ blocks, IsLeast {k | n ≤ (s.peek (64 * k)).countP (· < 248)} blocks ∧
      (draw n s).2 = s.skip (64 * blocks)) ∧
    (n = 0 → (draw n s).2 = s) ∧
    (draw n s).1.length = n ∧
    (∀ m, n ≤ (s.peek m).countP (· < 248) →
      (draw n s).1 = (((s.peek m).filter (· < 248)).take n).map letter) ∧
    (∀ b, alphabet[b.toNat % 31]? = some (letter b)) ∧
    {w : List Char | w.length = n ∧ ∀ c ∈ w, c ∈ alphabet}.ncard = 31 ^ n ∧
    ∀ w : List Char, w.length = n → (∀ c ∈ w, c ∈ alphabet) →
      {bs : Bytes | bs.length = n ∧ (∀ b ∈ bs, b < 248) ∧ bs.map letter = w}.ncard = 8 ^ n ∧
      ∀ m, 31 ^ n * {bs : Bytes | bs.length = m ∧
          ((bs.filter (· < 248)).take n).map letter = w}.ncard
        = {bs : Bytes | bs.length = m ∧ n ≤ bs.countP (· < 248)}.ncard := by
  obtain ⟨blocks, hrest, -, hlen, hleast⟩ := draw_blocks n s
  refine ⟨⟨blocks, ⟨?_, fun k hk => ?_⟩, hrest⟩, ?_, length_draw n s, fun m hm => ?_,
    getElem?_alphabet, ?_, ?_⟩
  · exact hlen.trans_eq (length_letters _)
  · exact Nat.le_of_not_lt fun hlt =>
      Nat.not_lt.2 (hk.trans_eq (length_letters _).symm) (hleast k hlt)
  · rintro rfl
    rw [draw, if_pos rfl]
  · rw [← length_letters] at hm
    rw [draw_eq_take hm, take_letters]
  · have hcard : alphabet.toFinset.card = 31 := by decide
    have hwords := ncard_words alphabet.toFinset n fun _ => True
    rw [filter_true_of_mem fun _ _ => trivial, card_words, hcard] at hwords
    simpa only [List.mem_toFinset, and_true] using hwords
  · rintro w rfl hw
    have hspelling := ncard_words {b : UInt8 | b < 248} w.length fun bs => bs.map letter = w
    rw [card_spelling hw] at hspelling
    refine ⟨by simpa only [mem_filter, mem_univ, true_and] using hspelling, fun m => ?_⟩
    have hbeginning := ncard_words univ m fun bs => w <+: letters bs
    have hlettered := ncard_words univ m fun bs => w.length ≤ (letters bs).length
    have hcard := card_beginning hw m
    rw [beginning, lettered, ← hbeginning, ← hlettered] at hcard
    simpa only [mem_univ, implies_true, true_and, List.prefix_iff_eq_take, take_letters,
      length_letters, eq_comm (a := w)] using hcard

theorem draw_fair_seeded :
    (draw 0 (Supply.seeded #[250, 0, 255, 30] 7)).2 = Supply.seeded #[250, 0, 255, 30] 7 ∧
    (draw 2 (Supply.seeded #[250, 0, 255, 30] 7)).1 = ['2', 'z'] ∧
    {bs : Bytes | bs.length = 2 ∧ (∀ b ∈ bs, b < 248) ∧ bs.map letter = ['2', 'z']}.ncard = 64 :=
  let s := Supply.seeded #[250, 0, 255, 30] 7
  have hletters : ∀ c ∈ ['2', 'z'], c ∈ alphabet :=
    List.forall_mem_cons.2 ⟨by decide, List.forall_mem_singleton.2 (by decide)⟩
  ⟨(draw_fair 0 s).2.1 rfl, (draw_fair 2 s).2.2.2.1 4 (by decide),
    ((draw_fair 2 s).2.2.2.2.2.2 ['2', 'z'] rfl hletters).1⟩

end

end Token.Suffix

end Strongbox
