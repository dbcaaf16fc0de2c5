import Strongbox.Bytes

/-!
# Random bytes

A supply is an endless sequence of bytes and a place in it.  In every supply bytes below 248 keep
coming, so whoever waits for one gets it.  A seeded supply hands out given bytes first and then the
high bytes of a linear congruential sequence.

* `seeded_recurs`: the bytes of a seeded supply that are below 248 keep coming.  After 2⁶³ steps
  the sequence has added 2⁶³ to its value, so a byte of 248 or more comes back 128 smaller.
-/

namespace Strongbox

/-- An endless sequence of bytes, read up to a place. -/
structure Supply where
  byte : Nat → UInt8
  place : Nat
  /-- Bytes below 248 keep coming. -/
  recurs : ∀ i, ∃ j, i ≤ j ∧ byte j < 248

namespace Supply

/-- The next `n` bytes. -/
def peek (s : Supply) (n : Nat) : Bytes :=
  (List.range' s.place n).map s.byte

/-- The supply after the next `n` bytes. -/
def skip (s : Supply) (n : Nat) : Supply :=
  { s with place := s.place + n }

@[simp] theorem length_peek (s : Supply) (n : Nat) : (s.peek n).length = n := by
  simp [peek]

/-! ### The next small byte -/

theorem exists_least {p : Nat → Prop} (h : ∃ n, p n) : ∃ n, p n ∧ ∀ m, m < n → ¬ p m := by
  obtain ⟨n, hn⟩ := h
  induction n using Nat.strongRecOn with
  | ind n ih =>
    by_cases hm : ∃ m, m < n ∧ p m
    · obtain ⟨m, hlt, hp⟩ := hm
      exact ih m hlt hp
    · exact ⟨n, hn, fun m hlt hp => hm ⟨m, hlt, hp⟩⟩

theorem exists_small (s : Supply) : ∃ n, s.byte (s.place + n) < 248 := by
  obtain ⟨j, hj, hb⟩ := s.recurs s.place
  exact ⟨j - s.place, by rwa [Nat.add_sub_cancel' hj]⟩

/-- The number of bytes before the next one below 248. -/
noncomputable def gap (s : Supply) : Nat :=
  (exists_least s.exists_small).choose

theorem small_at_gap (s : Supply) : s.byte (s.place + s.gap) < 248 :=
  (exists_least s.exists_small).choose_spec.1

theorem gap_le {s : Supply} {n : Nat} (h : s.byte (s.place + n) < 248) : s.gap ≤ n :=
  Nat.le_of_not_lt fun hlt => (exists_least s.exists_small).choose_spec.2 n hlt h

/-- Bytes among which none is small bring the next small byte nearer. -/
theorem gap_skip_lt {s : Supply} {n : Nat} (hn : 0 < n)
    (h : ∀ b ∈ s.peek n, ¬ b < 248) : (s.skip n).gap < s.gap := by
  have hle : n ≤ s.gap := Nat.le_of_not_lt fun hlt =>
    h _ (List.mem_map.2 ⟨s.place + s.gap, by simp [List.mem_range']; omega, rfl⟩)
      s.small_at_gap
  have : (s.skip n).gap ≤ s.gap - n := gap_le (by
    have := s.small_at_gap
    rwa [show s.place + s.gap = (s.skip n).place + (s.gap - n) by simp [skip]; omega] at this)
  omega

end Supply

/-! ### The congruential sequence -/

/-- The map that multiplies by a word and adds another. -/
structure Affine where
  factor : UInt64
  term : UInt64
  deriving DecidableEq

namespace Affine

/-- The value of the map. -/
def apply (f : Affine) (x : UInt64) : UInt64 :=
  f.factor * x + f.term

/-- The map taken after another. -/
def after (f g : Affine) : Affine :=
  ⟨f.factor * g.factor, f.factor * g.term + f.term⟩

theorem apply_after (f g : Affine) (x : UInt64) : (f.after g).apply x = f.apply (g.apply x) := by
  simp only [apply, after, UInt64.mul_add, UInt64.mul_assoc, UInt64.add_assoc]

/-- The map taken `n` times. -/
def pow (f : Affine) (n : Nat) : Affine :=
  if h : n = 0 then ⟨1, 0⟩
  else
    let half := pow (f.after f) (n / 2)
    if n % 2 = 0 then half else half.after f

/-- The value of a map taken `n` times, one at a time. -/
def repeatApply (f : Affine) : (n : Nat) → UInt64 → UInt64
  | 0, x => x
  | n + 1, x => repeatApply f n (f.apply x)

theorem repeatApply_add (f : Affine) (m n : Nat) (x : UInt64) :
    f.repeatApply (m + n) x = f.repeatApply n (f.repeatApply m x) := by
  induction m generalizing x with
  | zero => simp [repeatApply]
  | succ m ih => rw [Nat.succ_add]; exact ih _

theorem repeatApply_twice (f : Affine) (n : Nat) (x : UInt64) :
    (f.after f).repeatApply n x = f.repeatApply (2 * n) x := by
  induction n generalizing x with
  | zero => rfl
  | succ n ih => simp only [repeatApply, Nat.mul_succ, ih, apply_after]

theorem apply_pow (f : Affine) (n : Nat) (x : UInt64) :
    (f.pow n).apply x = f.repeatApply n x := by
  induction n using Nat.strongRecOn generalizing f x with
  | ind n ih =>
    unfold pow
    split
    · rename_i h; subst h; simp [apply, repeatApply]
    · rename_i h
      simp only
      split
      · rw [ih _ (by omega), repeatApply_twice, show 2 * (n / 2) = n by omega]
      · rw [apply_after, ih _ (by omega), repeatApply_twice]
        have e : n = 2 * (n / 2) + 1 := by omega
        exact (congrArg (fun k => f.repeatApply k x) e).symm

/-- The map taken twice, that again twice, and so on `k` times. -/
def squared (f : Affine) : (k : Nat) → Affine
  | 0 => f
  | k + 1 => (f.after f).squared k

theorem apply_squared (f : Affine) (k : Nat) (x : UInt64) :
    (f.squared k).apply x = f.repeatApply (1 <<< k) x := by
  induction k generalizing f with
  | zero => rfl
  | succ k ih => rw [squared, ih, repeatApply_twice, Nat.shiftLeft_succ]

end Affine

namespace Supply

/-- One step of the congruential sequence. -/
def step : Affine := ⟨6364136223846793005, 1442695040888963407⟩

/-- The byte numbered `i` of the congruential sequence from a seed. -/
def congruential (seed : UInt64) (i : Nat) : UInt8 :=
  (((step.pow (i + 1)).apply seed) >>> 56).toUInt8

theorem step_squared : step.squared 63 = ⟨1, 9223372036854775808⟩ := by decide +kernel

/-- After 2⁶³ steps the sequence has added 2⁶³ to its value. -/
theorem apply_step_pow_add (n : Nat) (x : UInt64) :
    (step.pow (n + (1 <<< 63))).apply x = (step.pow n).apply x + 9223372036854775808 := by
  rw [Affine.apply_pow, Affine.repeatApply_add, ← Affine.apply_squared, step_squared,
    ← Affine.apply_pow]
  simp [Affine.apply]

theorem congruential_recurs (seed : UInt64) (i : Nat) :
    congruential seed i < 248 ∨ congruential seed (i + (1 <<< 63)) < 248 := by
  have e := apply_step_pow_add (i + 1) seed
  rw [Nat.add_right_comm] at e
  simp only [congruential, e]
  generalize (step.pow (i + 1)).apply seed = x
  simp only [UInt8.lt_iff_toNat_lt, UInt64.toNat_toUInt8, UInt64.toNat_shiftRight,
    UInt64.toNat_add]
  have h56 : (56 : UInt64).toNat % 64 = 56 := by decide
  have hj : (9223372036854775808 : UInt64).toNat = 2 ^ 63 := by decide
  have h248 : (248 : UInt8).toNat = 248 := by decide
  rw [h56, hj, h248]
  have := x.toNat_lt
  simp only [Nat.shiftRight_eq_div_pow]
  omega

/-- The byte numbered `i` of given bytes and the congruential sequence after them. -/
def seededByte (lead : Array UInt8) (seed : UInt64) (i : Nat) : UInt8 :=
  if h : i < lead.size then lead[i] else congruential seed (i - lead.size)

theorem seeded_recurs (lead : Array UInt8) (seed : UInt64) (i : Nat) :
    ∃ j, i ≤ j ∧ seededByte lead seed j < 248 := by
  have key : ∀ k, seededByte lead seed (lead.size + k) = congruential seed k := fun k => by
    rw [seededByte, dif_neg (by omega), Nat.add_sub_cancel_left]
  rcases congruential_recurs seed i with h | h
  · exact ⟨lead.size + i, by omega, by rw [key]; exact h⟩
  · exact ⟨lead.size + (i + (1 <<< 63)), by omega, by rw [key]; exact h⟩

/-- Given bytes, and then the congruential sequence from a seed. -/
def seeded (lead : Array UInt8) (seed : UInt64) : Supply :=
  ⟨seededByte lead seed, 0, seeded_recurs lead seed⟩

end Supply

end Strongbox
