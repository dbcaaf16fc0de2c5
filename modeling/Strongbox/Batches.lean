/-!
# Batches

A list cut into batches of one size, the last of which may be shorter.

* `flatten_batches`: the batches hold the items of the list in order.
* `length_le_of_mem_batches`: no batch is longer than its size, and none is empty.
-/

namespace Strongbox

/-- The batches of a list; a size of zero counts as one. -/
def batches {α : Type} (size : Nat) (xs : List α) : List (List α) :=
  if xs = [] then []
  else xs.take (max size 1) :: batches size (xs.drop (max size 1))
termination_by xs.length
decreasing_by
  have := List.length_pos_iff.2 ‹xs ≠ []›
  simp only [List.length_drop]; omega

variable {α : Type} {size : Nat}

@[simp] theorem flatten_batches (xs : List α) : (batches size xs).flatten = xs := by
  fun_induction batches size xs with
  | case1 => simp_all
  | case2 xs h ih => simp [ih]

theorem length_le_of_mem_batches {xs b : List α} (h : b ∈ batches size xs) :
    0 < b.length ∧ b.length ≤ max size 1 := by
  fun_induction batches size xs with
  | case1 => simp at h
  | case2 xs hx ih =>
    rcases List.mem_cons.1 h with rfl | h
    · have := List.length_pos_iff.2 hx
      simp only [List.length_take]; omega
    · exact ih h

end Strongbox
