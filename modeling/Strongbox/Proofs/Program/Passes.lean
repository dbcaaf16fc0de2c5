import Strongbox.Proofs.Program.Ends

/-!
# Programs — moments of a run

A run may be cut off at any moment: before a question, between two of them, or after the last.  The
state at that moment is one that the run passes through.

* `Program.passes_bind`, `Job.passes_bind`: a moment of one program after another is one of the
  first, or one of the second after the first has ended.
* `Program.Ends.passes`: the end of a run is one of its moments.
-/

namespace Strongbox

namespace Program

variable {α β σ : Type} {S : Surroundings σ} {s t : σ}

/-- A run of the program from `s` may pass through `t`. -/
def Passes (S : Surroundings σ) : Program α → σ → σ → Prop
  | done _, s, t => t = s
  | ask r next, s, t => t = s ∨ ∃ x u, S r s x u ∧ (next x).Passes S u t

@[simp] theorem passes_reply {r : Request} :
    (reply r).Passes S s t ↔ t = s ∨ ∃ x, S r s x t :=
  or_congr_right (exists_congr fun _ => ⟨fun ⟨_, h, e⟩ => e ▸ h, fun h => ⟨t, h, rfl⟩⟩)

/-- A run begins where it begins. -/
theorem passes_start (p : Program α) (s : σ) : p.Passes S s s := by
  cases p with
  | done a => rfl
  | ask r next => exact .inl rfl

/-- The end of a run is one of its moments. -/
theorem Ends.passes {p : Program α} {a : α} (h : p.Ends S s a t) : p.Passes S s t := by
  induction p generalizing s with
  | done b => exact h.2
  | ask r next ih =>
      obtain ⟨x, u, hx, h⟩ := h
      exact .inr ⟨x, u, hx, ih x h⟩

/-- The moments of one program after another. -/
theorem passes_bind {p : Program α} {f : α → Program β} :
    (p.bind f).Passes S s t ↔ p.Passes S s t ∨ ∃ a u, p.Ends S s a u ∧ (f a).Passes S u t := by
  induction p generalizing s with
  | done a =>
      constructor
      · exact fun h => .inr ⟨a, s, ⟨rfl, rfl⟩, h⟩
      · rintro (rfl | ⟨_, _, ⟨rfl, rfl⟩, h⟩)
        · exact passes_start _ _
        · exact h
  | ask r next ih =>
      constructor
      · rintro (rfl | ⟨x, u, hx, h⟩)
        · exact .inl (.inl rfl)
        · rcases (ih x).1 h with h | ⟨a, w, ha, h⟩
          · exact .inl (.inr ⟨x, u, hx, h⟩)
          · exact .inr ⟨a, w, ⟨x, u, hx, ha⟩, h⟩
      · rintro ((rfl | ⟨x, u, hx, h⟩) | ⟨a, w, ⟨x, u, hx, ha⟩, h⟩)
        · exact .inl rfl
        · exact .inr ⟨x, u, hx, (ih x).2 (.inl h)⟩
        · exact .inr ⟨x, u, hx, (ih x).2 (.inr ⟨a, w, ha, h⟩)⟩

end Program

namespace Job

variable {α β σ : Type} {S : Surroundings σ} {s t : σ}

/-- A run of the job from `s` may pass through `t`. -/
def Passes (S : Surroundings σ) (j : Job α) (s t : σ) : Prop :=
  Program.Passes S j.run s t

theorem Ends.passes {j : Job α} {r : Except VaultError α} (h : j.Ends S s r t) :
    j.Passes S s t :=
  Program.Ends.passes h

@[simp] theorem passes_lift {p : Program α} :
    Passes S (ExceptT.lift p) s t ↔ p.Passes S s t := by
  have key : Passes S (ExceptT.lift p) s t ↔
      p.Passes S s t ∨ ∃ a u, p.Ends S s a u ∧ t = u := Program.passes_bind
  rw [key]
  exact ⟨fun h => h.elim id fun ⟨_, _, ha, e⟩ => e ▸ ha.passes, .inl⟩

@[simp] theorem passes_reply {q : Request} :
    Passes S (reply q) s t ↔ t = s ∨ ∃ x, S q s x t := by
  rw [reply, passes_lift, Program.passes_reply]

/-- The moments of one job after another. -/
theorem passes_bind {j : Job α} {f : α → Job β} :
    Passes S (j >>= f) s t ↔
      j.Passes S s t ∨ ∃ a u, j.Ends S s (.ok a) u ∧ (f a).Passes S u t := by
  have key : Passes S (j >>= f) s t ↔
      j.Passes S s t ∨ ∃ x u, j.Ends S s x u ∧ Program.Passes S (ExceptT.bindCont f x) u t :=
    Program.passes_bind
  rw [key]
  constructor
  · rintro (h | ⟨x, u, hx, h⟩)
    · exact .inl h
    · cases x with
      | ok a => exact .inr ⟨a, u, hx, h⟩
      | error e => exact .inl (h ▸ hx.passes)
  · rintro (h | ⟨a, u, ha, h⟩)
    · exact .inl h
    · exact .inr ⟨_, u, ha, h⟩

/-- What is known at once takes no moment. -/
theorem passes_ofExcept_bind {x : Except VaultError α} {f : α → Job β}
    (h : Passes S (ofExcept x >>= f) s t) : t = s ∨ ∃ a, (f a).Passes S s t := by
  rcases passes_bind.1 h with h | ⟨a, u, ha, hf⟩
  · exact .inl h
  · obtain ⟨-, rfl⟩ := ends_ofExcept.1 ha
    exact .inr ⟨a, hf⟩

@[simp] theorem passes_call {c : Store.Call} :
    Passes S (call c) s t ↔ t = s ∨ ∃ x, S (.store c) s x t := by
  rw [call, passes_bind, passes_reply]
  constructor
  · rintro (h | ⟨x, u, hx, h⟩)
    · exact h
    · obtain ⟨y, hy, -⟩ := ends_reply.1 hx
      exact .inr ⟨y, h ▸ hy⟩
  · exact .inl

end Job

end Strongbox
