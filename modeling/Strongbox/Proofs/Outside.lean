import Strongbox.Proofs.Program.Ends
import Strongbox.World

/-!
# A store and the rest

The surroundings of a program in two parts: a store, which carries out every call that is made to
it, and everything else, which answers from a state of its own.  Two runs beside different stores
can so be given the same clock, the same random bytes and the same caller.

* `Outside.beside`: what a store and the rest answer.
* `Outside.ends_run`: a run beside a store is the one in which the answers are these.
-/

namespace Strongbox

/-- Everything around a program but the store: what it answers from a state of its own. -/
abbrev Outside (ε : Type) : Type :=
  (r : Request) → ε → r.Reply × ε

namespace Outside

variable {α β ε : Type}

/-- The store answers its calls and bounds what it lists; the rest answers everything else. -/
def beside (o : Outside ε) (r : Request) (s : Backing × ε) : r.Reply × Backing × ε :=
  match r with
  | .store c => ((s.1.answer c).1, (s.1.answer c).2, s.2)
  | .extent => (s.1.size, s)
  | r => ((o r s.2).1, s.1, (o r s.2).2)

/-- The same as a relation. -/
def answers (o : Outside ε) : Surroundings (Backing × ε) :=
  fun r s x s' => o.beside r s = (x, s')

/-- A run beside a store is a run in these surroundings. -/
theorem ends_run (o : Outside ε) (p : Program α) (s : Backing × ε) :
    p.Ends o.answers s (p.run o.beside s).1 (p.run o.beside s).2 :=
  Program.ends_run (fun _ _ => rfl) p s

variable {o : Outside ε} {s s' : Backing × ε}

/-- A call to the store, carried out. -/
theorem answers_store {c : Store.Call} {x : c.Reply} (h : o.answers (.store c) s x s') :
    x = (s.1.answer c).1 ∧ s' = ((s.1.answer c).2, s.2) := by
  obtain ⟨rfl, rfl⟩ := Prod.mk.inj h
  exact ⟨rfl, rfl⟩

/-- A look for a cancellation leaves the store as it was. -/
theorem checkpoint_bind {n : Nat} {f : Unit → Job β} {r : Except VaultError β}
    (h : Job.Ends o.answers (Job.checkpoint n >>= f) s r s') :
    (∃ w, (f ()).Ends o.answers (s.1, w) r s') ∨ (∃ error, r = .error error) ∧ s'.1 = s.1 := by
  obtain ⟨c, t, hlook, hcases⟩ := Job.ends_checkpoint_cases h
  obtain ⟨rfl, rfl⟩ := Prod.mk.inj hlook
  rcases hcases with ⟨-, rfl, rfl⟩ | ⟨-, h₁⟩
  · exact .inr ⟨⟨_, rfl⟩, rfl⟩
  · exact .inl ⟨_, h₁⟩

end Outside

end Strongbox
