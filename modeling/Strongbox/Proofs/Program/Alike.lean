import Strongbox.Proofs.Program.Ends

/-!
# Programs — two runs side by side

Two runs of one program are alike if every question gets one reply in both.  The states from which
the questions are answered may differ, as long as they stay related.

* `Program.Alike`: from related states, both runs come to one result and end in related states.
* `Program.Alike.bind`, `Job.Alike.bind`: one program after another.
* `Job.alike_reply`, `Job.alike_call`: a question that gets one reply in both runs.
-/

namespace Strongbox

namespace Program

variable {α β σ : Type} {answer : (r : Request) → σ → r.Reply × σ} {R : σ → σ → Prop}
  {P : α → Prop} {Q : β → Prop}

/-- From related states, both runs of the program come to one result and end in related states, and
`P` holds of the result. -/
def Alike (answer : (r : Request) → σ → r.Reply × σ) (R : σ → σ → Prop) (p : Program α)
    (P : α → Prop) : Prop :=
  ∀ ⦃s s'⦄, R s s' →
    (p.run answer s).1 = (p.run answer s').1 ∧ P (p.run answer s).1 ∧
      R (p.run answer s).2 (p.run answer s').2

theorem alike_done {a : α} (h : P a) : (done a).Alike answer R P :=
  fun _ _ hR => ⟨rfl, h, hR⟩

/-- **One program after another.** -/
theorem Alike.bind {p : Program α} {f : α → Program β} (hp : p.Alike answer R P)
    (hf : ∀ a, P a → (f a).Alike answer R Q) : (p.bind f).Alike answer R Q := by
  intro s s' hR
  obtain ⟨heq, hP, hR'⟩ := hp hR
  rw [run_bind, run_bind, ← heq]
  exact hf _ hP hR'

/-- A question that gets one reply in both runs. -/
theorem alike_reply {r : Request} {P : r.Reply → Prop}
    (h : ∀ s s', R s s' → (answer r s).1 = (answer r s').1 ∧ P (answer r s).1 ∧
      R (answer r s).2 (answer r s').2) : (reply r).Alike answer R P :=
  fun s s' hR => h s s' hR

end Program

namespace Job

variable {α β σ : Type} {answer : (r : Request) → σ → r.Reply × σ} {R : σ → σ → Prop}
  {P : α → Prop} {Q : β → Prop}

/-- From related states, both runs of the job come to one result or error and end in related
states, and `P` holds of the result. -/
def Alike (answer : (r : Request) → σ → r.Reply × σ) (R : σ → σ → Prop) (j : Job α)
    (P : α → Prop) : Prop :=
  Program.Alike answer R j.run fun r => ∀ a, r = .ok a → P a

theorem alike_ofExcept {x : Except VaultError α} (h : ∀ a, x = .ok a → P a) :
    Alike answer R (ofExcept x) P :=
  Program.alike_done h

theorem alike_pure {a : α} (h : P a) : Alike answer R (pure a : Job α) P :=
  alike_ofExcept fun _ e => Except.ok.inj e ▸ h

theorem alike_throw {e : VaultError} : Alike answer R (throw e : Job α) P :=
  alike_ofExcept fun _ => nofun

/-- **One job after another.** -/
theorem Alike.bind {j : Job α} {f : α → Job β} (hj : Alike answer R j P)
    (hf : ∀ a, P a → Alike answer R (f a) Q) : Alike answer R (j >>= f) Q := by
  refine Program.Alike.bind hj fun r hr => ?_
  cases r with
  | ok a => exact hf a (hr a rfl)
  | error e => exact Program.alike_done fun _ => nofun

theorem alike_lift {p : Program α} (hp : p.Alike answer R P) :
    Alike answer R (ExceptT.lift p) P :=
  Program.Alike.bind hp fun _ ha => Program.alike_done fun _ e => Except.ok.inj e ▸ ha

theorem alike_reply {r : Request} {P : r.Reply → Prop} (h : (Program.reply r).Alike answer R P) :
    Alike answer R (reply r) P :=
  alike_lift h

/-- A call to the store that gets one reply in both runs. -/
theorem alike_call {c : Store.Call} {P : c.Answer → Prop}
    (h : (Program.reply (.store c)).Alike answer R fun x => ∀ a, x = .ok a → P a) :
    Alike answer R (call c) P :=
  (alike_reply h).bind fun _ hx => alike_ofExcept fun a ha => hx a (eq_ok_of_mapError ha)

end Job

end Strongbox
