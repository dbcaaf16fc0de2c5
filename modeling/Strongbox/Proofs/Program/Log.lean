import Strongbox.Proofs.Program.Ends

/-!
# Programs — the log of a run

What a run asked can be told afterwards if its surroundings keep a log: every question goes into it
with the reply and the state that the reply left, the latest first.  A log changes nothing else, so
what is proved of the runs with a log is proved of all runs.

* `logged`: surroundings that keep a log.
* `Program.Ends.forget`, `Program.Ends.exists_log`: runs with a log and runs without one.
* `Program.Asks`: the questions that a program may put, whatever the replies.
* `Program.Ends.asked`: a run puts no other questions.
-/

namespace Strongbox

/-! ### Logs -/

/-- A question, its reply, and the state after it. -/
structure Exchange (σ : Type) where
  request : Request
  reply : request.Reply
  after : σ

/-- A state, and the exchanges that led to it, the latest first. -/
structure Logged (σ : Type) where
  state : σ
  log : List (Exchange σ) := []

variable {α β σ : Type} {S : Surroundings σ}

/-- The same surroundings, which keep a log. -/
def logged (S : Surroundings σ) : Surroundings (Logged σ) :=
  fun r s x s' => S r s.state x s'.state ∧ s'.log = ⟨r, x, s'.state⟩ :: s.log

namespace Program

/-- A run with a log is a run. -/
theorem Ends.forget {p : Program α} {s s' : Logged σ} {a : α} (h : p.Ends (logged S) s a s') :
    p.Ends S s.state a s'.state := by
  induction p generalizing s with
  | done b => exact ⟨h.1, congrArg Logged.state h.2⟩
  | ask r next ih =>
      obtain ⟨x, t, ⟨hx, -⟩, h⟩ := h
      exact ⟨x, t.state, hx, ih x h⟩

/-- Every run has a log. -/
theorem Ends.exists_log {p : Program α} {s s' : σ} {a : α} (h : p.Ends S s a s')
    (log : List (Exchange σ)) : ∃ log', p.Ends (logged S) ⟨s, log⟩ a ⟨s', log'⟩ := by
  induction p generalizing s log with
  | done b =>
      obtain ⟨rfl, rfl⟩ := h
      exact ⟨log, rfl, rfl⟩
  | ask r next ih =>
      obtain ⟨x, t, hx, h⟩ := h
      obtain ⟨log', h'⟩ := ih x h (⟨r, x, t⟩ :: log)
      exact ⟨log', x, ⟨t, _⟩, ⟨hx, rfl⟩, h'⟩

/-- A run adds to its log, and takes nothing out of it. -/
theorem Ends.grows {p : Program α} {s s' : Logged σ} {a : α} (h : p.Ends (logged S) s a s') :
    ∃ new, s'.log = new ++ s.log := by
  induction p generalizing s with
  | done b =>
      obtain ⟨-, rfl⟩ := h
      exact ⟨[], rfl⟩
  | ask r next ih =>
      obtain ⟨x, t, ⟨-, hlog⟩, h⟩ := h
      obtain ⟨new, hnew⟩ := ih x h
      exact ⟨new ++ [⟨r, x, t.state⟩], by rw [hnew, hlog, List.append_assoc]; rfl⟩

/-! ### The questions of a program -/

/-- Whatever the replies, every question that the program puts is one of `P`. -/
def Asks (P : Request → Prop) : Program α → Prop
  | done _ => True
  | ask r next => P r ∧ ∀ x, (next x).Asks P

variable {P : Request → Prop}

theorem asks_reply {r : Request} (h : P r) : (reply r).Asks P :=
  ⟨h, fun _ => trivial⟩

theorem Asks.bind {p : Program α} {f : α → Program β} (hp : p.Asks P) (hf : ∀ a, (f a).Asks P) :
    (p.bind f).Asks P := by
  induction p with
  | done a => exact hf a
  | ask r next ih => exact ⟨hp.1, fun x => ih x (hp.2 x)⟩

/-- **A run puts no other questions**, and so no others come into its log. -/
theorem Ends.asked {p : Program α} (hp : p.Asks P) {s s' : Logged σ} {a : α}
    (h : p.Ends (logged S) s a s') :
    ∃ new, s'.log = new ++ s.log ∧ ∀ x ∈ new, P x.request := by
  induction p generalizing s with
  | done b =>
      obtain ⟨rfl, rfl⟩ := h
      exact ⟨[], rfl, fun _ hx => absurd hx List.not_mem_nil⟩
  | ask r next ih =>
      obtain ⟨x, t, ⟨-, hlog⟩, h⟩ := h
      obtain ⟨new, hnew, hall⟩ := ih x (hp.2 x) h
      refine ⟨new ++ [⟨r, x, t.state⟩], by rw [hnew, hlog, List.append_assoc]; rfl, ?_⟩
      intro y hy
      rcases List.mem_append.1 hy with hy | hy
      · exact hall y hy
      · obtain rfl := List.mem_singleton.1 hy
        exact hp.1

end Program

namespace Job

variable {P : Request → Prop}

/-- Whatever the replies, every question that the job puts is one of `P`. -/
def Asks (P : Request → Prop) (j : Job α) : Prop :=
  Program.Asks P j.run

theorem asks_reply {r : Request} (h : P r) : Asks P (reply r) :=
  ⟨h, fun _ => trivial⟩

theorem asks_call {c : Store.Call} (h : P (.store c)) : Asks P (call c) :=
  ⟨h, fun _ => trivial⟩

theorem asks_checkpoint {n : Nat} (h : P .cancellation) : Asks P (checkpoint n) :=
  ⟨h, fun _ => trivial⟩

theorem Asks.bind {j : Job α} {f : α → Job β} (hj : Asks P j) (hf : ∀ a, Asks P (f a)) :
    Asks P (j >>= f) := by
  refine Program.Asks.bind hj fun r => ?_
  cases r with
  | ok a => exact hf a
  | error e => exact trivial

end Job

end Strongbox
