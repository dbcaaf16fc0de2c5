import Strongbox.Program

/-!
# Programs — runs

Surroundings are a relation: in a state, a question may get a reply, which leaves a state.  They
may answer one question in many ways, and what others do meanwhile is part of the answer.  A
program then has many runs, and `Ends` holds of the results and the states in which they end.

* `Program.ends_bind`, `Job.ends_bind`: a run of one program after another is a run of the first
  and then one of the second.
* `Job.ends_checkpoint_cases`: a look for a cancellation ends a job or lets it go on.
* `Program.Ends.keeps`: what every answer keeps, every run keeps.
* `Program.exists_ends`: where every question has an answer, every program has a run.
* `Program.ends_run`: the run with a function that answers is one of the runs.
-/

namespace Strongbox

/-- In a state, a question may get a reply, which leaves a state. -/
abbrev Surroundings (σ : Type) : Type :=
  (r : Request) → σ → r.Reply → σ → Prop

/-- `raised` tells when the caller has cancelled, which is never taken back. -/
structure Watched {σ : Type} (S : Surroundings σ) (raised : σ → Prop) : Prop where
  keeps : ∀ r s x s', S r s x s' → raised s → raised s'
  tells : ∀ s c s', S .cancellation s c s' → (c.raised = true ↔ raised s')

namespace Cancellation

variable {c : Cancellation} {n : Nat}

theorem check_of_raised (h : c.raised = true) (n : Nat) :
    c.check n = .error (.cancelled n (c.reason.getD callerReason)) :=
  if_pos h

theorem check_of_not_raised (h : c.raised = false) (n : Nat) : c.check n = .ok () :=
  if_neg (by rw [h]; exact Bool.false_ne_true)

theorem raised_of_check {error : VaultError} (h : c.check n = .error error) : c.raised = true := by
  cases hraised : c.raised with
  | false =>
      rw [check_of_not_raised hraised] at h
      cases h
  | true => rfl

end Cancellation

namespace Program

variable {α β σ : Type} {S : Surroundings σ} {s s' : σ}

/-- A run of the program from `s` may end with the result `a` in `s'`. -/
def Ends (S : Surroundings σ) : Program α → σ → α → σ → Prop
  | done a, s, b, s' => b = a ∧ s' = s
  | ask r next, s, b, s' => ∃ x t, S r s x t ∧ (next x).Ends S t b s'

@[simp] theorem ends_done {a b : α} : (done a).Ends S s b s' ↔ b = a ∧ s' = s := Iff.rfl

@[simp] theorem ends_reply {r : Request} {x : r.Reply} :
    (reply r).Ends S s x s' ↔ S r s x s' :=
  ⟨fun ⟨_, _, h, e, e'⟩ => e ▸ e' ▸ h, fun h => ⟨x, s', h, rfl, rfl⟩⟩

/-- A run of one program after another. -/
@[simp] theorem ends_bind {p : Program α} {f : α → Program β} {b : β} :
    (p.bind f).Ends S s b s' ↔ ∃ a t, p.Ends S s a t ∧ (f a).Ends S t b s' := by
  induction p generalizing s with
  | done a => exact ⟨fun h => ⟨a, s, ⟨rfl, rfl⟩, h⟩, fun ⟨_, _, ⟨e, e'⟩, h⟩ => e ▸ e' ▸ h⟩
  | ask r next ih =>
      constructor
      · rintro ⟨x, u, hx, h⟩
        obtain ⟨a, t, ha, hb⟩ := (ih x).1 h
        exact ⟨a, t, ⟨x, u, hx, ha⟩, hb⟩
      · rintro ⟨a, t, ⟨x, u, hx, ha⟩, hb⟩
        exact ⟨x, u, hx, (ih x).2 ⟨a, t, ha, hb⟩⟩

/-- A run that begins with a question. -/
theorem ends_reply_bind {r : Request} {f : r.Reply → Program β} {b : β} :
    ((reply r).bind f).Ends S s b s' ↔ ∃ x t, S r s x t ∧ (f x).Ends S t b s' := Iff.rfl

/-- What every answer keeps, every run keeps. -/
theorem Ends.keeps {I : σ → Prop} (hI : ∀ r s x s', S r s x s' → I s → I s') {p : Program α}
    {a : α} (h : p.Ends S s a s') (hs : I s) : I s' := by
  induction p generalizing s with
  | done b => exact h.2 ▸ hs
  | ask r next ih =>
      obtain ⟨x, t, hx, h⟩ := h
      exact ih x h (hI _ _ _ _ hx hs)

/-- Where every question has an answer, every program has a run. -/
theorem exists_ends (hS : ∀ r s, ∃ x s', S r s x s') (p : Program α) (s : σ) :
    ∃ a s', p.Ends S s a s' := by
  induction p generalizing s with
  | done a => exact ⟨a, s, rfl, rfl⟩
  | ask r next ih =>
      obtain ⟨x, t, hx⟩ := hS r s
      obtain ⟨a, s', h⟩ := ih x t
      exact ⟨a, s', x, t, hx, h⟩

/-- The run with a function that answers as the surroundings may is one of their runs. -/
theorem ends_run {answer : (r : Request) → σ → r.Reply × σ}
    (hS : ∀ r s, S r s (answer r s).1 (answer r s).2) (p : Program α) (s : σ) :
    p.Ends S s (p.run answer s).1 (p.run answer s).2 := by
  induction p generalizing s with
  | done a => exact ⟨rfl, rfl⟩
  | ask r next ih => exact ⟨_, _, hS r s, ih _ _⟩

end Program

namespace Job

variable {α β σ : Type} {S : Surroundings σ} {s s' : σ}

/-- A run of the job from `s` may end with the result or error `r` in `s'`. -/
def Ends (S : Surroundings σ) (j : Job α) (s : σ) (r : Except VaultError α) (s' : σ) : Prop :=
  Program.Ends S j.run s r s'

theorem ends_def {j : Job α} {r : Except VaultError α} :
    Program.Ends S j.run s r s' ↔ j.Ends S s r s' := Iff.rfl

@[simp] theorem ends_pure {a : α} {r : Except VaultError α} :
    Ends S (pure a) s r s' ↔ r = .ok a ∧ s' = s := Iff.rfl

@[simp] theorem ends_throw {e : VaultError} {r : Except VaultError α} :
    Ends S (throw e : Job α) s r s' ↔ r = .error e ∧ s' = s := Iff.rfl

@[simp] theorem ends_ofExcept {x r : Except VaultError α} :
    Ends S (ofExcept x) s r s' ↔ r = x ∧ s' = s := Iff.rfl

/-- A run of one job after another: both go through, or the first one fails. -/
theorem ends_bind {j : Job α} {f : α → Job β} {r : Except VaultError β} :
    Ends S (j >>= f) s r s' ↔
      (∃ a t, j.Ends S s (.ok a) t ∧ (f a).Ends S t r s') ∨
        ∃ e, j.Ends S s (.error e) s' ∧ r = .error e := by
  have key : Ends S (j >>= f) s r s' ↔
      ∃ x t, j.Ends S s x t ∧ Program.Ends S (ExceptT.bindCont f x) t r s' := by
    exact Program.ends_bind
  rw [key]
  constructor
  · rintro ⟨x, t, hx, h⟩
    cases x with
    | ok a => exact .inl ⟨a, t, hx, h⟩
    | error e => exact .inr ⟨e, h.2 ▸ hx, h.1⟩
  · rintro (⟨a, t, hx, h⟩ | ⟨e, hx, rfl⟩)
    · exact ⟨_, t, hx, h⟩
    · exact ⟨_, s', hx, rfl, rfl⟩

@[simp] theorem ends_lift {p : Program α} {r : Except VaultError α} :
    Ends S (ExceptT.lift p) s r s' ↔ ∃ a, p.Ends S s a s' ∧ r = .ok a := by
  have key : Ends S (ExceptT.lift p) s r s' ↔
      ∃ a t, p.Ends S s a t ∧ (Program.done (Except.ok a)).Ends S t r s' := Program.ends_bind
  rw [key]
  constructor
  · rintro ⟨a, t, h, rfl, rfl⟩
    exact ⟨a, h, rfl⟩
  · rintro ⟨a, h, rfl⟩
    exact ⟨a, s', h, rfl, rfl⟩

@[simp] theorem ends_reply {q : Request} {r : Except VaultError q.Reply} :
    Ends S (reply q) s r s' ↔ ∃ x, S q s x s' ∧ r = .ok x := by
  simp only [reply, ends_lift, Program.ends_reply]

/-- Errors told in another way do not become answers. -/
theorem eq_ok_of_mapError {ε : Type} {f : ε → VaultError} {x : Except ε α} {a : α}
    (h : x.mapError f = .ok a) : x = .ok a := by
  cases x with
  | ok b => exact congrArg Except.ok (Except.ok.inj h)
  | error e => cases h

@[simp] theorem ends_call {c : Store.Call} {r : Except VaultError c.Answer} :
    Ends S (call c) s r s' ↔
      ∃ x : c.Reply, S (.store c) s x s' ∧ r = x.mapError .store := by
  have key : Ends S (call c) s r s' ↔
      ∃ (x : c.Reply) (t : σ), S (.store c) s x t ∧ r = x.mapError .store ∧ s' = t := Iff.rfl
  rw [key]
  exact ⟨fun ⟨x, _, h, e, e'⟩ => ⟨x, e' ▸ h, e⟩, fun ⟨x, h, e⟩ => ⟨x, s', h, e, rfl⟩⟩

/-! ### First steps -/

variable {f : α → Job β} {r : Except VaultError β}

theorem ends_ofExcept_bind {x : Except VaultError α} :
    Ends S (ofExcept x >>= f) s r s' ↔
      match x with
      | .ok a => (f a).Ends S s r s'
      | .error e => r = .error e ∧ s' = s := by
  cases x <;> exact Iff.rfl

theorem ends_reply_bind {q : Request} {f : q.Reply → Job β} :
    Ends S (reply q >>= f) s r s' ↔ ∃ x t, S q s x t ∧ (f x).Ends S t r s' := Iff.rfl

theorem ends_lift_bind {p : Program α} :
    Ends S (ExceptT.lift p >>= f) s r s' ↔ ∃ a t, p.Ends S s a t ∧ (f a).Ends S t r s' := by
  rw [ends_bind]
  simp [ends_lift]

theorem ends_call_bind {c : Store.Call} {f : c.Answer → Job β} :
    Ends S (call c >>= f) s r s' ↔
      ∃ (x : c.Reply) (t : σ), S (.store c) s x t ∧
        match x with
        | .ok a => (f a).Ends S t r s'
        | .error e => r = .error (.store e) ∧ s' = t := by
  have key : Ends S (call c >>= f) s r s' ↔
      ∃ (x : c.Reply) (t : σ), S (.store c) s x t ∧
        Ends S (ofExcept (x.mapError .store) >>= f) t r s' := Iff.rfl
  rw [key]
  refine exists_congr fun x => exists_congr fun t => and_congr_right fun _ => ?_
  cases x <;> exact Iff.rfl

theorem ends_checkpoint_bind {n : Nat} {f : Unit → Job β} :
    Ends S (checkpoint n >>= f) s r s' ↔
      ∃ c t, S .cancellation s c t ∧
        match c.check n with
        | .ok () => (f ()).Ends S t r s'
        | .error e => r = .error e ∧ s' = t := by
  have key : Ends S (checkpoint n >>= f) s r s' ↔
      ∃ (c : Cancellation) (t : σ), S .cancellation s c t ∧
        Ends S (ofExcept (c.check n) >>= f) t r s' := Iff.rfl
  rw [key]
  refine exists_congr fun c => exists_congr fun t => and_congr_right fun _ => ?_
  cases c.check n <;> exact Iff.rfl

/-- A look for a cancellation ends the work if the flag is up, and else lets it go on. -/
theorem ends_checkpoint_cases {n : Nat} {f : Unit → Job β}
    (h : Ends S (checkpoint n >>= f) s r s') :
    ∃ c t, S .cancellation s c t ∧
      (c.raised = true ∧ r = .error (.cancelled n (c.reason.getD Cancellation.callerReason)) ∧
        s' = t ∨ c.raised = false ∧ (f ()).Ends S t r s') := by
  obtain ⟨c, t, hlook, hwork⟩ := ends_checkpoint_bind.1 h
  refine ⟨c, t, hlook, ?_⟩
  cases hraised : c.raised with
  | true =>
      rw [Cancellation.check_of_raised hraised] at hwork
      exact .inl ⟨rfl, hwork⟩
  | false =>
      rw [Cancellation.check_of_not_raised hraised] at hwork
      exact .inr ⟨rfl, hwork⟩

end Job

end Strongbox
