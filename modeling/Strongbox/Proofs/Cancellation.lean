import Mathlib.Data.List.Induction
import Mathlib.Logic.Function.Basic
import Strongbox.Proofs.Scene

/-!
# Cancellations shared by threads

A call on a cancellation takes one step or two, and between the two steps of a call other threads
may take theirs.  Cancelling sets the reason and then raises the flag; a check looks at the flag
and, if it is up, reads the reason.  Clones of a handle are handles of one cancellation.

* `Use.start`, `Pending.finish`: the steps of a call.
* `Use.run_cancelWith`, `Use.run_check`: with nothing in between they are the whole call.
* `Threads.run`: what becomes of any number of cancellations when threads take steps, in any order.
* `Does`: what one step of a call does.
* `Sound`, `Sound.step`: what every step leaves in order; a flag is only up once the reason is set.
* `Alone`, `Alone.step`: the steps on one cancellation, without those on others.
* `checks_agree`: what checks answer, however the steps come.
-/

namespace Strongbox.Cancellation

/-! ### Calls in steps -/

/-- A call on a cancellation. -/
inductive Use where
  | cancel
  | cancelWith (reason : String)
  | isCancelled
  | readReason
  | check (n : Nat)

/-- What a call answers. -/
inductive Answer where
  | done
  | raised (raised : Bool)
  | reason (reason : Option String)
  | checked (result : Except VaultError Unit)

/-- What is left of a call after its first step. -/
inductive Pending where
  /-- The flag is not raised yet. -/
  | raise
  /-- The flag was up, and the reason is not read yet. -/
  | tell (n : Nat)

/-- What a step of a call leads to. -/
inductive Outcome where
  | answered (answer : Answer)
  | pending (rest : Pending)

/-- What is left of the call. -/
def Outcome.rest? : Outcome → Option Pending
  | answered _ => none
  | pending rest => some rest

/-- The reason that a step of a call offers, told from where the step leads: a call that cancels
offers one in its first step. -/
def Use.offer? : Use → Outcome → Option String
  | cancel, .pending .raise => some callerReason
  | cancelWith reason, .pending .raise => some reason
  | _, _ => none

/-- The first step of a call. -/
def Use.start (c : Cancellation) : Use → Cancellation × Outcome
  | cancel => (c.setReason callerReason, .pending .raise)
  | cancelWith reason => (c.setReason reason, .pending .raise)
  | isCancelled => (c, .answered (.raised c.raised))
  | readReason => (c, .answered (.reason c.reason))
  | check n => (c, if c.raised then .pending (.tell n) else .answered (.checked (.ok ())))

/-- The second step of a call. -/
def Pending.finish (c : Cancellation) : Pending → Cancellation × Outcome
  | raise => (c.raise, .answered .done)
  | tell n => (c, .answered (.checked (.error (.cancelled n (c.reason.getD callerReason)))))

/-- A call with nothing between its steps. -/
def Use.run (c : Cancellation) (u : Use) : Cancellation × Outcome :=
  match u.start c with
  | (c', .pending rest) => rest.finish c'
  | (c', .answered answer) => (c', .answered answer)

theorem Use.run_cancelWith (c : Cancellation) (reason : String) :
    (cancelWith reason).run c = (c.cancelWith reason, .answered .done) := rfl

theorem Use.run_cancel (c : Cancellation) : cancel.run c = (c.cancel, .answered .done) := rfl

theorem Use.run_check (c : Cancellation) (n : Nat) :
    (check n).run c = (c, .answered (.checked (c.check n))) := by
  rw [run, start, Cancellation.check]
  cases c.raised <;> rfl

/-! ### Threads -/

/-- A call on the cancellation with a number. -/
structure Call where
  cell : Nat
  use : Use

/-- A step of a thread, with the cancellation as it was before. -/
structure Event where
  thread : Nat
  call : Call
  found : Cancellation
  outcome : Outcome

/-- A check ends with the step. -/
def Event.Checks (e : Event) : Prop :=
  ∃ result, e.outcome = .answered (.checked result)

/-- A check fails with the step. -/
def Event.Fails (e : Event) : Prop :=
  ∃ error, e.outcome = .answered (.checked (.error error))

/-- A call that cancels ends with the step. -/
def Event.Cancels (e : Event) : Prop :=
  e.outcome = .answered .done

/-- The reason that the steps on a cancellation offer first. -/
def firstOffer (cell : Nat) (log : List Event) : Option String :=
  log.findSome? fun e => if e.call.cell = cell then e.call.use.offer? e.outcome else none

/-- Cancellations, the calls that threads are in the middle of, and all the steps so far. -/
structure Threads where
  cell : Nat → Cancellation := fun _ => idle
  underway : Nat → Option (Call × Pending) := fun _ => none
  log : List Event := []

/-- The turn of a thread.  One in the middle of a call goes on with that, and any other begins the
call. -/
structure Turn where
  thread : Nat
  call : Call

namespace Threads

/-- A thread has taken a step of a call. -/
def put (s : Threads) (thread : Nat) (call : Call) (x : Cancellation × Outcome) : Threads where
  cell := Function.update s.cell call.cell x.1
  underway := Function.update s.underway thread (x.2.rest?.map (call, ·))
  log := s.log ++ [⟨thread, call, s.cell call.cell, x.2⟩]

section

variable {s : Threads} {t t' k : Nat} {call : Call} {x : Cancellation × Outcome}

@[simp] theorem cell_put_self : (s.put t call x).cell call.cell = x.1 :=
  Function.update_self ..

theorem cell_put_of_ne (h : k ≠ call.cell) : (s.put t call x).cell k = s.cell k :=
  Function.update_of_ne h ..

@[simp] theorem underway_put_self : (s.put t call x).underway t = x.2.rest?.map (call, ·) :=
  Function.update_self ..

theorem underway_put_of_ne (h : t' ≠ t) : (s.put t call x).underway t' = s.underway t' :=
  Function.update_of_ne h ..

@[simp] theorem log_put :
    (s.put t call x).log = s.log ++ [⟨t, call, s.cell call.cell, x.2⟩] := rfl

end

/-- The turn is taken. -/
def step (s : Threads) (turn : Turn) : Threads :=
  match s.underway turn.thread with
  | none => s.put turn.thread turn.call (turn.call.use.start (s.cell turn.call.cell))
  | some (call, rest) => s.put turn.thread call (rest.finish (s.cell call.cell))

/-- The turns are taken one after another, from cancellations that nobody used. -/
def run (turns : List Turn) : Threads :=
  turns.foldl step {}

theorem run_concat (turns : List Turn) (turn : Turn) :
    run (turns ++ [turn]) = (run turns).step turn :=
  List.foldl_append

end Threads

/-! ### One step -/

/-- What a step of a call does to the cancellation, and where it leads. -/
structure Does (use : Use) (c : Cancellation) (x : Cancellation × Outcome) : Prop where
  /-- Only a missing reason is set. -/
  reason_eq : x.1.reason = c.reason.or (use.offer? x.2)
  /-- The flag stays up. -/
  raised_of : c.raised = true → x.1.raised = true
  /-- The flag goes up only if there is a reason. -/
  of_raised : x.1.raised = true → c.raised = true ∨ c.reason.isSome
  raises : x.2 = .answered .done → x.1.raised = true
  offers : x.2 = .pending .raise → (use.offer? x.2).isSome
  sees : ∀ n, x.2 = .pending (.tell n) → use = .check n ∧ c.raised = true
  checks : ∀ result, x.2 = .answered (.checked result) →
    ∃ n, use = .check n ∧ result = c.check n

theorem reason_setReason (c : Cancellation) (reason : String) :
    (c.setReason reason).reason = c.reason.or (some reason) := by
  cases h : c.reason <;> simp [setReason, h]

theorem Use.start_does (c : Cancellation) (use : Use) : Does use c (use.start c) := by
  cases use with
  | cancel =>
      exact ⟨reason_setReason c callerReason, id, .inl, nofun, fun _ => rfl, nofun, nofun⟩
  | cancelWith reason =>
      exact ⟨reason_setReason c reason, id, .inl, nofun, fun _ => rfl, nofun, nofun⟩
  | isCancelled => exact ⟨Option.or_none.symm, id, .inl, nofun, nofun, nofun, nofun⟩
  | readReason => exact ⟨Option.or_none.symm, id, .inl, nofun, nofun, nofun, nofun⟩
  | check n =>
      cases hraised : c.raised with
      | false =>
          have hstart : (check n).start c = (c, .answered (.checked (c.check n))) := by
            rw [check_of_not_raised hraised, start, hraised]
            rfl
          rw [hstart]
          exact ⟨Option.or_none.symm, id, .inl, nofun, nofun, nofun,
            fun _ h => ⟨n, rfl, by cases h; rfl⟩⟩
      | true =>
          have hstart : (check n).start c = (c, .pending (.tell n)) := by
            rw [start, hraised]
            rfl
          rw [hstart]
          exact ⟨Option.or_none.symm, id, .inl, nofun, nofun,
            fun _ h => ⟨by cases h; rfl, hraised⟩, nofun⟩

/-- What a call may rely on after its first step. -/
def Pending.Ready (use : Use) (c : Cancellation) : Pending → Prop
  | raise => c.reason.isSome
  | tell n => use = .check n ∧ c.raised = true

theorem Pending.finish_does {c : Cancellation} {use : Use} {rest : Pending}
    (h : rest.Ready use c) : Does use c (rest.finish c) := by
  have hnone : ∀ answer, use.offer? (.answered answer) = none := by
    intro answer
    cases use <;> rfl
  cases rest with
  | raise =>
      refine ⟨?_, fun _ => rfl, fun _ => .inr h, fun _ => rfl, nofun, nofun, nofun⟩
      rw [finish, hnone, Option.or_none]
      rfl
  | tell n =>
      have hfinish : (tell n).finish c = (c, .answered (.checked (c.check n))) := by
        rw [check_of_raised h.2]
        rfl
      rw [hfinish]
      exact ⟨by rw [hnone, Option.or_none], id, .inl, nofun, nofun, nofun,
        fun _ hx => ⟨n, h.1, by cases hx; rfl⟩⟩

section

variable {c c' : Cancellation} {use : Use} {rest : Pending} {x : Cancellation × Outcome}

theorem Onward.isSome (h : c.Onward c') (hreason : c.reason.isSome) : c'.reason.isSome := by
  obtain ⟨reason, hreason⟩ := Option.isSome_iff_exists.1 hreason
  exact Option.isSome_iff_exists.2 ⟨reason, h.2 reason hreason⟩

theorem Pending.Ready.onward (h : rest.Ready use c) (hc : c.Onward c') : rest.Ready use c' := by
  cases rest with
  | raise => exact hc.isSome h
  | tell n => exact ⟨h.1, hc.1 h.2⟩

namespace Does

theorem onward (h : Does use c x) : c.Onward x.1 :=
  ⟨h.raised_of, fun reason hreason => by rw [h.reason_eq, hreason, Option.some_or]⟩

theorem reason_of_raised (h : Does use c x) (hc : c.raised = true → c.reason.isSome)
    (hraised : x.1.raised = true) : x.1.reason.isSome :=
  h.onward.isSome ((h.of_raised hraised).elim hc id)

/-- A step that leaves something of the call leaves what that relies on. -/
theorem ready (h : Does use c x) (hrest : x.2.rest? = some rest) : rest.Ready use x.1 := by
  have hx : x.2 = .pending rest := by
    cases hout : x.2 with
    | answered answer => rw [hout] at hrest; cases hrest
    | pending rest' => rw [hout] at hrest; exact congrArg _ (Option.some.inj hrest)
  cases rest with
  | raise => rw [Pending.Ready, h.reason_eq, Option.isSome_or, h.offers hx, Bool.or_true]
  | tell n =>
      obtain ⟨huse, hraised⟩ := h.sees n hx
      exact ⟨huse, h.raised_of hraised⟩

theorem fails (h : Does use c x) (hraised : c.raised = true) {result : Except VaultError Unit}
    (hx : x.2 = .answered (.checked result)) : ∃ error, result = .error error := by
  obtain ⟨n, -, rfl⟩ := h.checks _ hx
  exact ⟨_, check_of_raised hraised n⟩

theorem raised_of_fails (h : Does use c x) {error : VaultError}
    (hx : x.2 = .answered (.checked (.error error))) : c.raised = true := by
  obtain ⟨n, -, hcheck⟩ := h.checks _ hx
  exact raised_of_check hcheck.symm

theorem tells (h : Does use c x) (hc : c.raised = true → c.reason.isSome) {error : VaultError}
    (hx : x.2 = .answered (.checked (.error error))) :
    ∃ n reason, use = .check n ∧ error = .cancelled n reason ∧ c.reason = some reason := by
  have hraised := h.raised_of_fails hx
  obtain ⟨reason, hreason⟩ := Option.isSome_iff_exists.1 (hc hraised)
  obtain ⟨n, huse, hcheck⟩ := h.checks _ hx
  rw [check_of_raised hraised, hreason] at hcheck
  exact ⟨n, reason, huse, Except.error.inj hcheck, hreason⟩

end Does

end

/-! ### Every step -/

/-- What is in order at every moment. -/
structure Sound (s : Threads) : Prop where
  reason_eq : ∀ k, (s.cell k).reason = firstOffer k s.log
  /-- A flag is only up once the reason is set. -/
  reason_of_raised : ∀ k, (s.cell k).raised = true → (s.cell k).reason.isSome
  ready : ∀ t call rest, s.underway t = some (call, rest) → rest.Ready call.use (s.cell call.cell)
  /-- After a check that has failed or a call that has cancelled the flag is up. -/
  raised_after : ∀ e ∈ s.log, e.Fails ∨ e.Cancels → (s.cell e.call.cell).raised = true
  tells : ∀ e ∈ s.log, ∀ error, e.outcome = .answered (.checked (.error error)) →
    ∃ n reason, e.call.use = .check n ∧ error = .cancelled n reason ∧
      e.found.reason = some reason ∧ (s.cell e.call.cell).reason = some reason
  /-- Checks after that fail. -/
  later : s.log.Pairwise fun e e' =>
    e'.call.cell = e.call.cell → e.Fails ∨ e.Cancels → e'.Checks → e'.Fails

section

variable {s s' : Threads} {k t : Nat} {call : Call} {x : Cancellation × Outcome}

theorem Threads.onward_put (h : Does call.use (s.cell call.cell) x) (k : Nat) :
    (s.cell k).Onward ((s.put t call x).cell k) := by
  by_cases hk : k = call.cell
  · subst hk
    rw [cell_put_self]
    exact h.onward
  · rw [cell_put_of_ne hk]
    exact onward_refl _

theorem firstOffer_put (s : Threads) (t : Nat) (call : Call) (x : Cancellation × Outcome) :
    firstOffer k (s.put t call x).log
      = (firstOffer k s.log).or (if call.cell = k then call.use.offer? x.2 else none) := by
  rw [firstOffer, Threads.log_put, List.findSome?_append, List.findSome?_singleton]
  rfl

/-- A step of a call keeps everything in order. -/
theorem Sound.put (h : Sound s) (hdoes : Does call.use (s.cell call.cell) x) :
    Sound (s.put t call x) := by
  have honward := Threads.onward_put (t := t) hdoes
  constructor
  case reason_eq =>
    intro k
    rw [firstOffer_put, ← h.reason_eq k]
    by_cases hk : k = call.cell
    · subst hk
      rw [Threads.cell_put_self, hdoes.reason_eq, if_pos rfl]
    · rw [if_neg (Ne.symm hk), Option.or_none, Threads.cell_put_of_ne hk]
  case reason_of_raised =>
    intro k hraised
    by_cases hk : k = call.cell
    · subst hk
      rw [Threads.cell_put_self] at hraised ⊢
      exact hdoes.reason_of_raised (h.reason_of_raised _) hraised
    · rw [Threads.cell_put_of_ne hk] at hraised ⊢
      exact h.reason_of_raised k hraised
  case ready =>
    intro t' call' rest hrest
    by_cases ht : t' = t
    · subst ht
      rw [Threads.underway_put_self] at hrest
      obtain ⟨rest', hx, he⟩ := Option.map_eq_some_iff.1 hrest
      obtain ⟨rfl, rfl⟩ := Prod.mk.inj he
      rw [Threads.cell_put_self]
      exact hdoes.ready hx
    · rw [Threads.underway_put_of_ne ht] at hrest
      exact (h.ready t' call' rest hrest).onward (honward call'.cell)
  case raised_after =>
    intro e he hshows
    rcases List.mem_append.1 he with he | he
    · exact (honward _).1 (h.raised_after e he hshows)
    · obtain rfl := List.mem_singleton.1 he
      rcases hshows with ⟨error, herror⟩ | hdone
      · exact (honward _).1 (hdoes.raised_of_fails herror)
      · exact (congrArg Cancellation.raised Threads.cell_put_self).trans (hdoes.raises hdone)
  case tells =>
    intro e he error herror
    rcases List.mem_append.1 he with he | he
    · obtain ⟨n, reason, huse, rfl, hfound, hreason⟩ := h.tells e he error herror
      exact ⟨n, reason, huse, rfl, hfound, (honward _).2 reason hreason⟩
    · -- the flag was up, so the reason was set, and the check did not fall back on its own words
      obtain rfl := List.mem_singleton.1 he
      obtain ⟨n, reason, huse, rfl, hreason⟩ := hdoes.tells (h.reason_of_raised _) herror
      exact ⟨n, reason, huse, rfl, hreason, (honward _).2 reason hreason⟩
  case later =>
    refine List.pairwise_append.2 ⟨h.later, List.pairwise_singleton _ _, ?_⟩
    intro e he e' he' hcell hshows ⟨result, hresult⟩
    obtain rfl := List.mem_singleton.1 he'
    have hraised := h.raised_after e he hshows
    rw [← hcell] at hraised
    obtain ⟨error, rfl⟩ := hdoes.fails hraised hresult
    exact ⟨error, hresult⟩

theorem Sound.step (h : Sound s) (turn : Turn) : Sound (s.step turn) := by
  rw [Threads.step]
  split
  · exact h.put (Use.start_does _ _)
  · rename_i call rest hunderway
    exact h.put (Pending.finish_does (h.ready _ _ _ hunderway))

theorem sound_run (turns : List Turn) : Sound (Threads.run turns) := by
  induction turns using List.reverseRecOn with
  | nil => exact ⟨fun _ => rfl, nofun, nofun, nofun, nofun, .nil⟩
  | append_singleton turns turn ih =>
      rw [Threads.run_concat]
      exact ih.step turn

/-! ### One cancellation alone -/

/-- The steps on one cancellation were taken in the same way where none were taken on others. -/
structure Alone (k : Nat) (s s' : Threads) : Prop where
  cell_eq : s'.cell k = s.cell k
  idle : ∀ j ≠ k, s'.cell j = Cancellation.idle
  underway_eq : ∀ t, s'.underway t = (s.underway t).filter (·.1.cell = k)
  log_eq : s'.log = s.log.filter (·.call.cell = k)

theorem Alone.put (h : Alone k s s') (hk : call.cell = k) :
    Alone k (s.put t call x) (s'.put t call x) := by
  subst hk
  constructor
  · rw [Threads.cell_put_self, Threads.cell_put_self]
  · intro j hj
    rw [Threads.cell_put_of_ne hj]
    exact h.idle j hj
  · intro t'
    by_cases ht : t' = t
    · subst ht
      rw [Threads.underway_put_self, Threads.underway_put_self]
      cases x.2.rest? with
      | none => rfl
      | some rest => exact (Option.filter_some_pos (by simp)).symm
    · rw [Threads.underway_put_of_ne ht, Threads.underway_put_of_ne ht]
      exact h.underway_eq t'
  · rw [Threads.log_put, Threads.log_put, List.filter_append, h.log_eq, h.cell_eq]
    simp

theorem Alone.skip (h : Alone k s s') (hk : call.cell ≠ k) (ht : s'.underway t = none) :
    Alone k (s.put t call x) s' := by
  constructor
  · rw [Threads.cell_put_of_ne (Ne.symm hk)]
    exact h.cell_eq
  · exact h.idle
  · intro t'
    by_cases ht' : t' = t
    · subst ht'
      rw [Threads.underway_put_self, ht]
      cases x.2.rest? with
      | none => rfl
      | some rest => exact (Option.filter_some_neg (by simpa using hk)).symm
    · rw [Threads.underway_put_of_ne ht']
      exact h.underway_eq t'
  · rw [Threads.log_put, List.filter_append, h.log_eq]
    simp [hk]

theorem Alone.step (h : Alone k s s') (turn : Turn) :
    Alone k (s.step turn) (s'.step turn) ∨ Alone k (s.step turn) s' := by
  have hunderway := h.underway_eq turn.thread
  cases hs : s.underway turn.thread with
  | none =>
      rw [hs, Option.filter_none] at hunderway
      simp only [Threads.step, hs, hunderway]
      by_cases hk : turn.call.cell = k
      · rw [hk, h.cell_eq]
        exact .inl (h.put hk)
      · exact .inr (h.skip hk hunderway)
  | some callRest =>
      obtain ⟨call, rest⟩ := callRest
      rw [hs] at hunderway
      simp only [Threads.step, hs]
      by_cases hk : call.cell = k
      · rw [Option.filter_some_pos (by simpa using hk)] at hunderway
        simp only [hunderway, hk, h.cell_eq]
        exact .inl (h.put hk)
      · rw [Option.filter_some_neg (by simpa using hk)] at hunderway
        exact .inr (h.skip hk hunderway)

theorem exists_alone (k : Nat) (turns : List Turn) :
    ∃ turns', turns'.Sublist turns ∧ Alone k (Threads.run turns) (Threads.run turns') := by
  induction turns using List.reverseRecOn with
  | nil => exact ⟨[], .slnil, rfl, fun _ _ => rfl, fun _ => rfl, rfl⟩
  | append_singleton turns turn ih =>
      obtain ⟨turns', hsub, halone⟩ := ih
      rw [Threads.run_concat]
      rcases halone.step turn with h | h
      · refine ⟨turns' ++ [turn], hsub.append (.refl _), ?_⟩
        rwa [Threads.run_concat]
      · exact ⟨turns', hsub.trans (List.sublist_append_left turns [turn]), h⟩

end

/-! ### All together -/

/-- **Checks agree.**  However the steps of threads come, once a check has failed or a call has
cancelled every later check of that cancellation fails.  A check that fails tells the number it was
given and the reason that was set, which is the one that was offered first, so that every check from
then on tells the same.  What happens to a cancellation is what would happen if no call were on any
other. -/
theorem checks_agree (turns : List Turn) :
    ((Threads.run turns).log.Pairwise fun e e' =>
      e'.call.cell = e.call.cell → e.Fails ∨ e.Cancels → e'.Checks → e'.Fails) ∧
    (∀ e ∈ (Threads.run turns).log, ∀ error, e.outcome = .answered (.checked (.error error)) →
      ∃ n reason, e.call.use = .check n ∧ error = .cancelled n reason ∧
        e.found.reason = some reason ∧
        firstOffer e.call.cell (Threads.run turns).log = some reason ∧
        ∀ m, ((Threads.run turns).cell e.call.cell).check m = .error (.cancelled m reason)) ∧
    ∀ k, ∃ turns', turns'.Sublist turns ∧
      (Threads.run turns').log = (Threads.run turns).log.filter (·.call.cell = k) ∧
      (Threads.run turns').cell k = (Threads.run turns).cell k ∧
      ∀ j ≠ k, (Threads.run turns').cell j = idle := by
  have hsound := sound_run turns
  refine ⟨hsound.later, fun e he error herror => ?_, fun k => ?_⟩
  · obtain ⟨n, reason, huse, rfl, hfound, hreason⟩ := hsound.tells e he error herror
    refine ⟨n, reason, huse, rfl, hfound, (hsound.reason_eq _).symm.trans hreason, fun m => ?_⟩
    rw [check_of_raised (hsound.raised_after e he (.inl ⟨_, herror⟩)), hreason]
    rfl
  · obtain ⟨turns', hsub, halone⟩ := exists_alone k turns
    exact ⟨turns', hsub, halone.log_eq, halone.cell_eq, halone.idle⟩

/-- Two threads cancel for two reasons, and others check between their steps and after them.  One
check is of another cancellation. -/
def twoReasons : List Turn :=
  [⟨0, 0, .cancelWith "shutdown"⟩, ⟨1, 0, .cancel⟩, ⟨1, 0, .cancel⟩, ⟨2, 0, .check 3⟩,
    ⟨3, 1, .check 9⟩, ⟨2, 0, .check 3⟩, ⟨0, 0, .cancelWith "shutdown"⟩, ⟨3, 0, .check 4⟩,
    ⟨3, 0, .check 4⟩]

theorem checks_agree_twoReasons :
    (∃ e ∈ (Threads.run twoReasons).log, e.call.use = .check 4 ∧ e.Fails) ∧
    firstOffer 0 (Threads.run twoReasons).log = some "shutdown" ∧
    (∀ m, ((Threads.run twoReasons).cell 0).check m = .error (.cancelled m "shutdown")) ∧
    ∃ turns', (Threads.run turns').cell 1 = (Threads.run twoReasons).cell 1 ∧
      (Threads.run turns').cell 0 = idle := by
  obtain ⟨hlater, htells, halone⟩ := checks_agree twoReasons
  have hfails := List.pairwise_iff_getElem.1 hlater 5 8 (by decide) (by decide) (by decide) rfl
    (.inl ⟨_, rfl⟩) ⟨_, rfl⟩
  obtain ⟨n, reason, -, herror, -, hfirst, hcheck⟩ := htells (Threads.run twoReasons).log[5]
    (List.getElem_mem _) (.cancelled 3 "shutdown") rfl
  obtain ⟨turns', -, -, hcell, hidle⟩ := halone 1
  cases herror
  exact ⟨⟨_, List.getElem_mem _, rfl, hfails⟩, hfirst, hcheck, turns', hcell, hidle 0 (by decide)⟩

end Strongbox.Cancellation
