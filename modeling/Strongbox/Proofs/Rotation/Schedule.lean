import Strongbox.Proofs.Program.Log
import Strongbox.Proofs.Scene

/-!
# Rotation — schedules of failures and cancellations

What stops work in order can be told from the log of its run: the call to the store that failed, or
the look at the caller's cancellation that found it raised.  A schedule fixes both by the number of
the update that fails or at which the caller cancels, whatever is read in between.

* `Trace`: the log of work that nothing has stopped yet.
* `Scheduled`: a log in which the updates and the looks went as a schedule says.
* `Reaches`: the number of updates that such work carries out before it stops; `Reaches.unique`
  tells that the schedule fixes it.
* `Trace.read`, `Trace.look`, `Trace.update`: how the log of such work grows.
-/

namespace Strongbox

/-! ### Exchanges with the store -/

namespace Exchange

variable {σ : Type}

/-- The error of a call to the store that failed. -/
def failure? (x : Exchange σ) : Option StoreError :=
  match x with
  | ⟨.store _, .error e, _⟩ => some e
  | _ => none

/-- The store is asked to update an entry. -/
def isUpdate (x : Exchange σ) : Bool :=
  match x.request with
  | .store (.update _ _) => true
  | _ => false

/-- The store is asked to count entries. -/
def isCount (x : Exchange σ) : Bool :=
  match x.request with
  | .store (.count _) => true
  | _ => false

/-- The caller's cancellation, as a look found it. -/
def look? (x : Exchange σ) : Option Cancellation :=
  match x with
  | ⟨.cancellation, c, _⟩ => some c
  | _ => none

end Exchange

namespace Rotation

/-! ### The caller's reason -/

/-- The caller has given the reason, before the run of the log or during it. -/
def Given (s₀ : Scene) (log : List (Exchange Scene)) (reason : String) : Prop :=
  s₀.caller.reason = some reason ∨ ∃ x ∈ log, x.after.caller.reason = some reason

/-- A look of the log found the caller's cancellation raised, with the reason; it is the first that
the caller has given. -/
structure Cancelled (s₀ : Scene) (log : List (Exchange Scene)) (reason : String) : Prop where
  raised : ∃ x ∈ log, ∃ c, x.look? = some c ∧ c.raised = true ∧
    reason = c.reason.getD Cancellation.callerReason
  first : ∀ given, Given s₀ log given → given = reason

section

variable {m : Manner} {s₀ : Scene} {s s' : Logged Scene}

/-- A reason that was given stays. -/
theorem given_after
    (h : ∀ reason, Given s₀ s.log reason → s.state.caller.reason = some reason) {r : Request}
    {x : r.Reply} (hx : logged m.answers r s x s') :
    ∀ reason, Given s₀ s'.log reason → s'.state.caller.reason = some reason := by
  rintro reason hgiven
  have honward := Manner.answers_onward hx.1
  rw [hx.2] at hgiven
  rcases hgiven with h₀ | ⟨y, hy, hreason⟩
  · exact honward.2 _ (h reason (.inl h₀))
  · rcases List.mem_cons.1 hy with rfl | hy
    · exact hreason
    · exact honward.2 _ (h reason (.inr ⟨y, hy, hreason⟩))

/-- The reason that a raised cancellation gives. -/
theorem cancelled_of_look
    (h : ∀ reason, Given s₀ s.log reason → s.state.caller.reason = some reason) {c : Cancellation}
    (hx : logged m.answers .cancellation s c s') (hc : c.raised = true) :
    Cancelled s₀ s'.log (c.reason.getD Cancellation.callerReason) where
  raised := ⟨_, by rw [hx.2]; exact List.mem_cons_self, c, rfl, hc, rfl⟩
  first given hgiven := by
    have hreason := given_after h hx given hgiven
    obtain ⟨-, hstate⟩ := hx.1
    rw [hstate] at hreason
    change c.reason = some given at hreason
    rw [hreason]
    rfl

end

/-! ### Schedules -/

/-- What happens at an update. -/
inductive Trip where
  /-- The update fails. -/
  | fails
  /-- The caller cancels when the update has gone through. -/
  | cancels

/-- What happens at the updates of a run, by their number. -/
abbrev Schedule : Type :=
  Nat → Option Trip

/-- The updates and the looks of a log, the latest first, went as the schedule says: the updates
that fail are those of the schedule, a look finds the cancellation raised once an update was one at
which the caller cancels, and no other call fails. -/
def Scheduled (sch : Schedule) : List (Exchange Scene) → Prop
  | [] => True
  | x :: log =>
    (x.isUpdate = true → (x.failure?.isSome ↔ sch (log.countP Exchange.isUpdate) = some .fails)) ∧
    (x.isUpdate = false → x.failure? = none) ∧
    (∀ c, x.look? = some c →
      (c.raised = true ↔ ∃ i < log.countP Exchange.isUpdate, sch i = some .cancels)) ∧
    Scheduled sch log

/-- Of `total` updates in order, the schedule lets `k` go through: all, or those before the first
that fails, or those up to the first at which the caller cancels. -/
structure Reaches (sch : Schedule) (total k : Nat) : Prop where
  le : k ≤ total
  unfailed : ∀ i < k, sch i ≠ some .fails
  uncancelled : ∀ i, i + 1 < k → sch i ≠ some .cancels
  stops : k = total ∨ sch k = some .fails ∨ ∃ i, k = i + 1 ∧ sch i = some .cancels

/-- **The schedule fixes how many updates go through.** -/
theorem Reaches.unique {sch : Schedule} {total k k' : Nat} (h : Reaches sch total k)
    (h' : Reaches sch total k') : k = k' := by
  have key : ∀ {i j}, Reaches sch total i → Reaches sch total j → ¬ i < j := by
    intro i j hi hj hlt
    rcases hi.stops with rfl | hf | ⟨i, rfl, hc⟩
    · exact Nat.not_le_of_lt hlt hj.le
    · exact hj.unfailed i hlt hf
    · exact hj.uncancelled i hlt hc
  have := key h h'
  have := key h' h
  omega

/-! ### The log of work that goes on -/

/-- The log of work that has carried out `k` updates and that nothing has stopped. -/
structure Trace (s₀ : Scene) (k : Nat) (s : Logged Scene) : Prop where
  whole : ∀ x ∈ s.log, x.failure? = none
  reasons : ∀ reason, Given s₀ s.log reason → s.state.caller.reason = some reason
  tried : s.log.countP Exchange.isUpdate = k
  unfailed : ∀ sch, Scheduled sch s.log → ∀ i < k, sch i ≠ some .fails
  uncancelled : ∀ sch, Scheduled sch s.log → ∀ i, i + 1 < k → sch i ≠ some .cancels

/-- The log tells that the caller has not cancelled at any of `k` updates. -/
def Unraised (k : Nat) (log : List (Exchange Scene)) : Prop :=
  ∀ sch, Scheduled sch log → ∀ i < k, sch i ≠ some .cancels

theorem Unraised.cons {k : Nat} {x : Exchange Scene} {log : List (Exchange Scene)}
    (h : Unraised k log) : Unraised k (x :: log) :=
  fun sch hsch => h sch hsch.2.2.2

variable {m : Manner} {s₀ : Scene} {k total : Nat} {s s' : Logged Scene}

/-- Before the first question nothing has happened. -/
theorem trace_start (s₀ : Scene) : Trace s₀ 0 ⟨s₀, []⟩ where
  whole _ hx := absurd hx List.not_mem_nil
  reasons reason h := by
    rcases h with h | ⟨_, hx, -⟩
    · exact h
    · cases hx
  tried := rfl
  unfailed _ _ _ hi := absurd hi (Nat.not_lt_zero _)
  uncancelled _ _ _ hi := absurd hi (Nat.not_lt_zero _)

namespace Trace

/-- A question that is not an update, and that does not fail. -/
theorem read (h : Trace s₀ k s) {r : Request} {x : r.Reply} (hx : logged m.answers r s x s')
    (hu : Exchange.isUpdate (⟨r, x, s'.state⟩ : Exchange Scene) = false)
    (hf : Exchange.failure? (⟨r, x, s'.state⟩ : Exchange Scene) = none) : Trace s₀ k s' where
  whole := by
    rw [hx.2]
    exact List.forall_mem_cons.2 ⟨hf, h.whole⟩
  reasons := given_after h.reasons hx
  tried := by rw [hx.2, List.countP_cons, hu, h.tried]; rfl
  unfailed sch hsch := by
    rw [hx.2] at hsch
    exact h.unfailed sch hsch.2.2.2
  uncancelled sch hsch := by
    rw [hx.2] at hsch
    exact h.uncancelled sch hsch.2.2.2

/-- A look that finds the cancellation not raised. -/
theorem look (h : Trace s₀ k s) {c : Cancellation} (hx : logged m.answers .cancellation s c s')
    (hc : c.raised = false) : Trace s₀ k s' ∧ Unraised k s'.log := by
  refine ⟨h.read hx rfl rfl, fun sch hsch i hi hcancels => ?_⟩
  rw [hx.2] at hsch
  have hraised := (hsch.2.2.1 c rfl).2 ⟨i, by rwa [h.tried], hcancels⟩
  rw [hc] at hraised
  cases hraised

/-- An update that goes through after such a look. -/
theorem update (h : Trace s₀ k s) (hc : Unraised k s.log) {e : Entry} {fields : List Field}
    (hx : logged m.answers (.store (.update e fields)) s (.ok ()) s') : Trace s₀ (k + 1) s' where
  whole := by
    rw [hx.2]
    exact List.forall_mem_cons.2 ⟨rfl, h.whole⟩
  reasons := given_after h.reasons hx
  tried := by rw [hx.2, List.countP_cons, h.tried]; rfl
  unfailed sch hsch i hi := by
    rw [hx.2] at hsch
    rcases Nat.lt_succ_iff_lt_or_eq.1 hi with hi | rfl
    · exact h.unfailed sch hsch.2.2.2 i hi
    · intro hfails
      have := (hsch.1 rfl).2 (by rwa [h.tried])
      cases this
  uncancelled sch hsch i hi := by
    rw [hx.2] at hsch
    exact hc sch hsch.2.2.2 i (by omega)

/-! ### Stops -/

/-- The schedules of a log that a look has stopped. -/
theorem reaches_of_look (h : Trace s₀ k s) (hk : k ≤ total) {c : Cancellation}
    (hx : logged m.answers .cancellation s c s') (hc : c.raised = true) (sch : Schedule)
    (hsch : Scheduled sch s'.log) : Reaches sch total k := by
  rw [hx.2] at hsch
  refine ⟨hk, h.unfailed sch hsch.2.2.2, h.uncancelled sch hsch.2.2.2, .inr (.inr ?_)⟩
  obtain ⟨i, hi, hcancels⟩ := (hsch.2.2.1 c rfl).1 hc
  rw [h.tried] at hi
  -- it is the last of the updates, as none before it was one at which the caller cancels
  refine ⟨i, ?_, hcancels⟩
  rcases Nat.lt_or_eq_of_le hi with hlt | heq
  · exact absurd hcancels (h.uncancelled sch hsch.2.2.2 i hlt)
  · exact heq.symm

/-- The schedules of a log that a failing update has stopped. -/
theorem reaches_of_update (h : Trace s₀ k s) (hc : Unraised k s.log) (hk : k ≤ total) {e : Entry}
    {fields : List Field} {error : StoreError}
    (hx : logged m.answers (.store (.update e fields)) s (.error error) s') (sch : Schedule)
    (hsch : Scheduled sch s'.log) : Reaches sch total k := by
  rw [hx.2] at hsch
  refine ⟨hk, h.unfailed sch hsch.2.2.2, fun i hi => hc sch hsch.2.2.2 i (by omega), ?_⟩
  have hfails := (hsch.1 rfl).1 rfl
  rw [h.tried] at hfails
  exact .inr (.inl hfails)

/-- A schedule has no other call fail. -/
theorem not_scheduled_of_read (hx : s'.log = x :: s.log) (hu : Exchange.isUpdate x = false)
    {error : StoreError} (hf : x.failure? = some error) (sch : Schedule) :
    ¬ Scheduled sch s'.log := by
  rw [hx]
  intro hsch
  rw [hsch.2.1 hu] at hf
  cases hf

/-- The schedules of a log whose updates have all gone through. -/
theorem reaches_total (h : Trace s₀ total s) (sch : Schedule) (hsch : Scheduled sch s.log) :
    Reaches sch total total :=
  ⟨Nat.le_refl _, h.unfailed sch hsch, h.uncancelled sch hsch, .inl rfl⟩

end Trace

end Rotation

end Strongbox
