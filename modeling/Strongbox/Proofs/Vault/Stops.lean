import Strongbox.Proofs.Rotation.Course
import Strongbox.Proofs.Rotation.Rotate
import Strongbox.Proofs.Vault.Purge

/-!
# Vault — stops are heeded

Once the caller has cancelled, a rotation in order and a purge write at most the entry in progress.
The workers of a pool write at most the entries that they are working on, each its own, once the
caller has cancelled or one of them has raised the halt.

* `worksOn_relockEntry`, `worksOn_purgeEntry`: work on one entry does not look, and it writes that
  entry at most once.
* `guards_progress`, `guards_purge`: rotations in order and purges look before they write.
* `stop_heeded`: what is written after a stop.
-/

namespace Strongbox

open Rotation

section

variable {σ : Type} {S : Surroundings σ} {v : Vault} {old new : String}

theorem worksOn_relockEntry : WorksOn S (relockEntry v old new) := by
  intro e s r s' h
  rcases relockEntry_asks h with ⟨error, -, -, rfl⟩ | ⟨error, head, -, hrandom, -⟩ |
    ⟨text, head, now, -, -, t, u, hrandom, hclock, hcall⟩
  · exact ⟨[], rfl, by simp⟩
  · exact ⟨[_], hrandom.2, by simp [Exchange.look?, Exchange.writes]⟩
  · have hlog : u.log = [⟨.now, now, u.state⟩, ⟨.random v.lock.headLength, head, t.state⟩]
        ++ s.log := by
      rw [hclock.2, hrandom.2]
      rfl
    rcases hcall with ⟨⟨-, hcall⟩, -⟩ | ⟨error, ⟨-, hcall⟩, -⟩
    · refine ⟨[_, _, _], by rw [hcall, hlog]; rfl, ?_, ?_, ?_⟩
      · simp [Exchange.look?]
      · exact Nat.le_refl 1
      · simp [Exchange.writes, Exchange.target?, relocking]
    · refine ⟨[_, _, _], by rw [hcall, hlog]; rfl, ?_⟩
      simp [Exchange.look?, Exchange.writes, relocking]

theorem worksOn_purgeEntry {mode : PurgeMode} {now : Instant} :
    WorksOn S (Vault.purgeEntry mode now) := by
  intro e s r s' h
  cases mode with
  | soft | hard =>
      obtain ⟨x, t, ⟨-, hlog⟩, hr⟩ := Job.ends_call_bind.1 h
      cases x with
      | ok a =>
          obtain ⟨-, rfl⟩ := Job.ends_pure.1 hr
          exact ⟨[_], hlog, by simp [Exchange.look?, Exchange.writes, Exchange.target?]⟩
      | error error =>
          obtain ⟨-, rfl⟩ := hr
          exact ⟨[_], hlog, by simp [Exchange.look?, Exchange.writes]⟩

/-- **A rotation in order** looks before it writes. -/
theorem guards_progress {plan : Plan} (hseq : plan.mode = .sequential) :
    (progress v old new plan).Guards S := by
  have hentries : ∀ n entries, (relockAll v old new plan.mode n entries).Guards S := by
    intro n entries
    rw [hseq]
    exact guards_eachEntry worksOn_relockEntry entries n
  rw [progress]
  split
  · exact (Program.guards_reply fun _ _ _ => rfl).bind fun extent =>
      guards_eachPage hentries _ _ _
  · refine Program.Guards.bind (Job.guards_call fun _ _ _ => rfl) fun x => ?_
    cases x with
    | ok entries => exact hentries 0 entries
    | error error => exact Program.guards_done _

/-- **A purge** looks before it writes. -/
theorem guards_purge (mode : PurgeMode) : Job.Guards S (v.purge mode) := by
  have hpages : (v.purgeProgress mode).Guards S :=
    (Program.guards_reply fun _ _ _ => rfl).bind fun now =>
      (Program.guards_reply fun _ _ _ => rfl).bind fun extent =>
        guards_eachPage (fun n page => guards_eachEntry worksOn_purgeEntry _ n) _ _ _
  exact (Job.guards_checkpoint 0).bind fun _ =>
    (Job.guards_lift hpages).bind fun p => Job.guards_ofExcept _

end

/-- **Stops are heeded.**  Beside surroundings that tell whoever looks for a cancellation whether
there is one:

A run of the pool is a course of turns from its start, in whatever order.  Take a moment at which
the pool has to stop, because the caller has cancelled or a worker has raised the halt, or a
question of some turn at which the caller cancels.  From then on each worker writes at most once,
and nothing but the entry that it was working on at that moment, and no worker turns to another
entry, be it the first of a batch or a later one.

From a question on at which the caller cancels, a rotation in order and a purge write at most once,
and only before they look the next time. -/
theorem stop_heeded {σ : Type} {S : Surroundings σ} {raised : σ → Prop} (hS : Watched S raised)
    (v : Vault) (old new : String) :
    (∀ rules entries s p s',
      (Pool.run (relockEntry v old new) rules entries).Ends (logged S) s p s' →
        ∃ turns t asked, logged S .turns s turns t ∧ s'.log = asked.map (·.2) ++ t.log ∧
          Course S (relockEntry v old new) (Pool.start (batches rules.batchSize entries)
            rules.queueDepth (min rules.workers (batches rules.batchSize entries).length))
            t asked p s') ∧
    (∀ p s asked p' s', Stopping raised p s.state →
      Course S (relockEntry v old new) p s asked p' s' → Heeded p asked p') ∧
    (∀ p s t q u after x before asked p' s',
      (p.step (relockEntry v old new) t).Ends (logged S) s q u →
        u.log = after ++ x :: before ++ s.log → raised x.after →
          Course S (relockEntry v old new) q u asked p' s' →
            Heeded p (asked ++ (after ++ [x]).map (t, ·)) p') ∧
    (∀ plan s p s', plan.mode = .sequential →
      (progress v old new plan).Ends (logged S) ⟨s, []⟩ p s' → Heeds raised s'.log) ∧
    ∀ mode s r s', (v.purge mode).Ends (logged S) ⟨s, []⟩ r s' → Heeds raised s'.log := by
  refine ⟨fun rules entries s p s' h => ?_, fun p s asked p' s' hstop h => ?_,
    fun p s t q u after x before asked p' s' ht hlog hx h => ?_, fun plan s p s' hseq h => ?_,
    fun mode s r s' h => ?_⟩
  · obtain ⟨turns, t, asked, hturns, hcourse⟩ := run_course h
    exact ⟨turns, t, asked, hturns, hcourse.log_eq, hcourse⟩
  · have hheeded := (h.heeded hS worksOn_relockEntry hstop (heeded_start p)).2
    rwa [List.append_nil] at hheeded
  · exact h.heeded_of_raised hS worksOn_relockEntry ht hlog hx
  · exact (guards_progress hseq).heeds hS h
  · exact (guards_purge mode).heeds hS h

/-- Two workers, each at work on an entry, and a batch that waits in the queue, when the halt has
been raised. -/
def haltedPool : Pool :=
  { Pool.start [] 20 0 with
    queue := [samples], workers := samples.map (.working · [] 0), halted := true }

/-- From any moment on, a pool has a course in which the threads go on while they can. -/
theorem exists_course {act : Entry → Job Bool} (m : Manner) (hm : ∃ t, m.shows t)
    (hg : ∀ b, ∃ id, m.gives b id) (hd : ∀ n, ∃ token, m.draws n token) (p : Pool)
    (s : Logged Scene) : ∃ asked p' s', Course m.answers act p s asked p' s' := by
  obtain ⟨p', s', h⟩ := m.exists_ends hm hg hd (Pool.finish act p.cost p) s.state
  obtain ⟨log, hlog⟩ := h.exists_log s.log
  obtain ⟨asked, h⟩ := Course.start.finish hlog
  exact ⟨asked, p', _, h⟩

/-- The caller may cancel while the feeder looks for the first time, and the feeder sees it. -/
theorem exists_cancel {act : Entry → Job Bool} {shows : Instant → Prop} (s : Scene)
    (b : List Entry) (bs : List (List Entry)) (depth workers : Nat) :
    ∃ x, x.after.caller.raised = true ∧
      ((Pool.start (b :: bs) depth workers).step act 0).Ends
        (logged (Manner.rough shows).answers) ⟨s, []⟩
        { Pool.start (b :: bs) depth workers with feeder := .closed } ⟨x.after, [x]⟩ :=
  ⟨⟨.cancellation, s.caller.cancel, { s with caller := s.caller.cancel }⟩, rfl, _, _,
    ⟨⟨.inr ⟨trivial, s.caller.onward_cancelWith _⟩, rfl⟩, rfl⟩, rfl, rfl⟩

/-- Stops before and within the turns of a pool, a rotation in order and a purge, where any call may
fail and the caller may cancel. -/
theorem stop_heeded_samples :
    (∃ asked p s', Course (Manner.rough fun _ => True).answers
        (relockEntry Vault.usual "old" "new") haltedPool ⟨sampleScene, []⟩ asked p s' ∧
      Heeded haltedPool asked p) ∧
    (∃ x asked p s', x.after.caller.raised = true ∧
      ((Pool.start [samples] 20 1).step (relockEntry Vault.usual "old" "new") 0).Ends
        (logged (Manner.rough fun _ => True).answers) ⟨sampleScene, []⟩
        { Pool.start [samples] 20 1 with feeder := .closed } ⟨x.after, [x]⟩ ∧
      Course (Manner.rough fun _ => True).answers (relockEntry Vault.usual "old" "new")
        { Pool.start [samples] 20 1 with feeder := .closed } ⟨x.after, [x]⟩ asked p s' ∧
      Heeded (Pool.start [samples] 20 1) (asked ++ [(0, x)]) p) ∧
    (∃ r s', (progress Vault.usual "old" "new" ⟨2, .sequential, true⟩).Ends
        (logged (Manner.rough fun _ => True).answers) ⟨sampleScene, []⟩ r s' ∧
      Heeds (fun s => s.caller.raised = true) s'.log) ∧
    ∃ r s', (Vault.usual.purge .soft).Ends (logged (Manner.rough fun _ => True).answers)
        ⟨Vault.dueScene, []⟩ r s' ∧
      Heeds (fun s => s.caller.raised = true) s'.log := by
  have hm : ∃ t, (Manner.rough fun _ => True).shows t := ⟨default, trivial⟩
  have hg : ∀ b, ∃ id, (Manner.rough fun _ => True).gives b id := fun _ => ⟨.ofNat 0, trivial⟩
  have hd : ∀ n, ∃ token, (Manner.rough fun _ => True).draws n token := fun _ => ⟨.ok "", trivial⟩
  obtain ⟨-, hstop, hcancel, hprogress, hpurge⟩ :=
    stop_heeded (Manner.rough fun _ => True).watched Vault.usual "old" "new"
  refine ⟨?_, ?_, ?_, ?_⟩
  · obtain ⟨asked, p, s', h⟩ := exists_course _ hm hg hd haltedPool ⟨sampleScene, []⟩
    exact ⟨asked, p, s', h, hstop _ _ _ _ _ (.inr rfl) h⟩
  · obtain ⟨x, hx, ht⟩ := exists_cancel sampleScene samples [] 20 1
    obtain ⟨asked, p, s', h⟩ := exists_course _ hm hg hd
      { Pool.start [samples] 20 1 with feeder := .closed } ⟨x.after, [x]⟩
    exact ⟨x, asked, p, s', hx, ht, h, hcancel _ _ 0 _ _ [] x [] _ _ _ ht rfl hx h⟩
  · obtain ⟨r, s', h⟩ := Manner.exists_ends hm hg hd
      (progress Vault.usual "old" "new" ⟨2, .sequential, true⟩) sampleScene
    obtain ⟨log, hlog⟩ := h.exists_log []
    exact ⟨r, _, hlog, hprogress _ _ _ _ rfl hlog⟩
  · obtain ⟨r, s', h⟩ := Manner.exists_ends hm hg hd (Vault.usual.purge .soft).run Vault.dueScene
    obtain ⟨log, hlog⟩ := h.exists_log []
    exact ⟨r, _, hlog, hpurge _ _ _ _ hlog⟩

end Strongbox
