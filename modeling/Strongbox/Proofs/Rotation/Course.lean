import Strongbox.Proofs.Rotation.Turn
import Strongbox.Proofs.Vault.Guarded

/-!
# Rotation — a pool that has to stop

A pool has to stop once the caller has cancelled or a worker that failed has raised the halt.  From
then on no worker turns to another entry: each finishes the entry that it is working on, if it is,
and so writes at most once more.  This holds for any number of workers and any order of the turns,
whatever waits in the queue.

* `Course`: turns of threads in any order, with the questions that each thread has put.
* `Puts`, `Turn.puts`: what a turn writes, and who works on an entry after it.
* `Heeded`: what has been written since a moment, by whom, and who works on an entry now.
* `Heeded.turn`, `Course.heeded`: one more turn, and any turns after a stop.
* `run_course`: a run of the pool is a course from its start.
-/

namespace Strongbox.Rotation

/-- The pool has to stop. -/
def Stopping {σ : Type} (raised : σ → Prop) (p : Pool) (s : σ) : Prop :=
  raised s ∨ p.halted = true

/-- Turns of threads in any order lead from one pool to another; `asked` are the questions that they
have put, the latest first, each with the number of the thread. -/
inductive Course {σ : Type} (S : Surroundings σ) (act : Entry → Job Bool) (p : Pool)
    (s : Logged σ) : List (Nat × Exchange σ) → Pool → Logged σ → Prop where
  | start : Course S act p s [] p s
  | turn {asked : List (Nat × Exchange σ)} {new : List (Exchange σ)} {q q' : Pool}
      {u u' : Logged σ} {t : Nat} (h : Course S act p s asked q u)
      (ht : (q.step act t).Ends (logged S) u q' u') (hn : u'.log = new ++ u.log) :
      Course S act p s (new.map (t, ·) ++ asked) q' u'

/-- Worker `i` has written an entry. -/
def commits {σ : Type} (i : Nat) (x : Nat × Exchange σ) : Bool :=
  x.1 == i + 1 && x.2.writes

/-- From a moment at which the pool was `p` to one at which it is `p'`, each worker has written at
most once, and nothing but the entry that it was working on at the first moment.  Who works on an
entry at the second moment has been at it since the first and has not written it yet, so no worker
has turned to another entry. -/
structure Heeded {σ : Type} (p : Pool) (since : List (Nat × Exchange σ)) (p' : Pool) : Prop where
  once : ∀ i, since.countP (commits i) ≤ 1
  own : ∀ t x, (t, x) ∈ since → x.writes = true → ∃ i e es n, t = i + 1 ∧
    p.workers[i]? = some (.working e es n) ∧ x.target? = some e.id
  still : ∀ i e es n, p'.workers[i]? = some (.working e es n) →
    p.workers[i]? = some (.working e es n) ∧ since.countP (commits i) = 0

section

variable {σ : Type} {S : Surroundings σ} {raised : σ → Prop} {act : Entry → Job Bool}

/-! ### One turn -/

/-- If a worker is not at work on an entry after its turn, those that are were so before. -/
theorem working_of_set {l r : List Worker} {w w' : Worker}
    (hw : ∀ e es n, w' ≠ .working e es n) {i : Nat} {e : Entry} {es : List Entry} {n : Nat}
    (h : (l ++ w' :: r)[i]? = some (.working e es n)) :
    (l ++ w :: r)[i]? = some (.working e es n) ∧ l.length + 1 ≠ i + 1 := by
  have hi : i ≠ l.length := by
    rintro rfl
    rw [List.getElem?_append_right (Nat.le_refl _), Nat.sub_self, List.getElem?_cons_zero] at h
    exact hw e es n (Option.some.inj h)
  refine ⟨?_, by omega⟩
  rw [← h, List.getElem?_append, List.getElem?_append]
  split
  · rfl
  · have hpos : i - l.length ≠ 0 := by omega
    obtain ⟨k, hk⟩ := Nat.exists_eq_succ_of_ne_zero hpos
    rw [hk, List.getElem?_cons_succ, List.getElem?_cons_succ]

/-- The questions of a turn of the thread `t`: it writes at most once, and nothing but the entry
that its worker is working on; and if the pool has to stop after the turn, those at work on an entry
were so before, and it was the turn of none of them. -/
structure Puts (raised : σ → Prop) (p : Pool) (t : Nat) (new : List (Exchange σ)) (p' : Pool)
    (s' : σ) : Prop where
  once : new.countP Exchange.writes ≤ 1
  own : ∀ x ∈ new, x.writes = true → ∃ i e es n, t = i + 1 ∧
    p.workers[i]? = some (.working e es n) ∧ x.target? = some e.id
  still : Stopping raised p' s' → ∀ i e es n, p'.workers[i]? = some (.working e es n) →
    p.workers[i]? = some (.working e es n) ∧ t ≠ i + 1

/-- The questions of a turn that writes nothing. -/
theorem puts_of_reads {p p' : Pool} {t : Nat} {new : List (Exchange σ)} {s' : σ}
    (hreads : ∀ x ∈ new, x.writes = false)
    (still : Stopping raised p' s' → ∀ i e es n, p'.workers[i]? = some (.working e es n) →
      p.workers[i]? = some (.working e es n) ∧ t ≠ i + 1) : Puts raised p t new p' s' where
  once := by
    rw [List.countP_eq_zero.2 fun x hx => by simp [hreads x hx]]
    exact Nat.zero_le 1
  own x hx hw := by
    rw [hreads x hx] at hw
    cases hw
  still := still

/-- The questions of a turn in which a worker works on its entry. -/
theorem puts_of_work (hact : WorksOn S act) {p p' : Pool} {l r : List Worker} {w' : Worker}
    {e : Entry} {es : List Entry} {n : Nat} {x : Except VaultError Bool} {s s' : Logged σ}
    (hw : p.workers = l ++ .working e es n :: r) (hw' : p'.workers = l ++ w' :: r)
    (hn : ∀ e es n, w' ≠ .working e es n) (ha : (act e).Ends (logged S) s x s') :
    ∃ new, s'.log = new ++ s.log ∧ Puts raised p (l.length + 1) new p' s'.state := by
  obtain ⟨new, hlog, -, honce, hown⟩ := hact ha
  refine ⟨new, hlog, honce, fun x hx hwrites => ⟨l.length, e, es, n, rfl, ?_, hown x hx hwrites⟩,
    fun _ i e es n h => ?_⟩
  · rw [hw, List.getElem?_append_right (Nat.le_refl _), Nat.sub_self, List.getElem?_cons_zero]
  · rw [hw'] at h
    rw [hw]
    exact working_of_set hn h

/-- **The questions of a turn.** -/
theorem Turn.puts (hS : Watched S raised) (hact : WorksOn S act) {p p' : Pool}
    {s s' : Logged σ} {t : Nat} (h : Turn (logged S) act p s t p' s') :
    ∃ new, s'.log = new ++ s.log ∧ Puts raised p t new p' s'.state := by
  have hlook : ∀ {u : Logged σ} {c : Cancellation}, logged S .cancellation s c u →
      ∀ x ∈ [(⟨.cancellation, c, u.state⟩ : Exchange σ)], x.writes = false := fun _ =>
    List.forall_mem_singleton.2 rfl
  cases h with
  | idle hidle =>
      refine ⟨[], rfl, puts_of_reads (by simp) fun _ i e es n h => ⟨h, ?_⟩⟩
      rintro rfl
      simp [Pool.goesOn, h, Pool.workerGoesOn] at hidle
  | drained hf | deserted hf | sent hf | full hf =>
      exact ⟨[], rfl, puts_of_reads (by simp) fun _ i e es n h => ⟨h, by omega⟩⟩
  | stopped hf hc | looked hf hc =>
      exact ⟨_, hc.2, puts_of_reads (hlook hc) fun _ i e es n h => ⟨h, by omega⟩⟩
  | left hw hc | waits hw hc | dropped hw hc =>
      refine ⟨_, hc.2, puts_of_reads (hlook hc) fun _ i e es n h => ?_⟩
      rw [hw]
      refine working_of_set (fun _ _ _ hw' => ?_) h
      cases hw'
  | took hw | dismissed hw | polled hw | reported hw | halts hw | announced hw =>
      refine ⟨[], rfl, puts_of_reads (by simp) fun _ i e es n h => ?_⟩
      rw [hw]
      refine working_of_set (fun _ _ _ hw' => ?_) h
      cases hw'
  | picked hw hc hs =>
      -- the look of this turn has found no reason to stop
      refine ⟨_, hc.2, puts_of_reads (hlook hc) fun hstop => ?_⟩
      rw [Bool.or_eq_false_iff] at hs
      rcases hstop with hr | hh
      · rw [(hS.tells _ _ _ hc.1).2 hr] at hs
        cases hs.1
      · exact absurd hh (ne_true_of_eq_false hs.2)
  | worked hw ha =>
      refine puts_of_work hact hw rfl (fun _ _ _ hw' => ?_) ha
      cases hw'
  | failed hw ha =>
      refine puts_of_work hact hw rfl (fun _ _ _ hw' => ?_) ha
      cases hw'

/-- The halt stays raised. -/
theorem Turn.stays_halted {p p' : Pool} {s s' : σ} {t : Nat} (h : Turn S act p s t p' s')
    (hp : p.halted = true) : p'.halted = true := by
  cases h with
  | halts hw => rfl
  | idle | drained | stopped | looked | deserted | sent | full | left | waits | took | dismissed
  | polled | reported | dropped | picked | worked | failed | announced => exact hp

/-- A pool that has to stop still has to after one more turn. -/
theorem Stopping.step (hS : Watched S raised) {p p' : Pool} {s s' : Logged σ} {t : Nat}
    (hstop : Stopping raised p s.state) (h : (p.step act t).Ends (logged S) s p' s') :
    Stopping raised p' s'.state := by
  rcases hstop with hr | hh
  · exact .inl (h.forget.keeps hS.keeps hr)
  · exact .inr ((turn_of_step h).stays_halted hh)

/-! ### Turns after a stop -/

theorem heeded_start (p : Pool) : Heeded (σ := σ) p [] p where
  once _ := Nat.zero_le 1
  own _ _ hx := absurd hx List.not_mem_nil
  still _ _ _ _ h := ⟨h, rfl⟩

/-- The writes of a worker among the questions of one thread. -/
theorem countP_commits_map (i t : Nat) (new : List (Exchange σ)) :
    (new.map (t, ·)).countP (commits i) = if t = i + 1 then new.countP Exchange.writes else 0 := by
  rw [List.countP_map]
  split
  · rename_i ht
    exact List.countP_congr fun x _ => by simp [commits, ht]
  · rename_i ht
    exact List.countP_eq_zero.2 fun x _ => by simp [commits, ht]

/-- **One more turn**, or the last part of one, after which the pool has to stop. -/
theorem Heeded.turn {p q q' : Pool} {since : List (Nat × Exchange σ)} {t : Nat}
    {part new : List (Exchange σ)} {u' : σ} (h : Heeded p since q)
    (hputs : Puts raised q t new q' u') (hpart : part.Sublist new)
    (hstop : Stopping raised q' u') : Heeded p (part.map (t, ·) ++ since) q' where
  once i := by
    rw [List.countP_append, countP_commits_map]
    split
    · rename_i ht
      rcases Nat.eq_zero_or_pos (part.countP Exchange.writes) with hzero | hpos
      · rw [hzero, Nat.zero_add]
        exact h.once i
      · -- the worker had not written its entry before
        obtain ⟨x, hx, hw⟩ := List.countP_pos_iff.1 hpos
        obtain ⟨j, e, es, n, hj, hq, -⟩ := hputs.own x (hpart.subset hx) hw
        obtain rfl : i = j := by omega
        rw [(h.still i e es n hq).2]
        exact Nat.le_trans hpart.countP_le hputs.once
    · rw [Nat.zero_add]
      exact h.once i
  own t' x hx hw := by
    rcases List.mem_append.1 hx with hx | hx
    · obtain ⟨y, hy, heq⟩ := List.mem_map.1 hx
      obtain ⟨rfl, rfl⟩ := Prod.mk.inj heq
      obtain ⟨i, e, es, n, ht, hq, htarget⟩ := hputs.own y (hpart.subset hy) hw
      exact ⟨i, e, es, n, ht, (h.still i e es n hq).1, htarget⟩
    · exact h.own t' x hx hw
  still i e es n hw := by
    obtain ⟨hq, ht⟩ := hputs.still hstop i e es n hw
    obtain ⟨hp, hzero⟩ := h.still i e es n hq
    rw [List.countP_append, countP_commits_map, if_neg ht, hzero]
    exact ⟨hp, rfl⟩

/-- **Any turns after a stop.** -/
theorem Course.heeded (hS : Watched S raised) (hact : WorksOn S act) {p₀ p p' : Pool}
    {s s' : Logged σ} {since asked : List (Nat × Exchange σ)} (h : Course S act p s asked p' s')
    (hstop : Stopping raised p s.state) (hsince : Heeded p₀ since p) :
    Stopping raised p' s'.state ∧ Heeded p₀ (asked ++ since) p' := by
  induction h with
  | start => exact ⟨hstop, hsince⟩
  | turn h ht hn ih =>
      obtain ⟨hstop', hheeded⟩ := ih
      have hstop'' := hstop'.step hS ht
      obtain ⟨new, hlog, hputs⟩ := (turn_of_step ht).puts hS hact
      obtain rfl := List.append_cancel_right (hn.symm.trans hlog)
      rw [List.append_assoc]
      exact ⟨hstop'', hheeded.turn hputs (List.Sublist.refl _) hstop''⟩

/-- **A cancellation in the course of a turn**, at some question of it, and any turns after it. -/
theorem Course.heeded_of_raised (hS : Watched S raised) (hact : WorksOn S act) {p q p' : Pool}
    {s u s' : Logged σ} {t : Nat} {after before : List (Exchange σ)} {x : Exchange σ}
    {asked : List (Nat × Exchange σ)} (ht : (p.step act t).Ends (logged S) s q u)
    (hlog : u.log = after ++ x :: before ++ s.log) (hx : raised x.after)
    (h : Course S act q u asked p' s') :
    Heeded p (asked ++ (after ++ [x]).map (t, ·)) p' := by
  obtain ⟨new, hnew, hputs⟩ := (turn_of_step ht).puts hS hact
  obtain ⟨told, htold, hends⟩ := ht.told hS
  obtain rfl := List.append_cancel_right (hlog.symm.trans hnew)
  obtain rfl := List.append_cancel_right (hlog.symm.trans htold)
  have hstop : Stopping raised q u.state :=
    .inl (hends.ends x (List.mem_append_right _ List.mem_cons_self) hx)
  have hpart : (after ++ [x]).Sublist (after ++ x :: before) :=
    List.Sublist.append_left (List.singleton_sublist.2 List.mem_cons_self) after
  have hturn := (heeded_start p).turn hputs hpart hstop
  rw [List.append_nil] at hturn
  exact (h.heeded hS hact hstop hturn).2

/-! ### Runs -/

/-- The questions of a course are those of its log. -/
theorem Course.log_eq {p p' : Pool} {s s' : Logged σ} {asked : List (Nat × Exchange σ)}
    (h : Course S act p s asked p' s') : s'.log = asked.map (·.2) ++ s.log := by
  induction h with
  | start => rfl
  | turn h ht hn ih =>
      have hnew : ∀ (t : Nat) (new : List (Exchange σ)), (new.map (t, ·)).map (·.2) = new := by
        intro t new
        rw [List.map_map]
        exact List.map_id' new
      rw [hn, ih, List.map_append, hnew, List.append_assoc]

/-- A course goes on with one more step. -/
theorem Course.step {p₀ p p' : Pool} {s₀ s s' : Logged σ} {asked : List (Nat × Exchange σ)}
    (h : Course S act p₀ s₀ asked p s) {t : Nat}
    (ht : (p.step act t).Ends (logged S) s p' s') : ∃ asked, Course S act p₀ s₀ asked p' s' := by
  obtain ⟨new, hnew⟩ := ht.grows
  exact ⟨_, h.turn ht hnew⟩

/-- A course goes on with the turns of a list. -/
theorem Course.follow {p₀ p p' : Pool} {s₀ s s' : Logged σ} {asked : List (Nat × Exchange σ)}
    (h : Course S act p₀ s₀ asked p s) {turns : List Nat}
    (hrun : (p.follow act turns).Ends (logged S) s p' s') :
    ∃ asked, Course S act p₀ s₀ asked p' s' := by
  induction turns generalizing p s asked with
  | nil =>
      obtain ⟨rfl, rfl⟩ := hrun
      exact ⟨asked, h⟩
  | cons t turns ih =>
      obtain ⟨q, u, ht, hrun⟩ := Program.ends_bind.1 hrun
      obtain ⟨_, h⟩ := h.step ht
      exact ih h hrun

/-- A course goes on until no thread can go on. -/
theorem Course.finish {p₀ p p' : Pool} {s₀ s s' : Logged σ} {asked : List (Nat × Exchange σ)}
    (h : Course S act p₀ s₀ asked p s) {rounds : Nat}
    (hrun : (Pool.finish act rounds p).Ends (logged S) s p' s') :
    ∃ asked, Course S act p₀ s₀ asked p' s' := by
  induction rounds generalizing p s asked with
  | zero =>
      obtain ⟨rfl, rfl⟩ := hrun
      exact ⟨asked, h⟩
  | succ rounds ih =>
      simp only [Pool.finish] at hrun
      split at hrun
      · obtain ⟨rfl, rfl⟩ := hrun
        exact ⟨asked, h⟩
      · obtain ⟨q, u, ht, hrun⟩ := Program.ends_bind.1 hrun
        obtain ⟨_, h⟩ := h.step ht
        exact ih h hrun

/-- **A run of the pool is a course** from its start. -/
theorem run_course {rules : RotationRules} {entries : List Entry} {p : Pool} {s s' : Logged σ}
    (h : (Pool.run act rules entries).Ends (logged S) s p s') :
    ∃ turns t asked, logged S .turns s turns t ∧
      Course S act (Pool.start (batches rules.batchSize entries) rules.queueDepth
        (min rules.workers (batches rules.batchSize entries).length)) t asked p s' := by
  obtain ⟨turns, t, hturns, h⟩ := Program.ends_reply_bind.1 h
  obtain ⟨q, u, hfollow, hfinish⟩ := Program.ends_bind.1 h
  obtain ⟨_, hcourse⟩ := Course.start.follow hfollow
  obtain ⟨asked, hcourse⟩ := hcourse.finish hfinish
  exact ⟨turns, t, asked, hturns, hcourse⟩

end

end Strongbox.Rotation
