import Strongbox.Proofs.Rotation.Turn

/-!
# Rotation — the accounts of the pool

What a pool has worked on, what it still holds and what it dropped because of a stop are together
the entries it was given, each once.  Its reports and the counts that the workers have not yet
reported add up to the entries counted in the journal, and no failure in the journal is lost on the
way to the reports.

* `Kept`: these accounts, with what is known once a worker has ended.
* `Turn.kept`: every turn keeps the accounts.
* `run_settled`: at the end of a run nothing is held any more, and what was dropped was dropped
  because of a stop.
-/

namespace Strongbox.Rotation

variable {σ : Type} {S : Surroundings σ} {act : Entry → Job Bool} {raised : σ → Prop}
  {es : List Entry}

/-! ### What the threads hold -/

/-- The entries that a worker still holds. -/
def Worker.inHand : Worker → List Entry
  | holding left _ => left
  | working e left _ => e :: left
  | _ => []

/-- The number of finished entries that a worker has not reported. -/
def Worker.unreported : Worker → Nat
  | holding _ n | working _ _ n | failing _ n | reporting _ n => n
  | _ => 0

/-- The failure that a worker has not reported. -/
def Worker.failure? : Worker → Option VaultError
  | failing failure _ | reporting failure _ => some failure
  | _ => none

/-- The entries that the feeder still holds. -/
def Feeder.left : Feeder → List Entry
  | looking bs => bs.flatten
  | sending b bs => b ++ bs.flatten
  | closed => []

/-- The work on the entry went through and counts. -/
def Handled.counts (h : Handled) : Bool :=
  match h.outcome with
  | .ok counts => counts
  | .error _ => false

/-- The failure of the work on the entry. -/
def Handled.failure? (h : Handled) : Option VaultError :=
  match h.outcome with
  | .ok _ => none
  | .error failure => some failure

@[simp] theorem Handled.counts_ok (i : Nat) (e : Entry) (b : Bool) :
    Handled.counts ⟨i, e, .ok b⟩ = b := rfl

/-- The entries that the threads still hold. -/
def Pool.pending (p : Pool) : List Entry :=
  p.workers.flatMap Worker.inHand ++ (p.queue.flatten ++ p.feeder.left)

/-! ### Reasons to stop -/

/-- The threads have reason to stop. -/
def Stops (raised : σ → Prop) (p : Pool) (s : σ) : Prop :=
  p.journal.filterMap Handled.failure? ≠ [] ∨ raised s

theorem Turn.state {I : σ → Prop} (hI : ∀ r s x s', S r s x s' → I s → I s') {p p' : Pool}
    {s s' : σ} {t : Nat} (h : Turn S act p s t p' s') (hs : I s) : I s' := by
  cases h with
  | stopped _ hc | looked _ hc | left _ hc | waits _ hc | dropped _ hc | picked _ hc =>
      exact hI _ _ _ _ hc hs
  | worked _ ha | failed _ ha => exact Program.Ends.keeps hI ha hs
  | idle | drained | deserted | sent | full | took | dismissed | polled | reported | halts
  | announced => exact hs

/-- The journal only grows. -/
theorem Turn.journal_suffix {p p' : Pool} {s s' : σ} {t : Nat} (h : Turn S act p s t p' s') :
    p.journal <:+ p'.journal := by
  cases h with
  | worked | failed => exact List.suffix_cons _ _
  | idle | drained | stopped | looked | deserted | sent | full | left | waits | took | dismissed
  | polled | reported | dropped | picked | halts | announced => exact List.suffix_rfl

theorem Turn.stops (hS : Watched S raised) {p p' : Pool} {s s' : σ} {t : Nat}
    (h : Turn S act p s t p' s') (hs : Stops raised p s) : Stops raised p' s' := by
  rcases hs with hs | hs
  · obtain ⟨f, hf⟩ := List.exists_mem_of_ne_nil _ hs
    exact .inl (List.ne_nil_of_mem ((h.journal_suffix.sublist.filterMap _).mem hf))
  · exact .inr (h.state hS.keeps hs)

/-! ### The accounts -/

/-- The accounts of a pool that was given the entries `es`. -/
structure Kept (raised : σ → Prop) (es : List Entry) (p : Pool) (s : σ) : Prop where
  /-- What was worked on, what is held, and what was dropped because of a stop. -/
  shares : ∃ dropped, (p.journal.map (·.entry) ++ (p.pending ++ dropped)).Perm es ∧
    (dropped ≠ [] → Stops raised p s)
  counts : Pool.total (·.finished) p.reports + Pool.total Worker.unreported p.workers
    = p.journal.countP Handled.counts
  failures : (p.reports.filterMap (·.failure) ++ p.workers.filterMap Worker.failure?).Perm
    (p.journal.filterMap Handled.failure?)
  halted : p.halted = true → p.journal.filterMap Handled.failure? ≠ []
  /-- A worker ends when it sees a stop or when no batch can come any more. -/
  gone : .gone ∈ p.workers → Stops raised p s ∨ (p.feeder = .closed ∧ p.queue = [])
  workers : p.workers ≠ []
  depth : 0 < p.depth

/-- Who saw a stop was right. -/
theorem Kept.stops_of_seen (hS : Watched S raised) {p : Pool} {s s' : σ} {c : Cancellation}
    (hk : Kept raised es p s) (hc : S .cancellation s c s') (h : (c.raised || p.halted) = true) :
    Stops raised p s' := by
  rcases Bool.or_eq_true_iff.1 h with h | h
  · exact .inr ((hS.tells _ _ _ hc).1 h)
  · exact .inl (hk.halted h)

/-- A failure that a worker has not reported yet is in the journal. -/
theorem Kept.failure_mem {p : Pool} {s : σ} (hk : Kept raised es p s) {w : Worker}
    {failure : VaultError} (hw : w ∈ p.workers) (hf : w.failure? = some failure) :
    failure ∈ p.journal.filterMap Handled.failure? :=
  hk.failures.mem_iff.1 (List.mem_append_right _ (List.mem_filterMap.2 ⟨w, hw, hf⟩))

/-- Where the entries that a turn moves from the threads to those dropped are right, the turn keeps
the shares. -/
theorem Turn.shares_of_moved (hS : Watched S raised) {p p' : Pool} {s s' : σ} {t : Nat}
    (h : Turn S act p s t p' s') (hk : Kept raised es p s) (moved : List Entry)
    (hm : moved ≠ [] → Stops raised p' s')
    (hx : ∀ x, (p'.journal.map (·.entry)).count x + p'.pending.count x + moved.count x
      = (p.journal.map (·.entry)).count x + p.pending.count x) :
    ∃ dropped, (p'.journal.map (·.entry) ++ (p'.pending ++ dropped)).Perm es ∧
      (dropped ≠ [] → Stops raised p' s') := by
  obtain ⟨d, hperm, hd⟩ := hk.shares
  refine ⟨moved ++ d, List.perm_iff_count.2 fun x => ?_, fun hne => ?_⟩
  · have := hperm.count_eq x
    have := hx x
    simp only [List.count_append] at *
    omega
  · by_cases e : moved = []
    · exact h.stops hS (hd fun e' => hne (by rw [e, e', List.append_nil]))
    · exact hm e

theorem Turn.shares (hS : Watched S raised) {p p' : Pool} {s s' : σ} {t : Nat}
    (h : Turn S act p s t p' s') (hk : Kept raised es p s) :
    ∃ dropped, (p'.journal.map (·.entry) ++ (p'.pending ++ dropped)).Perm es ∧
      (dropped ≠ [] → Stops raised p' s') := by
  have key := h.shares_of_moved hS hk
  have still := key [] (fun h => absurd rfl h)
  cases h with
  | idle => exact hk.shares
  | drained hf =>
      exact still fun x => by simp [Pool.pending, hf, Feeder.left]
  | stopped hf hc hs =>
      refine key p.feeder.left (fun _ => hk.stops_of_seen hS hc hs) (fun x => ?_)
      simp only [Pool.pending, Feeder.left, List.count_append, List.count_nil]
      omega
  | deserted hf hw =>
      refine key p.feeder.left (fun _ => ?_) (fun x => ?_)
      · -- the feeder was still at work, so whoever ended had seen a stop
        have hg : .gone ∈ p.workers := by
          obtain ⟨w, hm⟩ := List.exists_mem_of_ne_nil _ hk.workers
          have := List.all_eq_true.1 hw w hm
          cases w with
          | gone => exact hm
          | looking | waiting | holding | working | failing | reporting => cases this
        rcases hk.gone hg with h | ⟨h, -⟩
        · exact h
        · rw [hf] at h
          cases h
      · simp only [Pool.pending, Feeder.left, List.count_append, List.count_nil]
        omega
  | looked hf | full hf =>
      exact still fun x => by simp [Pool.pending, hf, Feeder.left]
  | sent hf =>
      refine still fun x => ?_
      simp only [Pool.pending, hf, Feeder.left, List.flatten_append, List.flatten_cons,
        List.flatten_nil, List.count_append, List.count_nil]
      omega
  | took hw hq =>
      refine still fun x => ?_
      simp only [Pool.pending, hw, hq, Worker.inHand, List.flatMap_append, List.flatMap_cons,
        List.flatten_cons, List.nil_append, List.count_append, List.count_nil]
      omega
  | dropped hw hc hs =>
      rename_i e left n c
      refine key (e :: left) (fun _ => hk.stops_of_seen hS hc hs) (fun x => ?_)
      simp only [Pool.pending, Pool.addReport, hw, Worker.inHand, List.flatMap_append,
        List.flatMap_cons, List.count_append, List.count_nil]
      omega
  | worked hw =>
      refine still fun x => ?_
      simp only [Pool.pending, Pool.note, hw, Worker.inHand, List.flatMap_append,
        List.flatMap_cons, List.map_cons, List.count_append, List.count_cons, List.count_nil]
      omega
  | failed hw =>
      -- the rest of the batch goes with the entry that failed
      rename_i e left n failure _
      refine key left (fun _ => .inl (by simp [Pool.note, Handled.failure?])) (fun x => ?_)
      simp only [Pool.pending, Pool.note, hw, Worker.inHand, List.flatMap_append,
        List.flatMap_cons, List.map_cons, List.count_append, List.count_cons, List.count_nil]
      omega
  | left hw | waits hw | dismissed hw | polled hw | reported hw | picked hw | halts hw
  | announced hw =>
      refine still fun x => ?_
      simp only [Pool.pending, Pool.addReport, hw, Worker.inHand, List.flatMap_append,
        List.flatMap_cons, List.count_append, List.count_nil]
      omega

theorem Turn.counts {p p' : Pool} {s s' : σ} {t : Nat} (h : Turn S act p s t p' s')
    (hk : Pool.total (·.finished) p.reports + Pool.total Worker.unreported p.workers
      = p.journal.countP Handled.counts) :
    Pool.total (·.finished) p'.reports + Pool.total Worker.unreported p'.workers
      = p'.journal.countP Handled.counts := by
  cases h with
  | idle | drained | stopped | looked | deserted | sent | full => exact hk
  | worked hw =>
      rename_i counts _
      rw [hw] at hk
      cases counts <;>
        simp only [Pool.note, Worker.unreported, Pool.total_append, Pool.total, List.countP_cons,
          Handled.counts] at hk ⊢ <;>
        simp only [if_true, if_false, Bool.false_eq_true] <;> omega
  | failed hw =>
      rw [hw] at hk
      simp only [Pool.note, Worker.unreported, Pool.total_append, Pool.total, List.countP_cons,
        Handled.counts, Bool.false_eq_true, if_false] at hk ⊢
      omega
  | left hw | waits hw | took hw | dismissed hw | polled hw | reported hw | dropped hw | picked hw
  | halts hw | announced hw =>
      rw [hw] at hk
      simp only [Pool.addReport, Worker.unreported, Pool.total_append, Pool.total] at hk ⊢
      omega

theorem Turn.failures {p p' : Pool} {s s' : σ} {t : Nat} (h : Turn S act p s t p' s')
    (hk : (p.reports.filterMap (·.failure) ++ p.workers.filterMap Worker.failure?).Perm
      (p.journal.filterMap Handled.failure?)) :
    (p'.reports.filterMap (·.failure) ++ p'.workers.filterMap Worker.failure?).Perm
      (p'.journal.filterMap Handled.failure?) := by
  cases h with
  | idle | drained | stopped | looked | deserted | sent | full => exact hk
  | worked hw | failed hw | left hw | waits hw | took hw | dismissed hw | polled hw | reported hw
  | dropped hw | picked hw | halts hw | announced hw =>
      rw [hw] at hk
      refine List.perm_iff_count.2 fun x => ?_
      have := hk.count_eq x
      simp only [Pool.note, Pool.addReport, Worker.failure?, Handled.failure?,
        List.filterMap_append, List.filterMap_cons, List.filterMap_nil, List.count_append,
        List.count_cons, List.count_nil] at this ⊢
      omega

theorem Turn.halted {p p' : Pool} {s s' : σ} {t : Nat} (h : Turn S act p s t p' s')
    (hk : Kept raised es p s) (hp : p'.halted = true) :
    p'.journal.filterMap Handled.failure? ≠ [] := by
  cases h with
  | halts hw =>
      exact List.ne_nil_of_mem (hk.failure_mem (hw ▸ List.mem_append_cons_self) rfl)
  | worked | failed =>
      have := hk.halted hp
      simp_all [Pool.note, List.filterMap_cons, Handled.failure?]
  | idle | drained | stopped | looked | deserted | sent | full | left | waits | took | dismissed
  | polled | reported | dropped | picked | announced => exact hk.halted hp

theorem Turn.gone (hS : Watched S raised) {p p' : Pool} {s s' : σ} {t : Nat}
    (h : Turn S act p s t p' s') (hk : Kept raised es p s) (hg : .gone ∈ p'.workers) :
    Stops raised p' s' ∨ (p'.feeder = .closed ∧ p'.queue = []) := by
  -- a worker that had ended before
  have old : .gone ∈ p.workers → (p.feeder = .closed → p.queue = [] →
      p'.feeder = .closed ∧ p'.queue = []) →
      Stops raised p' s' ∨ (p'.feeder = .closed ∧ p'.queue = []) := by
    intro hg hp
    rcases hk.gone hg with hs | ⟨hf, hq⟩
    · exact .inl (h.stops hS hs)
    · exact .inr (hp hf hq)
  cases h with
  | idle => exact hk.gone hg
  | drained hf | stopped hf | looked hf | deserted hf | sent hf | full hf =>
      exact old hg fun hc => by simp [hf] at hc
  | left hw hc hs => exact .inl (hk.stops_of_seen hS hc hs)
  | dismissed hw hq hf => exact .inr ⟨hf, hq⟩
  | announced hw =>
      have hm := hk.failure_mem (hw ▸ List.mem_append_cons_self) rfl
      exact .inl (.inl (List.ne_nil_of_mem hm))
  | took hw hq =>
      refine old ?_ fun _ h => by simp [hq] at h
      rw [hw]
      simpa using hg
  | waits hw | polled hw | reported hw | dropped hw | picked hw | worked hw | failed hw
  | halts hw =>
      refine old ?_ fun hf hq => ⟨hf, hq⟩
      rw [hw]
      simpa [Pool.addReport, Pool.note] using hg

theorem Turn.workers {p p' : Pool} {s s' : σ} {t : Nat} (h : Turn S act p s t p' s')
    (hk : p.workers ≠ []) : p'.workers ≠ [] := by
  cases h <;> first | exact hk | simp

theorem Turn.depth {p p' : Pool} {s s' : σ} {t : Nat} (h : Turn S act p s t p' s') :
    p'.depth = p.depth := by
  cases h <;> rfl

/-- **Every turn keeps the accounts.** -/
theorem Turn.kept (hS : Watched S raised) {p p' : Pool} {s s' : σ} {t : Nat}
    (h : Turn S act p s t p' s') (hk : Kept raised es p s) : Kept raised es p' s' where
  shares := h.shares hS hk
  counts := h.counts hk.counts
  failures := h.failures hk.failures
  halted := h.halted hk
  gone := h.gone hS hk
  workers := h.workers hk.workers
  depth := h.depth ▸ hk.depth

/-- A pool with batches of the entries and at least one worker. -/
theorem kept_start {bs : List (List Entry)} {depth workers : Nat} (hw : 0 < workers) (s : σ) :
    Kept raised bs.flatten (Pool.start bs depth workers) s where
  shares := ⟨[], by
    simp [Pool.start, Pool.pending, Feeder.left, Worker.inHand, List.flatMap_replicate], by simp⟩
  counts := by
    have hu : Pool.total Worker.unreported (List.replicate workers .looking) = 0 :=
      Pool.total_eq_zero fun w hm => by rw [(List.mem_replicate.1 hm).2]; rfl
    exact (Nat.zero_add _).trans hu
  failures := by simp [Pool.start, Worker.failure?, List.filterMap_replicate]
  halted := by simp [Pool.start]
  gone := by simp [Pool.start]
  workers := by simp only [Pool.start, ne_eq, List.replicate_eq_nil_iff]; omega
  depth := by simp only [Pool.start]; omega

/-! ### The end of a run -/

/-- The accounts of a pool whose threads have all ended. -/
structure Settled (raised : σ → Prop) (es : List Entry) (p : Pool) (s : σ) : Prop where
  /-- What was worked on, and what was dropped because of a stop. -/
  shares : ∃ dropped, (p.journal.map (·.entry) ++ dropped).Perm es ∧
    (dropped ≠ [] → Stops raised p s)
  counts : Pool.total (·.finished) p.reports = p.journal.countP Handled.counts
  failures : (p.reports.filterMap (·.failure)).Perm (p.journal.filterMap Handled.failure?)

theorem Kept.settled {p : Pool} {s : σ} (hk : Kept raised es p s) (he : p.Ended) :
    Settled raised es p s := by
  obtain ⟨hf, hw⟩ := he
  have hg : p.workers = List.replicate p.workers.length .gone :=
    List.eq_replicate_iff.2 ⟨rfl, hw⟩
  refine ⟨?_, ?_, ?_⟩
  · obtain ⟨d, hp, hd⟩ := hk.shares
    have hpend : p.pending = p.queue.flatten := by
      rw [Pool.pending, hf, hg]
      simp [Worker.inHand, Feeder.left]
    refine ⟨p.queue.flatten ++ d, by rwa [hpend] at hp, fun hne => ?_⟩
    obtain ⟨w, hm⟩ := List.exists_mem_of_ne_nil _ hk.workers
    rcases hk.gone (hw w hm ▸ hm) with hs | ⟨-, hq⟩
    · exact hs
    · exact hd fun e => hne (by rw [hq, e]; rfl)
  · have hu : Pool.total Worker.unreported p.workers = 0 :=
      Pool.total_eq_zero fun w hm => by rw [hw w hm]; rfl
    have hc := hk.counts
    rwa [hu, Nat.add_zero] at hc
  · have := hk.failures
    rw [hg] at this
    simpa [Worker.failure?, List.filterMap_replicate] using this

/-- If no worker failed and nobody had cancelled, every entry was worked on. -/
theorem Settled.all_worked {p : Pool} {s : σ} (hk : Settled raised es p s)
    (hj : ∀ h ∈ p.journal, h.failure? = none) (hr : ¬ raised s) :
    (p.journal.map (·.entry)).Perm es := by
  obtain ⟨dropped, hperm, hdrop⟩ := hk.shares
  have hd : dropped = [] := by
    by_contra hne
    rcases hdrop hne with hf | hs
    · exact hf (List.filterMap_eq_nil_iff.2 hj)
    · exact hr hs
  rwa [hd, List.append_nil] at hperm

/-- Whatever the end, no entry was worked on twice, nor any other entry. -/
theorem Settled.subperm {p : Pool} {s : σ} (hk : Settled raised es p s) :
    (p.journal.map (·.entry)).Subperm es := by
  obtain ⟨dropped, hperm, -⟩ := hk.shares
  exact (List.sublist_append_left _ _).subperm.trans hperm.subperm

/-- What the journal tells of the surroundings. -/
structure Recorded (S : Surroundings σ) (act : Entry → Job Bool) (es : List Entry)
    (J : List Handled → σ → Prop) : Prop where
  cancellation : ∀ j s c s', S .cancellation s c s' → J j s → J j s'
  turns : ∀ j s x s', S .turns s x s' → J j s → J j s'
  work : ∀ j i e s r s', (e :: j.map (·.entry)).Subperm es → (act e).Ends S s r s' → J j s →
    J (⟨i, e, r⟩ :: j) s'

theorem Turn.recorded {J : List Handled → σ → Prop} (hJ : Recorded S act es J) {p p' : Pool}
    {s s' : σ} {t : Nat} (h : Turn S act p s t p' s') (hk : Kept raised es p s)
    (hp : J p.journal s) : J p'.journal s' := by
  have next : ∀ {l r : List Worker} {e : Entry} {left : List Entry} {n : Nat},
      p.workers = l ++ .working e left n :: r → (e :: p.journal.map (·.entry)).Subperm es := by
    intro l r e left n hw
    obtain ⟨d, hperm, -⟩ := hk.shares
    refine List.Subperm.trans (List.subperm_ext_iff.2 fun x _ => ?_) hperm.subperm
    simp only [Pool.pending, hw, Worker.inHand, List.flatMap_append, List.flatMap_cons,
      List.count_append, List.count_cons]
    omega
  cases h with
  | stopped _ hc | looked _ hc | left _ hc | waits _ hc | dropped _ hc | picked _ hc =>
      exact hJ.cancellation _ _ _ _ hc hp
  | worked hw ha => exact hJ.work _ _ _ _ _ _ (next hw) ha hp
  | failed hw ha => exact hJ.work _ _ _ _ _ _ (next hw) ha hp
  | idle | drained | deserted | sent | full | took | dismissed | polled | reported | halts
  | announced => exact hp

/-- **The accounts are settled at the end of a run**, with what the journal tells. -/
theorem run_settled (hS : Watched S raised) {J : List Handled → σ → Prop}
    {rules : RotationRules} {entries : List Entry} (hJ : Recorded S act entries J)
    (hw : 0 < rules.workers) (he : entries ≠ []) {p : Pool} {s s' : σ}
    (h : (Pool.run act rules entries).Ends S s p s') (h₀ : J [] s) :
    p.Ended ∧ Settled raised entries p s' ∧ J p.journal s' := by
  have hflat : (batches rules.batchSize entries).flatten = entries := flatten_batches entries
  have hb : 0 < (batches rules.batchSize entries).length := by
    rw [List.length_pos_iff]
    intro e
    rw [e] at hflat
    exact he hflat.symm
  have hk : ∀ t, Kept raised entries (Pool.start (batches rules.batchSize entries)
      rules.queueDepth (min rules.workers (batches rules.batchSize entries).length)) t := by
    intro t
    have hstart : Kept raised (batches rules.batchSize entries).flatten
        (Pool.start (batches rules.batchSize entries) rules.queueDepth
          (min rules.workers (batches rules.batchSize entries).length)) t :=
      kept_start (Nat.lt_min.2 ⟨hw, hb⟩) t
    rwa [hflat] at hstart
  obtain ⟨hend, hk, hp⟩ := run_ends (I := fun p s => Kept raised entries p s ∧ J p.journal s)
    (fun ht hi => ⟨ht.kept hS hi.1, ht.recorded hJ hi.1 hi.2⟩) h
    (fun hx => ⟨hk _, hJ.turns _ _ _ _ hx h₀⟩) (fun hi => hi.1.depth)
  exact ⟨hend, hk.settled hend, hp⟩

end Strongbox.Rotation
