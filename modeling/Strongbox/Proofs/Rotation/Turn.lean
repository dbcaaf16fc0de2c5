import Mathlib.Data.List.Perm.Subperm
import Strongbox.Proofs.Program.Ends
import Strongbox.Rotation.Pool

/-!
# Rotation — what a turn of the pool can do

`Turn` lists the turns of a pool, thread by thread, with what each asks of the surroundings.  Every
run of `Pool.step` is one of them (`turn_of_step`), so a fact about the pool is proved by cases on
`Turn` and never opens the step itself.

* `Turn.cost_lt`: a turn of a thread that can do more than wait lowers the cost of the pool.
* `finish_ends`: with as many rounds as the pool costs, no thread can go on in the end.
* `ended_of_next?`: where no thread can go on, the feeder is closed and every worker has ended.
* `run_ends`: what every turn keeps holds at the end of a run, with all threads ended.
-/

namespace Strongbox.Rotation

variable {σ : Type} {S : Surroundings σ} {act : Entry → Job Bool}

namespace Pool

/-- A thread can do more than wait. -/
def goesOn (p : Pool) : (thread : Nat) → Bool
  | 0 => p.feederGoesOn
  | i + 1 => p.workers[i]?.any p.workerGoesOn

/-- Every thread has ended. -/
def Ended (p : Pool) : Prop :=
  p.feeder = .closed ∧ ∀ w ∈ p.workers, w = .gone

end Pool

/-! ### The turns -/

/-- From a pool and a state of the surroundings, a turn of a thread may lead to another pool and
state. -/
inductive Turn (S : Surroundings σ) (act : Entry → Job Bool) (p : Pool) (s : σ) :
    Nat → Pool → σ → Prop where
  /-- A thread that has ended, or that there is not. -/
  | idle {t : Nat} (h : p.goesOn t = false) : Turn S act p s t p s
  /-- The feeder has no batch left. -/
  | drained (hf : p.feeder = .looking []) : Turn S act p s 0 { p with feeder := .closed } s
  /-- The feeder sees that it has to stop. -/
  | stopped {b : List Entry} {bs : List (List Entry)} {c : Cancellation} {s' : σ}
      (hf : p.feeder = .looking (b :: bs)) (hc : S .cancellation s c s')
      (hs : (c.raised || p.halted) = true) : Turn S act p s 0 { p with feeder := .closed } s'
  /-- The feeder goes on with a batch. -/
  | looked {b : List Entry} {bs : List (List Entry)} {c : Cancellation} {s' : σ}
      (hf : p.feeder = .looking (b :: bs)) (hc : S .cancellation s c s')
      (hs : (c.raised || p.halted) = false) :
      Turn S act p s 0 { p with feeder := .sending b bs } s'
  /-- The feeder finds no worker left. -/
  | deserted {b : List Entry} {bs : List (List Entry)} (hf : p.feeder = .sending b bs)
      (hw : p.workers.all Worker.isGone = true) :
      Turn S act p s 0 { p with feeder := .closed } s
  /-- The feeder puts its batch into the queue. -/
  | sent {b : List Entry} {bs : List (List Entry)} (hf : p.feeder = .sending b bs)
      (hq : p.queue.length < p.depth) :
      Turn S act p s 0 { p with feeder := .looking bs, queue := p.queue ++ [b] } s
  /-- The feeder finds the queue full. -/
  | full {b : List Entry} {bs : List (List Entry)} (hf : p.feeder = .sending b bs)
      (hg : p.goesOn 0 = false) : Turn S act p s 0 { p with feeder := .looking (b :: bs) } s
  /-- A worker sees that it has to stop. -/
  | left {l r : List Worker} {c : Cancellation} {s' : σ} (hw : p.workers = l ++ .looking :: r)
      (hc : S .cancellation s c s') (hs : (c.raised || p.halted) = true) :
      Turn S act p s (l.length + 1) { p with workers := l ++ .gone :: r } s'
  /-- A worker goes on to wait for a batch. -/
  | waits {l r : List Worker} {c : Cancellation} {s' : σ} (hw : p.workers = l ++ .looking :: r)
      (hc : S .cancellation s c s') (hs : (c.raised || p.halted) = false) :
      Turn S act p s (l.length + 1) { p with workers := l ++ .waiting :: r } s'
  /-- A worker takes a batch. -/
  | took {l r : List Worker} {b : List Entry} {q : List (List Entry)}
      (hw : p.workers = l ++ .waiting :: r) (hq : p.queue = b :: q) :
      Turn S act p s (l.length + 1) { p with queue := q, workers := l ++ .holding b 0 :: r } s
  /-- A worker finds that no batch will come. -/
  | dismissed {l r : List Worker} (hw : p.workers = l ++ .waiting :: r) (hq : p.queue = [])
      (hf : p.feeder = .closed) :
      Turn S act p s (l.length + 1) { p with workers := l ++ .gone :: r } s
  /-- A worker has waited in vain. -/
  | polled {l r : List Worker} (hw : p.workers = l ++ .waiting :: r)
      (hg : p.goesOn (l.length + 1) = false) :
      Turn S act p s (l.length + 1) { p with workers := l ++ .looking :: r } s
  /-- A worker reports a finished batch. -/
  | reported {l r : List Worker} {n : Nat} (hw : p.workers = l ++ .holding [] n :: r) :
      Turn S act p s (l.length + 1) { p.addReport n none with workers := l ++ .looking :: r } s
  /-- A worker drops the rest of its batch because it has to stop. -/
  | dropped {l r : List Worker} {e : Entry} {es : List Entry} {n : Nat} {c : Cancellation} {s' : σ}
      (hw : p.workers = l ++ .holding (e :: es) n :: r) (hc : S .cancellation s c s')
      (hs : (c.raised || p.halted) = true) :
      Turn S act p s (l.length + 1) { p.addReport n none with workers := l ++ .looking :: r } s'
  /-- A worker turns to the next entry of its batch. -/
  | picked {l r : List Worker} {e : Entry} {es : List Entry} {n : Nat} {c : Cancellation} {s' : σ}
      (hw : p.workers = l ++ .holding (e :: es) n :: r) (hc : S .cancellation s c s')
      (hs : (c.raised || p.halted) = false) :
      Turn S act p s (l.length + 1) { p with workers := l ++ .working e es n :: r } s'
  /-- A worker works on an entry. -/
  | worked {l r : List Worker} {e : Entry} {es : List Entry} {n : Nat} {counts : Bool} {s' : σ}
      (hw : p.workers = l ++ .working e es n :: r) (ha : (act e).Ends S s (.ok counts) s') :
      Turn S act p s (l.length + 1)
        { p.note l.length e (.ok counts) with
          workers := l ++ .holding es (if counts then n + 1 else n) :: r } s'
  /-- A worker fails at an entry. -/
  | failed {l r : List Worker} {e : Entry} {es : List Entry} {n : Nat} {failure : VaultError}
      {s' : σ} (hw : p.workers = l ++ .working e es n :: r)
      (ha : (act e).Ends S s (.error failure) s') :
      Turn S act p s (l.length + 1)
        { p.note l.length e (.error failure) with workers := l ++ .failing failure n :: r } s'
  /-- A worker that failed raises the halt. -/
  | halts {l r : List Worker} {failure : VaultError} {n : Nat}
      (hw : p.workers = l ++ .failing failure n :: r) :
      Turn S act p s (l.length + 1)
        { p with halted := true, workers := l ++ .reporting failure n :: r } s
  /-- A worker that failed reports and ends. -/
  | announced {l r : List Worker} {failure : VaultError} {n : Nat}
      (hw : p.workers = l ++ .reporting failure n :: r) :
      Turn S act p s (l.length + 1)
        { p.addReport n (some failure) with workers := l ++ .gone :: r } s

/-! ### Every step is a turn -/

theorem mustStop_ends {p : Pool} {s s' : σ} {b : Bool} :
    p.mustStop.Ends S s b s' ↔ ∃ c, S .cancellation s c s' ∧ b = (c.raised || p.halted) := by
  constructor
  · rintro ⟨c, t, hc, rfl, rfl⟩
    exact ⟨c, hc, rfl⟩
  · rintro ⟨c, hc, rfl⟩
    exact ⟨c, s', hc, rfl, rfl⟩

/-- A program that looks for a stop and then chooses one of two pools. -/
theorem ends_mustStop_ite {p q q' : Pool} {s s' : σ} {a : Pool}
    (h : (p.mustStop.bind fun b => if b then .done q else .done q').Ends S s a s') :
    ∃ c, S .cancellation s c s' ∧ (((c.raised || p.halted) = true ∧ a = q) ∨
      ((c.raised || p.halted) = false ∧ a = q')) := by
  obtain ⟨b, t, hb, h⟩ := Program.ends_bind.1 h
  obtain ⟨c, hc, rfl⟩ := mustStop_ends.1 hb
  cases hs : c.raised || p.halted with
  | true =>
      rw [hs] at h
      obtain ⟨rfl, rfl⟩ := h
      exact ⟨c, hc, .inl ⟨hs, rfl⟩⟩
  | false =>
      rw [hs] at h
      obtain ⟨rfl, rfl⟩ := h
      exact ⟨c, hc, .inr ⟨hs, rfl⟩⟩

theorem turn_of_stepFeeder {p p' : Pool} {s s' : σ} (h : p.stepFeeder.Ends S s p' s') :
    Turn S act p s 0 p' s' := by
  simp only [Pool.stepFeeder] at h
  split at h
  · rename_i hf
    obtain ⟨rfl, rfl⟩ := h
    exact .drained hf
  · rename_i b bs hf
    obtain ⟨c, hc, ⟨hs, rfl⟩ | ⟨hs, rfl⟩⟩ := ends_mustStop_ite h
    · exact .stopped hf hc hs
    · exact .looked hf hc hs
  · rename_i b bs hf
    split at h
    · rename_i hw
      obtain ⟨rfl, rfl⟩ := h
      exact .deserted hf hw
    · rename_i hw
      split at h
      · rename_i hq
        obtain ⟨rfl, rfl⟩ := h
        exact .sent hf hq
      · rename_i hq
        obtain ⟨rfl, rfl⟩ := h
        refine .full hf ?_
        simp only [Pool.goesOn, Pool.feederGoesOn, hf, hq, Bool.eq_false_iff.2 hw, decide_false,
          Bool.or_false]
  · rename_i hf
    obtain ⟨rfl, rfl⟩ := h
    exact .idle (by simp only [Pool.goesOn, Pool.feederGoesOn, hf])

/-- The pool with the worker after `l` in another state. -/
theorem setWorker_eq {p : Pool} {l r : List Worker} {w w' : Worker}
    (hw : p.workers = l ++ w :: r) :
    p.setWorker l.length w' = { p with workers := l ++ w' :: r } := by
  simp [Pool.setWorker, hw]

theorem turn_of_stepWorker {p p' : Pool} {s s' : σ} {l r : List Worker} {w : Worker}
    (hw : p.workers = l ++ w :: r) (h : (p.stepWorker act l.length w).Ends S s p' s') :
    Turn S act p s (l.length + 1) p' s' := by
  have hget : p.workers[l.length]? = some w := by simp [hw]
  cases w with
  | looking =>
      obtain ⟨c, hc, ⟨hs, rfl⟩ | ⟨hs, rfl⟩⟩ := ends_mustStop_ite h
      · rw [setWorker_eq hw]
        exact .left hw hc hs
      · rw [setWorker_eq hw]
        exact .waits hw hc hs
  | waiting =>
      obtain ⟨rfl, rfl⟩ := h
      simp only [Pool.take]
      split
      · rename_i b q hq
        rw [setWorker_eq (p := { p with queue := q }) hw]
        exact .took hw hq
      · rename_i hq hf
        rw [setWorker_eq hw]
        exact .dismissed hw hq hf
      · rename_i hq hf
        rw [setWorker_eq hw]
        refine .polled hw ?_
        simp only [Pool.goesOn, hget, Option.any_some, Pool.workerGoesOn, hq, List.isEmpty_nil,
          Bool.not_true, Bool.false_or]
  | holding left n =>
      cases left with
      | nil =>
          obtain ⟨rfl, rfl⟩ := h
          rw [setWorker_eq (p := p.addReport n none) hw]
          exact .reported hw
      | cons e es =>
          obtain ⟨c, hc, ⟨hs, rfl⟩ | ⟨hs, rfl⟩⟩ := ends_mustStop_ite h
          · rw [setWorker_eq (p := p.addReport n none) hw]
            exact .dropped hw hc hs
          · rw [setWorker_eq hw]
            exact .picked hw hc hs
  | working e es n =>
      obtain ⟨x, t, ha, h⟩ := Program.ends_bind.1 h
      cases x with
      | ok counts =>
          obtain ⟨rfl, rfl⟩ := h
          rw [setWorker_eq (p := p.note l.length e (.ok counts)) hw]
          exact .worked hw ha
      | error failure =>
          obtain ⟨rfl, rfl⟩ := h
          rw [setWorker_eq (p := p.note l.length e (.error failure)) hw]
          exact .failed hw ha
  | failing failure n =>
      obtain ⟨rfl, rfl⟩ := h
      rw [setWorker_eq (p := { p with halted := true }) hw]
      exact .halts hw
  | reporting failure n =>
      obtain ⟨rfl, rfl⟩ := h
      rw [setWorker_eq (p := p.addReport n (some failure)) hw]
      exact .announced hw
  | gone =>
      obtain ⟨rfl, rfl⟩ := h
      exact .idle (by simp only [Pool.goesOn, hget, Option.any_some, Pool.workerGoesOn])

/-- **Every step is a turn.** -/
theorem turn_of_step {p p' : Pool} {s s' : σ} {t : Nat} (h : (p.step act t).Ends S s p' s') :
    Turn S act p s t p' s' := by
  cases t with
  | zero => exact turn_of_stepFeeder h
  | succ i =>
      simp only [Pool.step] at h
      split at h
      · rename_i w hget
        obtain ⟨hi, hget⟩ := List.getElem?_eq_some_iff.1 hget
        have hw : p.workers = p.workers.take i ++ w :: p.workers.drop (i + 1) := by
          rw [← hget, ← List.drop_eq_getElem_cons, List.take_append_drop]
        have hl : (p.workers.take i).length = i := by simp [Nat.le_of_lt hi]
        rw [← hl] at h ⊢
        exact turn_of_stepWorker hw h
      · rename_i hget
        obtain ⟨rfl, rfl⟩ := h
        exact .idle (by simp only [Pool.goesOn, hget, Option.any_none])

/-! ### Running to the end -/

theorem goesOn_of_next? {p : Pool} {t : Nat} (h : p.next? = some t) : p.goesOn t = true := by
  simp only [Pool.next?] at h
  split at h
  · rename_i hf
    obtain rfl := Option.some.inj h
    exact hf
  · obtain ⟨i, hi, rfl⟩ := Option.map_eq_some_iff.1 h
    obtain ⟨hlt, hw, -⟩ := List.findIdx?_eq_some_iff_getElem.1 hi
    simp only [Pool.goesOn, List.getElem?_eq_getElem hlt, Option.any_some, hw]

/-- Where no thread can go on and the queue takes a batch, the feeder is closed and every worker
has ended. -/
theorem ended_of_next? {p : Pool} (hd : 0 < p.depth) (h : p.next? = none) : p.Ended := by
  simp only [Pool.next?] at h
  split at h
  · cases h
  · rename_i hf
    have hw : ∀ w ∈ p.workers, p.workerGoesOn w = false :=
      List.findIdx?_eq_none_iff.1 (Option.map_eq_none_iff.1 h)
    have hc : p.feeder = .closed := by
      cases e : p.feeder with
      | looking bs => exact absurd (by simp only [Pool.feederGoesOn, e]) hf
      | sending b bs =>
          simp only [Pool.feederGoesOn, e, Bool.or_eq_true, decide_eq_true_eq, not_or] at hf
          obtain ⟨hg, hq⟩ := hf
          -- the queue is full, so a worker that waits could go on
          refine absurd (List.all_eq_true.2 fun w hm => ?_) hg
          have := hw w hm
          cases w with
          | gone => rfl
          | waiting =>
              cases hq' : p.queue with
              | nil => simp only [hq', List.length_nil] at hq; omega
              | cons _ _ => simp [Pool.workerGoesOn, hq'] at this
          | looking | holding | working | failing | reporting => cases this
      | closed => rfl
    refine ⟨hc, fun w hm => ?_⟩
    have := hw w hm
    cases w with
    | gone => rfl
    | waiting => simp [Pool.workerGoesOn, hc] at this
    | looking | holding | working | failing | reporting => cases this

theorem Pool.total_append {α : Type} (f : α → Nat) (l r : List α) :
    Pool.total f (l ++ r) = Pool.total f l + Pool.total f r := by
  induction l with
  | nil => exact (Nat.zero_add _).symm
  | cons a l ih => rw [List.cons_append, Pool.total, ih, Pool.total, Nat.add_assoc]

theorem Pool.total_eq_zero {α : Type} {f : α → Nat} {l : List α} (h : ∀ a ∈ l, f a = 0) :
    Pool.total f l = 0 := by
  induction l with
  | nil => rfl
  | cons a l ih =>
      obtain ⟨ha, hl⟩ := List.forall_mem_cons.1 h
      rw [Pool.total, ha, ih hl]

theorem cost_pos {p : Pool} {t : Nat} (h : p.goesOn t = true) : 0 < p.cost := by
  cases t with
  | zero =>
      cases e : p.feeder with
      | closed => simp [Pool.goesOn, Pool.feederGoesOn, e] at h
      | looking bs => simp only [Pool.cost, e, Pool.feederCost]; omega
      | sending b bs => simp only [Pool.cost, e, Pool.feederCost]; omega
  | succ i =>
      obtain ⟨w, hget, hw⟩ := (Option.any_eq_true _ _).1 h
      obtain ⟨l, r, e⟩ := List.append_of_mem (List.mem_of_getElem? hget)
      have : 0 < Pool.workerCost w := by
        cases w with
        | gone => cases hw
        | looking | waiting | holding | working | failing | reporting =>
            simp only [Pool.workerCost]; omega
      simp only [Pool.cost, e, Pool.total_append, Pool.total]
      omega

/-- **Progress.**  A turn of a thread that can do more than wait lowers the cost. -/
theorem Turn.cost_lt {p p' : Pool} {s s' : σ} {t : Nat} (h : Turn S act p s t p' s')
    (hg : p.goesOn t = true) : p'.cost < p.cost := by
  cases h with
  -- the turns that only wait are those of threads that cannot go on
  | idle h => simp [h] at hg
  | full hf h => simp [h] at hg
  | polled hw h => simp [h] at hg
  | drained hf | stopped hf | looked hf | deserted hf =>
      simp only [Pool.cost, hf, Pool.feederCost, Pool.total, Pool.batchCost]
      omega
  | sent hf =>
      simp only [Pool.cost, hf, Pool.feederCost, Pool.total_append, Pool.total]
      omega
  | took hw hq =>
      simp only [Pool.cost, hw, hq, Pool.workerCost, Pool.total_append, Pool.total,
        Pool.batchCost]
      omega
  | left hw | waits hw | dismissed hw | reported hw | dropped hw | picked hw | worked hw
  | failed hw | halts hw | announced hw =>
      simp only [Pool.cost, hw, Pool.workerCost, Pool.total_append, Pool.total, Pool.addReport,
        Pool.note, List.length_nil, List.length_cons]
      omega

variable {I : Pool → σ → Prop}

/-- What every turn keeps, turns in any order keep. -/
theorem follow_keeps (hI : ∀ {p s t p' s'}, Turn S act p s t p' s' → I p s → I p' s')
    {p p' : Pool} {s s' : σ} {turns : List Nat} (h : (p.follow act turns).Ends S s p' s')
    (hp : I p s) : I p' s' := by
  induction turns generalizing p s with
  | nil =>
      obtain ⟨rfl, rfl⟩ := h
      exact hp
  | cons t turns ih =>
      obtain ⟨q, u, hq, h⟩ := Program.ends_bind.1 h
      exact ih h (hI (turn_of_step hq) hp)

/-- With as many rounds as the pool costs, no thread can go on in the end; and what every turn
keeps still holds. -/
theorem finish_ends (hI : ∀ {p s t p' s'}, Turn S act p s t p' s' → I p s → I p' s')
    {p p' : Pool} {s s' : σ} {rounds : Nat} (hr : p.cost ≤ rounds)
    (h : (Pool.finish act rounds p).Ends S s p' s') (hp : I p s) : p'.next? = none ∧ I p' s' := by
  -- each round lowers the cost, and a pool that costs nothing cannot go on
  induction rounds generalizing p s with
  | zero =>
      obtain ⟨rfl, rfl⟩ := h
      refine ⟨?_, hp⟩
      cases hn : p'.next? with
      | none => rfl
      | some t =>
          have := cost_pos (goesOn_of_next? hn)
          omega
  | succ rounds ih =>
      simp only [Pool.finish] at h
      split at h
      · rename_i hn
        obtain ⟨rfl, rfl⟩ := h
        exact ⟨hn, hp⟩
      · rename_i t hn
        obtain ⟨q, u, hq, h⟩ := Program.ends_bind.1 h
        have ht := turn_of_step hq
        have := ht.cost_lt (goesOn_of_next? hn)
        exact ih (by omega) h (hI ht hp)

/-- **What every turn keeps holds at the end.**  All threads have ended there. -/
theorem run_ends (hI : ∀ {p s t p' s'}, Turn S act p s t p' s' → I p s → I p' s')
    {rules : RotationRules} {entries : List Entry}
    {s s' : σ} {p : Pool} (h : (Pool.run act rules entries).Ends S s p s')
    (h₀ : ∀ {x t}, S .turns s x t → I (Pool.start (batches rules.batchSize entries)
      rules.queueDepth (min rules.workers (batches rules.batchSize entries).length)) t)
    (hd : ∀ {p s}, I p s → 0 < p.depth) : p.Ended ∧ I p s' := by
  obtain ⟨x, t, hx, h⟩ := Program.ends_bind.1 h
  obtain ⟨q, u, hq, h⟩ := Program.ends_bind.1 h
  obtain ⟨hn, hp⟩ := finish_ends hI (Nat.le_refl _) h
    (follow_keeps hI hq (h₀ (Program.ends_reply.1 hx)))
  exact ⟨ended_of_next? (hd hp) hn, hp⟩

end Strongbox.Rotation
