import Strongbox.Proofs.Program.Passes
import Strongbox.Proofs.Rotation.Accounts
import Strongbox.Rotation.Basic

/-!
# Rotation — moments

A rotation may be cut off at any moment, in order or in the middle of a pool.  What holds at every
moment is what its questions to the surroundings keep: the reads, and the work on single entries,
each of which was listed before it is worked on.

* `Guard`: what reads and the work on listed entries keep.
* `step_passes`: the moments of a turn of the pool.
* `Guard.rotate`: what is kept holds at every moment of a rotation.
-/

namespace Strongbox

/-- The question does not ask the store to write. -/
def Request.reads : Request → Bool
  | store (.create _) | store (.update _ _) | store (.erase _) => false
  | _ => true

namespace Rotation

variable {σ : Type} {S : Surroundings σ} {act : Entry → Job Bool} {s s' t : σ}

/-- Reads keep `I`, and so does the work on an entry that may be worked on, which `W` tells.
Whatever is listed may be worked on from then on. -/
structure Guard (S : Surroundings σ) (act : Entry → Job Bool) (I : σ → Prop)
    (W : σ → Entry → Prop) : Prop where
  lasts : ∀ r s x s' e, S r s x s' → W s e → W s' e
  reads : ∀ r s x s', r.reads = true → S r s x s' → I s → I s'
  lists : ∀ limit offset s es s',
    S (.store (.list { filter := .all, limit, offset })) s (.ok es) s' → I s → ∀ e ∈ es, W s' e
  work : ∀ e s t, W s e → (act e).Passes S s t → I s → I t

/-! ### The pool -/

/-- The threads never hold an entry that they did not hold before. -/
theorem Turn.pending_subset {p p' : Pool} {i : Nat} (h : Turn S act p s i p' s') :
    p'.pending ⊆ p.pending := by
  intro x hx
  cases h with
  | idle => exact hx
  | drained hf | stopped hf | looked hf | deserted hf | sent hf | full hf =>
      simp only [Pool.pending, hf, Feeder.left, List.flatten_append, List.flatten_cons,
        List.flatten_nil, List.mem_append] at hx ⊢
      tauto
  | took hw hq =>
      simp only [Pool.pending, hw, hq, Worker.inHand, List.flatMap_append, List.flatMap_cons,
        List.flatten_cons, List.mem_append] at hx ⊢
      tauto
  | left hw | waits hw | dismissed hw | polled hw | reported hw | dropped hw | picked hw
  | worked hw | failed hw | halts hw | announced hw =>
      simp only [Pool.pending, Pool.addReport, Pool.note, hw, Worker.inHand, List.flatMap_append,
        List.flatMap_cons, List.mem_append, List.mem_cons, List.not_mem_nil] at hx ⊢
      tauto

/-- The moments of a look for a stop. -/
theorem mustStop_passes {p q q' : Pool}
    (h : (p.mustStop.bind fun b => if b then .done q else .done q').Passes S s t) :
    t = s ∨ ∃ c, S .cancellation s c t := by
  rcases Program.passes_bind.1 h with h | ⟨b, u, hb, h⟩
  · rcases Program.passes_bind.1 h with h | ⟨c, u, hc, rfl⟩
    · exact Program.passes_reply.1 h
    · exact .inr ⟨c, Program.ends_reply.1 hc⟩
  · obtain ⟨c, hc, -⟩ := mustStop_ends.1 hb
    cases b <;> exact .inr ⟨c, h ▸ hc⟩

/-- **The moments of a turn**: its beginning, the look for a stop, and the work on an entry that a
worker holds. -/
theorem step_passes {p : Pool} {i : Nat} (h : (p.step act i).Passes S s t) :
    t = s ∨ (∃ c, S .cancellation s c t) ∨ ∃ e ∈ p.pending, (act e).Passes S s t := by
  cases i with
  | zero =>
      simp only [Pool.step, Pool.stepFeeder] at h
      split at h
      · exact .inl h
      · exact (mustStop_passes h).imp_right .inl
      · split at h
        · exact .inl h
        · split at h <;> exact .inl h
      · exact .inl h
  | succ i =>
      simp only [Pool.step] at h
      split at h
      · rename_i w hw
        cases w with
        | looking => exact (mustStop_passes h).imp_right .inl
        | holding left n =>
            cases left with
            | nil => exact .inl h
            | cons e es => exact (mustStop_passes h).imp_right .inl
        | working e es n =>
            have he : e ∈ p.pending := by
              refine List.mem_append_left _ (List.mem_flatMap.2 ⟨_, List.mem_of_getElem? hw, ?_⟩)
              exact List.mem_cons_self
            rcases Program.passes_bind.1 h with h | ⟨x, u, hx, h⟩
            · exact .inr (.inr ⟨e, he, h⟩)
            · have ht : t = u := by cases x <;> exact h
              exact .inr (.inr ⟨e, he, ht ▸ hx.passes⟩)
        | waiting | failing | reporting | gone => exact .inl h
      · exact .inl h

namespace Guard

variable {I : σ → Prop} {W : σ → Entry → Prop}

/-! ### Entries in order -/

theorem lasts_ends (g : Guard S act I W) {α : Type} {p : Program α} {a : α}
    (h : p.Ends S s a t) {e : Entry} (he : W s e) : W t e :=
  Program.Ends.keeps (I := fun s => W s e) (fun r s x s' => g.lasts r s x s' e) h he

theorem reply (g : Guard S act I W) {r : Request} (hr : r.reads = true)
    (h : (Program.reply r).Passes S s t) (hs : I s) : I t := by
  rcases Program.passes_reply.1 h with rfl | ⟨x, hx⟩
  · exact hs
  · exact g.reads r s x t hr hx hs

theorem call (g : Guard S act I W) {c : Store.Call} (hr : (Request.store c).reads = true)
    (h : (Job.call c).Passes S s t) (hs : I s) : I t := by
  rcases Job.passes_call.1 h with rfl | ⟨x, hx⟩
  · exact hs
  · exact g.reads _ s x t hr hx hs

/-- Whatever is listed may be worked on. -/
theorem listed (g : Guard S act I W) {limit : Option Nat} {offset : Nat} {entries : List Entry}
    (h : (Job.call (.list { filter := .all, limit, offset })).Ends S s (.ok entries) t)
    (hs : I s) : ∀ e ∈ entries, W t e := by
  obtain ⟨y, hy, he⟩ := Job.ends_call.1 h
  cases y with
  | error error => cases he
  | ok entries' =>
      obtain rfl := Except.ok.inj he
      exact g.lists limit offset s _ t hy hs

theorem checkpoint (g : Guard S act I W) {n : Nat} (h : (Job.checkpoint n).Passes S s t)
    (hs : I s) : I t := by
  rcases Job.passes_bind.1 h with h | ⟨c, u, hc, rfl⟩
  · exact g.reply rfl (Job.passes_lift.1 h) hs
  · exact g.reply rfl (Job.passes_lift.1 hc.passes) hs

/-- Work on entries one after another. -/
theorem eachEntry (g : Guard S act I W) {entries : List Entry} {n : Nat}
    (hw : ∀ e ∈ entries, W s e) (h : (Strongbox.eachEntry act n entries).Passes S s t)
    (hs : I s) : I t := by
  induction entries generalizing n s with
  | nil => exact h ▸ hs
  | cons e entries ih =>
      obtain ⟨he, hw⟩ := List.forall_mem_cons.1 hw
      have hone : ∀ {u}, Job.Passes S (Job.checkpoint n >>= fun _ => act e) s u → I u := by
        intro u hu
        rcases Job.passes_bind.1 hu with hu | ⟨_, w, hc, hu⟩
        · exact g.checkpoint hu hs
        · exact g.work e w u (g.lasts_ends hc he) hu (g.checkpoint hc.passes hs)
      rcases Program.passes_bind.1 h with h | ⟨x, u, hx, h⟩
      · exact hone h
      · have hu := hone hx.passes
        cases x with
        | error error => exact h ▸ hu
        | ok counts => exact ih (fun e he => g.lasts_ends hx (hw e he)) h hu

/-! ### Entries in a pool -/

/-- What the threads hold may be worked on after a turn too. -/
theorem turn (g : Guard S act I W) {p p' : Pool} {i : Nat} (h : Turn S act p s i p' s')
    (hw : ∀ e ∈ p.pending, W s e) : ∀ e ∈ p'.pending, W s' e := by
  intro e he
  exact h.state (fun _ _ _ _ hx => g.lasts _ _ _ _ _ hx) (hw e (h.pending_subset he))

theorem step (g : Guard S act I W) {p : Pool} {i : Nat} (hw : ∀ e ∈ p.pending, W s e)
    (h : (p.step act i).Passes S s t) (hs : I s) : I t := by
  rcases step_passes h with rfl | ⟨c, hc⟩ | ⟨e, he, h⟩
  · exact hs
  · exact g.reads _ _ _ _ rfl hc hs
  · exact g.work e s t (hw e he) h hs

theorem follow (g : Guard S act I W) {p : Pool} {turns : List Nat}
    (hw : ∀ e ∈ p.pending, W s e) (h : (p.follow act turns).Passes S s t) (hs : I s) : I t := by
  induction turns generalizing p s with
  | nil => exact h ▸ hs
  | cons i turns ih =>
      rcases Program.passes_bind.1 h with h | ⟨q, u, hq, h⟩
      · exact g.step hw h hs
      · exact ih (g.turn (turn_of_step hq) hw) h (g.step hw hq.passes hs)

theorem finish (g : Guard S act I W) {p : Pool} {rounds : Nat}
    (hw : ∀ e ∈ p.pending, W s e) (h : (Pool.finish act rounds p).Passes S s t) (hs : I s) :
    I t := by
  induction rounds generalizing p s with
  | zero => exact h ▸ hs
  | succ rounds ih =>
      simp only [Pool.finish] at h
      split at h
      · exact h ▸ hs
      · rcases Program.passes_bind.1 h with h | ⟨q, u, hq, h⟩
        · exact g.step hw h hs
        · exact ih (g.turn (turn_of_step hq) hw) h (g.step hw hq.passes hs)

/-- **The run of a pool.** -/
theorem run (g : Guard S act I W) {rules : RotationRules} {entries : List Entry}
    (hw : ∀ e ∈ entries, W s e) (h : (Pool.run act rules entries).Passes S s t) (hs : I s) :
    I t := by
  have hpend : ∀ n, (Pool.start (batches rules.batchSize entries) rules.queueDepth n).pending
      = entries := by
    intro n
    simp [Pool.start, Pool.pending, Feeder.left, Worker.inHand, List.flatMap_replicate]
  rcases Program.passes_bind.1 h with h | ⟨turns, u, ht, h⟩
  · exact g.reply rfl h hs
  · have hu := g.reply rfl ht.passes hs
    have hw' : ∀ n, ∀ e ∈ (Pool.start (batches rules.batchSize entries) rules.queueDepth n).pending,
        W u e := fun n e he => g.lasts_ends ht (hw e (hpend n ▸ he))
    rcases Program.passes_bind.1 h with h | ⟨q, w, hq, h⟩
    · exact g.follow (hw' _) h hu
    · exact g.finish (follow_keeps (I := fun p s => ∀ e ∈ p.pending, W s e) g.turn hq (hw' _)) h
        (g.follow (hw' _) hq.passes hu)

/-- Entries by a pool. -/
theorem dispatch (g : Guard S act I W) {rules : RotationRules} {entries : List Entry} {n : Nat}
    (hw : ∀ e ∈ entries, W s e) (h : (Rotation.dispatch act rules n entries).Passes S s t)
    (hs : I s) : I t := by
  simp only [Rotation.dispatch] at h
  split at h
  · exact h ▸ hs
  · rcases Program.passes_bind.1 h with h | ⟨q, u, hq, h⟩
    · exact g.run hw h hs
    · have hu := g.run hw hq.passes hs
      simp only [Pool.outcome] at h
      split at h
      · exact h ▸ hu
      · rcases Program.passes_bind.1 h with h | ⟨c, w, hc, h⟩
        · exact g.reply rfl h hu
        · have hw := g.reply rfl hc.passes hu
          split at h <;> exact h ▸ hw

/-! ### Page by page -/

theorem eachPage (g : Guard S act I W) {work : Nat → List Entry → Program Progress}
    (hwork : ∀ {n entries s t}, (∀ e ∈ entries, W s e) → (work n entries).Passes S s t → I s → I t)
    {size : Nat} {leaves : Bool} {rounds offset n : Nat}
    (h : (Strongbox.eachPage .all size leaves work rounds offset n).Passes S s t) (hs : I s) :
    I t := by
  induction rounds generalizing offset n s with
  | zero => exact h ▸ hs
  | succ rounds ih =>
      have hlist : ∀ {u}, Job.Passes S (Job.checkpoint n >>= fun _ =>
          Job.call (.list (.page .all offset size))) s u → I u := by
        intro u hu
        rcases Job.passes_bind.1 hu with hu | ⟨_, w, hc, hu⟩
        · exact g.checkpoint hu hs
        · exact g.call rfl hu (g.checkpoint hc.passes hs)
      rcases Program.passes_bind.1 h with h | ⟨x, u, hx, h⟩
      · exact hlist h
      · have hu := hlist hx.passes
        cases x with
        | error error => exact h ▸ hu
        | ok page =>
            have hpage : ∀ e ∈ page, W u e := by
              rcases Job.ends_bind.1 (Job.ends_def.1 hx) with ⟨_, w, hc, hcall⟩ | ⟨_, -, he⟩
              · exact g.listed hcall (g.checkpoint hc.passes hs)
              · cases he
            rcases Program.passes_bind.1 h with h | ⟨p, w, hp, h⟩
            · exact hwork hpage h hu
            · have hw := hwork hpage hp.passes hu
              split at h
              · exact h ▸ hw
              · exact ih h hw

/-! ### The whole rotation -/

variable {v : Vault} {old new : String}

theorem relockAll (g : Guard S (relockEntry v old new) I W) {mode : Mode} {n : Nat}
    {entries : List Entry} (hw : ∀ e ∈ entries, W s e)
    (h : (Rotation.relockAll v old new mode n entries).Passes S s t) (hs : I s) : I t := by
  cases mode with
  | sequential => exact g.eachEntry hw h hs
  | parallel => exact g.dispatch hw h hs

theorem progress (g : Guard S (relockEntry v old new) I W) {plan : Plan}
    (h : (Rotation.progress v old new plan).Passes S s t) (hs : I s) : I t := by
  simp only [Rotation.progress] at h
  split at h
  · rcases Program.passes_bind.1 h with h | ⟨extent, u, he, h⟩
    · exact g.reply rfl h hs
    · exact g.eachPage g.relockAll h (g.reply rfl he.passes hs)
  · rcases Program.passes_bind.1 h with h | ⟨x, u, hx, h⟩
    · exact g.call rfl h hs
    · have hu := g.call rfl (Job.Ends.passes (Job.ends_def.1 hx)) hs
      cases x with
      | error error => exact h ▸ hu
      | ok entries => exact g.relockAll (g.listed (Job.ends_def.1 hx) hs) h hu

/-- **What is kept holds at every moment of a rotation.** -/
theorem rotate (g : Guard S (relockEntry v old new) I W)
    (h : (v.rotate old new).Passes S s t) (hs : I s) : I t := by
  rcases Job.passes_ofExcept_bind h with rfl | ⟨_, h⟩
  · exact hs
  rcases Job.passes_ofExcept_bind h with rfl | ⟨_, h⟩
  · exact hs
  rcases Job.passes_bind.1 h with h | ⟨_, u, hc, h⟩
  · exact g.checkpoint h hs
  have hu := g.checkpoint hc.passes hs
  rcases Job.passes_bind.1 h with h | ⟨total, w, hcall, h⟩
  · exact g.call rfl h hu
  have hw := g.call rfl hcall.passes hu
  split at h
  · exact h ▸ hw
  rcases Job.passes_bind.1 h with h | ⟨p, x, hp, h⟩
  · exact g.progress (Job.passes_lift.1 h) hw
  · exact h ▸ g.progress (Job.passes_lift.1 hp.passes) hw

end Guard

end Rotation

end Strongbox
