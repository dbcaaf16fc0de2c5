import Strongbox.Proofs.Rotation.Dispatch
import Strongbox.Proofs.Rotation.Moments
import Strongbox.Proofs.Settings

/-!
# Rotation — one sweep over the entries

Whatever goes on around it, a rotation lists every entry once, works on an entry after it has listed
it, and works on none twice.  What each of these steps keeps, in surroundings of any kind, a whole
rotation keeps, in order or by a pool, on the whole list or page by page, however it ends.

* `Sweep`: what is kept by the questions of a rotation, told by the number of the ids listed and by
  the ids worked on.
* `Sweep.eachEntry`, `Sweep.dispatch`, `Sweep.eachPage`: work in order, by a pool and page by page.
* `Sweep.rotate`: the whole rotation.
-/

namespace Strongbox.Rotation

variable {σ : Type} {S : Surroundings σ} {raised : σ → Prop} {act : Entry → Job Bool}
  {ids : List Uuid} {I : Nat → List Uuid → σ → Prop} {W : σ → Entry → Prop}

/-- What the questions of a rotation over the entries with the ids `ids` keep: `I k done` when the
first `k` ids have been listed and those in `done` worked on.  `W` tells in which form an entry may
be worked on, which its list makes true for good. -/
structure Sweep (S : Surroundings σ) (raised : σ → Prop) (act : Entry → Job Bool)
    (ids : List Uuid) (I : Nat → List Uuid → σ → Prop) (W : σ → Entry → Prop) : Prop where
  watched : Watched S raised
  apart : ids.Nodup
  lasts : ∀ {r s x s' e}, S r s x s' → W s e → W s' e
  reads : ∀ {r s x s' k done}, r.reads = true → (∀ q, r ≠ .store (.list q)) → S r s x s' →
    I k done s → I k done s'
  refused : ∀ {q s e s' k done}, S (.store (.list q)) s (.error e) s' → I k done s → I k done s'
  lists : ∀ {limit k done s page s'},
    S (.store (.list { filter := .all, limit, offset := k })) s (.ok page) s' →
      (∀ id ∈ done, id ∈ ids.take k) → I k done s →
        page.map (·.id) = Store.window k limit ids ∧ I (k + page.length) done s' ∧
          ∀ e ∈ page, W s' e
  work : ∀ {e s r s' k done}, W s e → e.id ∉ done → (act e).Ends S s r s' → I k done s →
    I k (e.id :: done) s'

namespace Sweep

variable {s s' : σ} {k n : Nat} {done : List Uuid} {entries : List Entry} {p : Progress}

/-- A look for a cancellation before a job. -/
theorem checkpoint_bind (g : Sweep S raised act ids I W) {α : Type} {f : Unit → Job α}
    {r : Except VaultError α} (h : Job.Ends S (Job.checkpoint n >>= f) s r s') (hs : I k done s) :
    (∃ t, I k done t ∧ (∀ e, W s e → W t e) ∧ (f ()).Ends S t r s') ∨
      (∃ error, r = .error error) ∧ I k done s' := by
  obtain ⟨c, t, hlook, hcases⟩ := Job.ends_checkpoint_cases h
  have ht := g.reads rfl (fun _ hq => by cases hq) hlook hs
  rcases hcases with ⟨-, rfl, rfl⟩ | ⟨-, hf⟩
  · exact .inr ⟨⟨_, rfl⟩, ht⟩
  · exact .inl ⟨t, ht, fun _ => g.lasts hlook, hf⟩

/-! ### Work on a list -/

/-- Work on listed entries: the ids worked on after it are theirs, and those before it. -/
def Works (S : Surroundings σ) (I : Nat → List Uuid → σ → Prop) (W : σ → Entry → Prop)
    (work : Nat → List Entry → Program Progress) : Prop :=
  ∀ {entries : List Entry} {k n : Nat} {done : List Uuid} {s s' : σ} {p : Progress},
    (∀ e ∈ entries, W s e) → (entries.map (·.id)).Nodup → (∀ e ∈ entries, e.id ∉ done) →
    I k done s → (work n entries).Ends S s p s' →
      ∃ done', (∀ id ∈ done', id ∈ entries.map (·.id) ∨ id ∈ done) ∧ I k done' s'

/-- **Work in order.** -/
theorem eachEntry (g : Sweep S raised act ids I W) : Works S I W (Strongbox.eachEntry act) := by
  intro entries k n done s s' p hw hnd hfresh hs h
  induction entries generalizing n done s with
  | nil =>
      obtain ⟨-, rfl⟩ := h
      exact ⟨done, fun _ => .inr, hs⟩
  | cons e entries ih =>
      obtain ⟨he, hw⟩ := List.forall_mem_cons.1 hw
      obtain ⟨hid, hfresh⟩ := List.forall_mem_cons.1 hfresh
      obtain ⟨hout, hnd⟩ := List.nodup_cons.1 hnd
      obtain ⟨x, t, hx, hp⟩ := Program.ends_bind.1 h
      have hlast : ∀ a, W s a → W t a := fun a ha =>
        Program.Ends.keeps (I := fun s => W s a) (fun _ _ _ _ => g.lasts) hx ha
      obtain ⟨u, hu, hkeep, hact⟩ | ⟨⟨error, rfl⟩, ht⟩ := g.checkpoint_bind (Job.ends_def.1 hx) hs
      · have ht := g.work (hkeep e he) hid hact hu
        cases x with
        | error error =>
            obtain ⟨-, rfl⟩ := hp
            refine ⟨e.id :: done, fun id hmem => (List.mem_cons.1 hmem).imp_left ?_, ht⟩
            rintro rfl
            exact List.mem_cons_self
        | ok counts =>
            have hfresh' : ∀ a ∈ entries, a.id ∉ e.id :: done := by
              intro a ha hmem
              rcases List.mem_cons.1 hmem with heq | hmem
              · exact hout (List.mem_map.2 ⟨a, ha, heq⟩)
              · exact hfresh a ha hmem
            obtain ⟨done', hdone, hfin⟩ :=
              ih (fun a ha => hlast a (hw a ha)) hnd hfresh' ht hp
            refine ⟨done', fun id hmem => ?_, hfin⟩
            simp only [List.map_cons, List.mem_cons] at hdone ⊢
            have := hdone id hmem
            tauto
      · obtain ⟨-, rfl⟩ := hp
        exact ⟨done, fun _ => .inr, ht⟩

/-- What a pool's journal tells of a sweep: its entries have been worked on. -/
theorem recorded (g : Sweep S raised act ids I W) (hnd : (entries.map (·.id)).Nodup)
    (hfresh : ∀ e ∈ entries, e.id ∉ done) :
    Recorded S act entries fun j s =>
      I k (j.map (·.entry.id) ++ done) s ∧ ∀ e ∈ entries, W s e where
  cancellation := fun _ _ _ _ hlook ⟨hi, hw⟩ =>
    ⟨g.reads rfl (fun _ hq => by cases hq) hlook hi, fun e he => g.lasts hlook (hw e he)⟩
  turns := fun _ _ _ _ hturns ⟨hi, hw⟩ =>
    ⟨g.reads rfl (fun _ hq => by cases hq) hturns hi, fun e he => g.lasts hturns (hw e he)⟩
  work := by
    rintro j i e s r s' hnext ha ⟨hi, hw⟩
    have he : e ∈ entries := hnext.subset List.mem_cons_self
    have hid : e.id ∉ j.map (·.entry.id) ++ done := by
      obtain ⟨l, hperm, hl⟩ := hnext
      have hnd' : ((e :: j.map (·.entry)).map (·.id)).Nodup :=
        (hperm.map (·.id)).nodup_iff.1 ((hl.map (·.id)).nodup hnd)
      rw [List.map_cons, List.map_map, List.nodup_cons] at hnd'
      exact fun hmem => (List.mem_append.1 hmem).elim hnd'.1 (hfresh e he)
    refine ⟨g.work (hw e he) hid ha hi, fun a ha' => ?_⟩
    exact Program.Ends.keeps (I := fun s => W s a) (fun _ _ _ _ => g.lasts) ha (hw a ha')

/-- **Work by a pool.** -/
theorem dispatch (g : Sweep S raised act ids I W) {rules : RotationRules}
    (hworkers : 0 < rules.workers) : Works S I W (Rotation.dispatch act rules) := by
  intro entries k n done s s' p hw hnd hfresh hs h
  by_cases he : entries = []
  · subst he
    obtain ⟨-, rfl⟩ := h
    exact ⟨done, fun _ => .inr, hs⟩
  · have h' : ((Pool.run act rules entries).bind fun q => q.outcome n).Ends S s p s' := by
      simpa [Rotation.dispatch, he] using h
    obtain ⟨q, t, hq, ho⟩ := Program.ends_bind.1 h'
    obtain ⟨-, hk, hi, -⟩ := run_settled g.watched (g.recorded hnd hfresh) hworkers he hq ⟨hs, hw⟩
    refine ⟨q.journal.map (·.entry.id) ++ done, fun id hmem => ?_, ?_⟩
    · refine (List.mem_append.1 hmem).imp_left fun hj => ?_
      obtain ⟨x, hx, rfl⟩ := List.mem_map.1 hj
      exact List.mem_map_of_mem (hk.subperm.subset (List.mem_map_of_mem hx))
    · obtain ⟨-, ⟨-, -, -, -, -, rfl⟩ | ⟨-, c, hlook, -⟩⟩ := outcome_ends hk ho
      · exact hi
      · exact g.reads rfl (fun _ hq => by cases hq) hlook hi

/-! ### Lists -/

/-- A list that is answered, or not. -/
theorem list (g : Sweep S raised act ids I W) (hdone : ∀ id ∈ done, id ∈ ids.take k)
    (hs : I k done s) {limit : Option Nat} {x : Except VaultError (List Entry)}
    (h : Job.Ends S (Job.call (.list { filter := .all, limit, offset := k })) s x s') :
    (∃ page, x = .ok page ∧ page.map (·.id) = Store.window k limit ids ∧
        I (k + page.length) done s' ∧ ∀ e ∈ page, W s' e) ∨
      (∃ error, x = .error error) ∧ I k done s' := by
  obtain ⟨y, hy, rfl⟩ := Job.ends_call.1 h
  cases y with
  | ok page => exact .inl ⟨page, rfl, g.lists hy hdone hs⟩
  | error error => exact .inr ⟨⟨_, rfl⟩, g.refused hy hs⟩

/-- What a list shows has not been worked on, and follows what was listed before. -/
theorem fresh (hids : ids.Nodup) (hdone : ∀ id ∈ done, id ∈ ids.take k) {limit : Option Nat}
    {page : List Entry} (hpage : page.map (·.id) = Store.window k limit ids) :
    (page.map (·.id)).Nodup ∧ (∀ e ∈ page, e.id ∉ done) ∧
      ∀ id, id ∈ page.map (·.id) ∨ id ∈ done → id ∈ ids.take (k + page.length) := by
  have hprefix : page.map (·.id) = (ids.drop k).take page.length := by
    have hlen : page.length = (Store.window k limit ids).length := by
      rw [← hpage, List.length_map]
    rw [hpage, hlen]
    cases limit with
    | none => exact (List.take_length).symm
    | some size => exact (List.take_eq_take_min ..).trans (by rw [Store.window, List.length_take])
  have htake : ids.take (k + page.length) = ids.take k ++ page.map (·.id) := by
    rw [List.take_add, hprefix]
  have hnd := (List.take_sublist (k + page.length) ids).nodup hids
  rw [htake] at hnd
  obtain ⟨-, hpnd, hapart⟩ := List.nodup_append.1 hnd
  refine ⟨hpnd, fun e he hmem => ?_, fun id hid => ?_⟩
  · exact hapart _ (hdone _ hmem) _ (List.mem_map_of_mem he) rfl
  · rw [htake, List.mem_append]
    exact hid.symm.imp_left (hdone id)

/-- **Work page by page.** -/
theorem eachPage (g : Sweep S raised act ids I W) {work : Nat → List Entry → Program Progress}
    (hwork : Works S I W work) {size rounds : Nat} (hdone : ∀ id ∈ done, id ∈ ids.take k)
    (hs : I k done s)
    (h : (Strongbox.eachPage .all size false work rounds k n).Ends S s p s') :
    ∃ k' done', I k' done' s' := by
  induction rounds generalizing k n done s with
  | zero =>
      obtain ⟨-, rfl⟩ := h
      exact ⟨k, done, hs⟩
  | succ rounds ih =>
      obtain ⟨x, t, hx, hp⟩ := Program.ends_bind.1 h
      have hlist : (∃ page, x = .ok page ∧ page.map (·.id) = Store.window k (some size) ids ∧
          I (k + page.length) done t ∧ ∀ e ∈ page, W t e) ∨
            (∃ error, x = .error error) ∧ I k done t := by
        obtain ⟨u, hu, -, hcall⟩ | hhalt := g.checkpoint_bind (Job.ends_def.1 hx) hs
        · exact g.list hdone hu hcall
        · exact .inr hhalt
      obtain ⟨page, rfl, hpage, ht, hw⟩ | ⟨⟨error, rfl⟩, ht⟩ := hlist
      · obtain ⟨q, u, hq, hp⟩ := Program.ends_bind.1 hp
        obtain ⟨hnd, hfresh, hseen⟩ := fresh g.apart hdone hpage
        obtain ⟨done', hdone', hu⟩ := hwork hw hnd hfresh ht hq
        split at hp
        · obtain ⟨-, rfl⟩ := hp
          exact ⟨_, _, hu⟩
        · exact ih (fun id hid => hseen id (hdone' id hid)) hu hp
      · obtain ⟨-, rfl⟩ := hp
        exact ⟨k, done, ht⟩

end Sweep

/-! ### The whole rotation -/

section

variable {v : Vault} {old new : String} {s s' : σ} {p : Progress}

theorem Sweep.relockAll (g : Sweep S raised (relockEntry v old new) ids I W) (mode : Mode) :
    Sweep.Works S I W (Rotation.relockAll v old new mode) := by
  cases mode with
  | sequential => exact g.eachEntry
  | parallel => exact g.dispatch (Settings.rotation_pos v.sound).2.2.1

/-- **The work of any plan.** -/
theorem Sweep.progress (g : Sweep S raised (relockEntry v old new) ids I W) {plan : Plan}
    (hs : I 0 [] s) (h : (Rotation.progress v old new plan).Ends S s p s') :
    ∃ k done, I k done s' := by
  have hnone : ∀ id ∈ ([] : List Uuid), id ∈ ids.take 0 := fun _ hid => absurd hid List.not_mem_nil
  simp only [Rotation.progress] at h
  split at h
  · obtain ⟨extent, t, hext, hp⟩ := Program.ends_reply_bind.1 h
    have ht := g.reads rfl (fun _ hq => by cases hq) hext hs
    exact g.eachPage (g.relockAll plan.mode) hnone ht hp
  · obtain ⟨x, t, hx, hp⟩ := Program.ends_bind.1 h
    obtain ⟨page, rfl, hpage, ht, hw⟩ | ⟨⟨error, rfl⟩, ht⟩ :=
      g.list hnone hs (Job.ends_def.1 hx)
    · obtain ⟨hnd, hfresh, -⟩ := fresh g.apart hnone hpage
      obtain ⟨done', -, hfin⟩ := g.relockAll plan.mode hw hnd hfresh ht hp
      exact ⟨_, _, hfin⟩
    · obtain ⟨-, rfl⟩ := hp
      exact ⟨_, _, ht⟩

/-- **A whole rotation**, however it ends. -/
theorem Sweep.rotate (g : Sweep S raised (relockEntry v old new) ids I W) (hs : I 0 [] s)
    {r : Except VaultError Nat} (h : (v.rotate old new).Ends S s r s') :
    ∃ k done, I k done s' := by
  obtain ⟨-, -, rfl⟩ | ⟨-, h₁⟩ := Vault.requirePassword_bind h
  · exact ⟨_, _, hs⟩
  obtain ⟨-, -, rfl⟩ | ⟨-, h₂⟩ := Vault.requirePassword_bind h₁
  · exact ⟨_, _, hs⟩
  obtain ⟨t, ht, -, h₃⟩ | ⟨-, ht⟩ := g.checkpoint_bind h₂ hs
  · obtain ⟨x, u, hx, h₄⟩ := Job.ends_call_bind.1 h₃
    have hu := g.reads rfl (fun _ hq => by cases hq) hx ht
    cases x with
    | error error =>
        obtain ⟨-, rfl⟩ := h₄
        exact ⟨_, _, hu⟩
    | ok total =>
        dsimp only at h₄
        split at h₄
        · obtain ⟨-, rfl⟩ := Job.ends_pure.1 h₄
          exact ⟨_, _, hu⟩
        · obtain ⟨p, w, hp, h₅⟩ := Job.ends_lift_bind.1 h₄
          obtain ⟨-, rfl⟩ := Job.ends_ofExcept.1 h₅
          exact g.progress hu hp
  · exact ⟨_, _, ht⟩

end

end Strongbox.Rotation
