import Mathlib.Data.List.Nodup
import Strongbox.Proofs.Rotation.Dispatch
import Strongbox.Proofs.Store.Holds

/-!
# Rotation — midway

While a rotation runs in calm surroundings, the entries worked on are moved and all others are as
they were.  Work on one entry, in order, by a pool and page by page keeps this, and counts the
entries that the old password unlocks.  It ends early only at an entry that the old password unlocks
and the new one cannot lock.

* `Moved`: what becomes of one entry.
* `Midway`: the scene when the entries with given ids have been worked on.
* `Attains`: what work on a list of entries comes to from there.
* `Midway.relockEntry`, `Midway.eachEntry`, `Midway.dispatch`: what work on one entry, in order and
  by a pool comes to.
-/

namespace Strongbox.Rotation

/-- The password unlocks the entry. -/
def opens (v : Vault) (password : String) (e : Entry) : Bool :=
  (v.lock.unlock e.locked password).isOk

/-- What becomes of an entry: if the old password unlocks it, it is locked anew under the new one,
at an instant of which the store keeps `keep`; otherwise it stays as it is. -/
def Moved (v : Vault) (old new : String) (shows : Instant → Prop) (keep : Instant → Instant)
    (e e' : Entry) : Prop :=
  match v.lock.unlock e.locked old with
  | .ok text => ∃ (head : Bytes) (now : Instant), v.lock.Fits text new head ∧ shows now ∧
      e' = { e with locked := v.lock.lock text new head, updated := keep now }
  | .error _ => e' = e

theorem Moved.id_eq {v : Vault} {old new : String} {shows : Instant → Prop}
    {keep : Instant → Instant} {e e' : Entry} (h : Moved v old new shows keep e e') :
    e'.id = e.id := by
  simp only [Moved] at h
  split at h
  · obtain ⟨head, now, -, -, rfl⟩ := h
    rfl
  · rw [h]

/-- An entry that the new password cannot lock is not moved. -/
theorem Moved.not_refused {v : Vault} {old new : String} {shows : Instant → Prop}
    {keep : Instant → Instant} {e e' : Entry} (h : Moved v old new shows keep e e')
    (error : LockError) : ¬ Refused v old new e error := by
  rintro ⟨text, hu, hfault⟩
  simp only [Moved, hu] at h
  obtain ⟨head, now, hfits, -⟩ := h
  exact absurd (hfits.fault.symm.trans hfault) (by simp)

/-- What has become of an entry when those with an id in `done` have been worked on. -/
def Now (v : Vault) (old new : String) (shows : Instant → Prop) (keep : Instant → Instant)
    (done : List Uuid) (e e' : Entry) : Prop :=
  if e.id ∈ done then Moved v old new shows keep e e' else e' = e

/-- What has become of an entry has its id. -/
theorem Now.id_eq {v : Vault} {old new : String} {shows : Instant → Prop}
    {keep : Instant → Instant} {done : List Uuid} {e e' : Entry}
    (h : Now v old new shows keep done e e') : e'.id = e.id := by
  simp only [Now] at h
  split at h
  · exact h.id_eq
  · rw [h]

/-- Every entry is still there under its id. -/
theorem exists_of_now {v : Vault} {old new : String} {shows : Instant → Prop}
    {keep : Instant → Instant} {done : List Uuid} {es es' : List Entry}
    (h : List.Forall₂ (Now v old new shows keep done) es es') {e : Entry} (he : e ∈ es) :
    ∃ e' ∈ es', e'.id = e.id := by
  obtain ⟨i, hi, rfl⟩ := List.getElem_of_mem he
  have hi' : i < es'.length := by rwa [← h.length_eq]
  exact ⟨es'[i], List.getElem_mem hi', (h.get hi hi').id_eq⟩

/-- The scene of a rotation of the entries `es` of the store `b`, when those with an id in `done`
have been worked on and nobody has cancelled. -/
structure Midway (v : Vault) (old new : String) (m : Manner) (b : Backing) (es : List Entry)
    (done : List Uuid) (s : Scene) : Prop where
  quiet : s.caller.raised = false
  keep : s.store.keep = b.keep
  takes : s.store.Takes = b.Takes
  entries : ∃ es', s.store.Holds es' ∧ List.Forall₂ (Now v old new m.shows b.keep done) es es'

/-- The number of the entries moved, when those with an id in `done` have been worked on. -/
def tally (v : Vault) (old : String) (es : List Entry) (done : List Uuid) : Nat :=
  es.countP fun e => decide (e.id ∈ done) && opens v old e

/-- What work on some of the entries `es` comes to, when `n` were finished and those with an id in
`done` worked on before: it counts the entries that it moves, and goes through them all or else ends
at one that the new password cannot lock. -/
def Attains (v : Vault) (old new : String) (m : Manner) (b : Backing) (es entries : List Entry)
    (done : List Uuid) (n : Nat) (p : Progress) (s : Scene) : Prop :=
  ∃ done', Midway v old new m b es done' s ∧
    p.finished + tally v old es done = n + tally v old es done' ∧
    ((p.failure = none ∧ ∀ id, id ∈ done' ↔ id ∈ entries.map (·.id) ∨ id ∈ done) ∨
      ∃ e ∈ es, ∃ error, Refused v old new e error ∧ p.failure = some (.encoding error))

section

variable {v : Vault} {old new : String} {m : Manner} {b : Backing} {es : List Entry}
  {done : List Uuid} {s s' : Scene}

theorem tally_congr {done' : List Uuid} (h : ∀ id, id ∈ done' ↔ id ∈ done) :
    tally v old es done' = tally v old es done := by
  simp only [tally, h]

/-- One more entry worked on. -/
theorem tally_cons {e : Entry} (hids : (es.map (·.id)).Nodup) (he : e ∈ es) (hd : e.id ∉ done) :
    tally v old es (e.id :: done) = tally v old es done + if opens v old e then 1 else 0 := by
  obtain ⟨l, r, rfl⟩ := List.append_of_mem he
  -- ids are apart, so all other entries are counted as before
  have hrest : ∀ a ∈ l ++ r, a.id ≠ e.id := by
    rw [List.map_append, List.map_cons, List.nodup_middle, List.nodup_cons, ← List.map_append]
      at hids
    exact fun a ha heq => hids.1 (heq ▸ List.mem_map_of_mem ha)
  have hsame : ∀ xs : List Entry, (∀ a ∈ xs, a.id ≠ e.id) →
      tally v old xs (e.id :: done) = tally v old xs done := fun xs hxs =>
    List.countP_congr fun a ha => by simp [hxs a ha]
  obtain ⟨hl, hr⟩ := List.forall_mem_append.1 hrest
  have hl := hsame l hl
  have hr := hsame r hr
  simp only [tally, List.countP_append, List.countP_cons, List.mem_cons_self, hd, decide_true,
    decide_false, Bool.true_and, Bool.false_and, Bool.false_eq_true, if_false] at hl hr ⊢
  omega

/-- Work that goes on where the work on the first of the entries has come to. -/
theorem Attains.append {first rest : List Entry} {done' : List Uuid} {n k : Nat} {p : Progress}
    (hmem : ∀ id, id ∈ done' ↔ id ∈ first.map (·.id) ∨ id ∈ done)
    (hcount : k + tally v old es done = n + tally v old es done')
    (h : Attains v old new m b es rest done' k p s) :
    Attains v old new m b es (first ++ rest) done n p s := by
  obtain ⟨done'', hs, hcount', hend⟩ := h
  refine ⟨done'', hs, by omega, hend.imp_left (And.imp_right fun hmem' id => ?_)⟩
  rw [hmem', hmem, List.map_append, List.mem_append]
  tauto

/-- Nothing has been done yet. -/
theorem midway_start (hb : b.Holds es) (hs : s.store = b) (hq : s.caller.raised = false) :
    Midway v old new m b es [] s where
  quiet := hq
  keep := by rw [hs]
  takes := by rw [hs]
  entries := ⟨es, hs ▸ hb, List.forall₂_same.2 fun e _ => by simp [Now]⟩

namespace Midway

theorem congr {done' : List Uuid} (h : ∀ id, id ∈ done' ↔ id ∈ done)
    (hs : Midway v old new m b es done s) : Midway v old new m b es done' s where
  quiet := hs.quiet
  keep := hs.keep
  takes := hs.takes
  entries := by
    obtain ⟨es', hh, hn⟩ := hs.entries
    refine ⟨es', hh, hn.imp fun e e' he => ?_⟩
    simpa only [Now, h] using he

/-! ### One entry -/

/-- One more entry is moved by a function that leaves all others alone. -/
theorem forall₂_map {shows : Instant → Prop} {keep : Instant → Instant} {es es' : List Entry}
    (h : List.Forall₂ (Now v old new shows keep done) es es') (hids : (es.map (·.id)).Nodup)
    {e : Entry} (he : e ∈ es) (hd : e.id ∉ done) {f : Entry → Entry}
    (hf : ∀ x, x.id ≠ e.id → f x = x) (hm : Moved v old new shows keep e (f e)) :
    List.Forall₂ (Now v old new shows keep (e.id :: done)) es (es'.map f) := by
  rw [List.forall₂_map_right_iff, List.forall₂_iff_zip]
  refine ⟨h.length_eq, fun {x x'} hz => ?_⟩
  have hx : x ∈ es := (List.of_mem_zip hz).1
  have hnow := List.forall₂_zip h hz
  by_cases hid : x.id = e.id
  · -- ids are apart, so this is the entry itself, and it has not been worked on before
    obtain rfl := List.inj_on_of_nodup_map hids hx he hid
    have hx' : x' = x := by simpa only [Now, hd, if_false] using hnow
    rw [hx', Now, if_pos (List.mem_cons_self)]
    exact hm
  · rw [hf x' (hnow.id_eq.trans_ne hid)]
    simpa only [Now, List.mem_cons, hid, false_or] using hnow

/-- **Work on one entry** moves it, and tells whether the old password unlocked it; or the new
password cannot lock it, and nothing changes. -/
theorem relockEntry (hf : ¬ m.failing) (ht : ∀ t, m.shows t → b.Takes t) {e : Entry}
    (hids : (es.map (·.id)).Nodup) (he : e ∈ es) (hd : e.id ∉ done)
    (hs : Midway v old new m b es done s) {r : Except VaultError Bool}
    (h : (Rotation.relockEntry v old new e).Ends m.answers s r s') :
    (r = .ok (opens v old e) ∧ Midway v old new m b es (e.id :: done) s') ∨
      ∃ error, Refused v old new e error ∧ r = .error (.encoding error) ∧
        Midway v old new m b es done s' := by
  obtain ⟨es', hh, hn⟩ := hs.entries
  -- the store may have rewritten the row meanwhile, but its id is still there
  obtain ⟨e', he', hid⟩ := exists_of_now hn he
  rcases relockEntry_ends h with ⟨error, hu, rfl, rfl⟩ | ⟨error, hrefused, rfl, rfl⟩ |
    ⟨text, head, now, hu, hfits, hnow, hcall⟩
  · -- an entry that does not open counts as worked on: it is moved to itself
    have hm : Moved v old new m.shows b.keep e (id e) := by simp only [Moved, hu, id]
    refine .inl ⟨by rw [opens, hu]; rfl, hs.quiet, hs.keep, hs.takes, es', hh, ?_⟩
    have hstep := forall₂_map hn hids he hd (fun _ _ => rfl) hm
    rwa [List.map_id'] at hstep
  · exact .inr ⟨error, hrefused, rfl, hs⟩
  · obtain ⟨hok, hh'⟩ := hh.relocked { e with locked := v.lock.lock text new head, updated := now }
      he' hid (by rw [hs.takes]; exact ht now hnow)
    rcases hcall with ⟨rfl, -, rfl⟩ | ⟨error, rfl, rfl, hno | herr⟩
    · refine .inl ⟨by rw [opens, hu]; rfl, hs.quiet, ?_, ?_, _, hh', ?_⟩
      · exact (Backing.keep_answer _ _).trans hs.keep
      · exact (Backing.takes_answer _ _).trans hs.takes
      · refine forall₂_map hn hids he hd (fun x hx => if_neg hx) ?_
        simp only [Moved, hu, if_true, hs.keep]
        exact ⟨head, now, hfits, hnow, rfl⟩
    · exact absurd hno hf
    · rw [relocking, hok] at herr
      cases herr

/-! ### Many entries -/

/-- **Work in order.** -/
theorem eachEntry (hf : ¬ m.failing) (hc : ¬ m.cancelling) (ht : ∀ t, m.shows t → b.Takes t)
    (hids : (es.map (·.id)).Nodup) {entries : List Entry} (hsub : entries ⊆ es)
    (hnd : (entries.map (·.id) ++ done).Nodup) {n : Nat} {p : Progress}
    (hs : Midway v old new m b es done s)
    (h : (Strongbox.eachEntry (Rotation.relockEntry v old new) n entries).Ends m.answers s p s') :
    Attains v old new m b es entries done n p s' := by
  -- each entry worked on joins `done`, so its id must not come again
  induction entries generalizing n done s with
  | nil =>
      obtain ⟨rfl, rfl⟩ := h
      exact ⟨done, hs, rfl, .inl ⟨rfl, fun id => by simp⟩⟩
  | cons e entries ih =>
      simp only [List.map_cons, List.cons_append, List.nodup_cons] at hnd
      have hd : e.id ∉ done := fun hm => hnd.1 (List.mem_append_right _ hm)
      obtain ⟨x, t, hx, hp⟩ := Program.ends_bind.1 h
      have hwork := Manner.checkpoint_bind hc hs.quiet (Job.ends_def.1 hx)
      rcases hs.relockEntry hf ht hids (hsub List.mem_cons_self) hd hwork with
        ⟨rfl, hs'⟩ | ⟨error, hrefused, rfl, hs'⟩
      · have hmid : ((entries.map (·.id)) ++ e.id :: done).Nodup :=
          List.nodup_middle.2 (List.nodup_cons.2 hnd)
        have hrest := ih (fun a ha => hsub (.tail _ ha)) hmid hs' hp
        have hmem : ∀ id, id ∈ e.id :: done ↔ id ∈ [e].map (·.id) ∨ id ∈ done := fun id => by simp
        refine Attains.append hmem ?_ hrest
        rw [tally_cons hids (hsub List.mem_cons_self) hd]
        cases opens v old e with
        | true => exact Nat.add_right_comm n 1 _
        | false => rfl
      · obtain ⟨rfl, rfl⟩ := hp
        exact ⟨done, hs', rfl, .inr ⟨e, hsub List.mem_cons_self, error, hrefused, rfl⟩⟩

/-- The ids of a journal's entries that were worked on to the end. -/
def through (j : List Handled) : List Uuid :=
  (j.filter (·.outcome.isOk)).map (·.entry.id)

/-- What a pool's journal tells midway: its entries are moved, and counted if the old password
unlocked them, but for those that the new password cannot lock. -/
structure Journal (v : Vault) (old new : String) (m : Manner) (b : Backing) (es : List Entry)
    (done : List Uuid) (j : List Handled) (s : Scene) : Prop where
  scene : Midway v old new m b es (through j ++ done) s
  counts : tally v old es (through j ++ done) = tally v old es done + j.countP Handled.counts
  outcomes : ∀ h ∈ j, h.outcome = .ok (opens v old h.entry) ∨
    ∃ error, Refused v old new h.entry error ∧ h.outcome = .error (.encoding error)

theorem recorded (hf : ¬ m.failing) (hc : ¬ m.cancelling) (ht : ∀ t, m.shows t → b.Takes t)
    (hids : (es.map (·.id)).Nodup) {entries : List Entry} (hsub : entries ⊆ es)
    (hnd : (entries.map (·.id) ++ done).Nodup) :
    Recorded m.answers (Rotation.relockEntry v old new) entries
      (Journal v old new m b es done) where
  cancellation := by
    intro j s c s' hlook hj
    obtain ⟨-, rfl⟩ := Manner.eq_of_look hc hlook
    exact hj
  turns := by
    rintro j s x s' rfl hj
    exact hj
  work := by
    rintro j i e s r s' hnext ha hj
    have he : e ∈ es := hsub (hnext.subset List.mem_cons_self)
    have hd : e.id ∉ through j ++ done := by
      obtain ⟨l, hperm, hl⟩ := hnext
      have hnd' : ((e :: j.map (·.entry)).map (·.id) ++ done).Nodup :=
        ((hperm.map (·.id)).append_right done).nodup_iff.1
          (((hl.map (·.id)).append_right done).nodup hnd)
      rw [List.map_cons, List.map_map, List.cons_append, List.nodup_cons] at hnd'
      have hthrough : (through j).Sublist (j.map (·.entry.id)) := List.filter_sublist.map _
      exact fun hm => hnd'.1 ((hthrough.append_right done).subset hm)
    rcases hj.scene.relockEntry hf ht hids he hd ha with ⟨rfl, hs'⟩ | ⟨error, hrefused, rfl, hs'⟩
    · refine ⟨hs', ?_, List.forall_mem_cons.2 ⟨.inl rfl, hj.outcomes⟩⟩
      have hcount := @tally_cons v old es (through j ++ done) e hids he hd
      rw [hj.counts] at hcount
      rw [List.countP_cons, Handled.counts_ok, ← Nat.add_assoc]
      exact hcount
    · exact ⟨hs', hj.counts, List.forall_mem_cons.2 ⟨.inr ⟨error, hrefused, rfl⟩, hj.outcomes⟩⟩

/-- **Work by a pool**, whatever the order of the turns. -/
theorem dispatch (hf : ¬ m.failing) (hc : ¬ m.cancelling) (ht : ∀ t, m.shows t → b.Takes t)
    (hids : (es.map (·.id)).Nodup) {entries : List Entry} (hsub : entries ⊆ es)
    (hnd : (entries.map (·.id) ++ done).Nodup) {rules : RotationRules} (hw : 0 < rules.workers)
    {n : Nat} {p : Progress} (hs : Midway v old new m b es done s)
    (h : (Rotation.dispatch (Rotation.relockEntry v old new) rules n entries).Ends
      m.answers s p s') :
    Attains v old new m b es entries done n p s' := by
  by_cases he : entries = []
  · subst he
    obtain ⟨rfl, rfl⟩ := h
    exact ⟨done, hs, rfl, .inl ⟨rfl, fun id => by simp⟩⟩
  · have h' : ((Pool.run (Rotation.relockEntry v old new) rules entries).bind
        fun q => q.outcome n).Ends m.answers s p s' := by
      simpa [Rotation.dispatch, he] using h
    obtain ⟨q, t, hq, ho⟩ := Program.ends_bind.1 h'
    have hstart : Journal v old new m b es done [] s := ⟨hs, rfl, fun _ hh => by cases hh⟩
    obtain ⟨-, hk, hj⟩ :=
      run_settled m.watched (recorded hf hc ht hids hsub hnd) hw he hq hstart
    obtain ⟨hfin, hcases⟩ := outcome_ends hk ho
    have hcount : p.finished + tally v old es done
        = n + tally v old es (through q.journal ++ done) := by
      rw [hfin, hj.counts]
      omega
    rcases hcases with ⟨x, hx, failure, hfail, hp, rfl⟩ | ⟨hfail, c, hlook, hp⟩
    · -- the failure is that of a worker, and it only fails where the new password cannot lock
      refine ⟨_, hj.scene, hcount, .inr ?_⟩
      rcases hj.outcomes x hx with hok | ⟨error, hrefused, hrefusal⟩
      · rw [Handled.failure?, hok] at hfail
        cases hfail
      · rw [Handled.failure?, hrefusal] at hfail
        rw [← hfail] at hp
        exact ⟨x.entry, hsub (hk.subperm.subset (List.mem_map_of_mem hx)), error, hrefused, hp⟩
    · obtain ⟨rfl, rfl⟩ := Manner.eq_of_look hc hlook
      have hquiet : ¬ s'.caller.raised = true := by
        rw [hj.scene.quiet]
        exact Bool.false_ne_true
      refine ⟨_, hj.scene, hcount, .inl ⟨by rw [hp, if_neg hquiet], fun id => ?_⟩⟩
      have hall : through q.journal = q.journal.map (·.entry.id) := by
        rw [through, List.filter_eq_self.2 fun x hx => ?_]
        rcases hj.outcomes x hx with hok | ⟨error, -, hrefusal⟩
        · rw [hok]
          rfl
        · have hnone := hfail x hx
          rw [Handled.failure?, hrefusal] at hnone
          cases hnone
      have hperm := ((hk.all_worked hfail hquiet).map (·.id)).mem_iff (a := id)
      rw [List.map_map] at hperm
      rw [hall, List.mem_append, ← hperm]
      rfl

end Midway

end

end Strongbox.Rotation
