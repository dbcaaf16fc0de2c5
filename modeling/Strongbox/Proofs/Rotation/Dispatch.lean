import Strongbox.Proofs.Rotation.Accounts
import Strongbox.Proofs.Scene
import Strongbox.Rotation.Basic

/-!
# Rotation — what a pool comes to

The pool's reports, read in the order of their sending, come to the counted entries and to a
failure of some worker, if any worker failed.

* `relockEntry_asks`, `relockEntry_ends`: what work on one entry asks, and what it does to the
  scene.
* `outcome_ends`: what the reports of a settled pool come to.
* `dispatch_accounts`: for every order of the turns, every moment of a cancellation and every
  pattern of failing calls, no entry is worked on twice, each committed update is counted once, and
  the run goes through only if all entries were worked on and no worker failed.
-/

namespace Strongbox.Rotation

/-! ### One entry -/

/-- The update that moves an entry to a new password. -/
def relocking (v : Vault) (e : Entry) (text new : String) (head : Bytes) (now : Instant) :
    Store.Call :=
  .update { e with locked := v.lock.lock text new head, updated := now } [.locked, .updated]

/-- The old password unlocks the entry, and the new one cannot lock what was found. -/
def Refused (v : Vault) (old new : String) (e : Entry) (error : LockError) : Prop :=
  ∃ text, v.lock.unlock e.locked old = .ok text ∧ v.lock.lockFault? text new = some error

/-- The questions of work on one entry, in any surroundings: none, or random bytes alone, or random
bytes, the time and an update. -/
theorem relockEntry_asks {σ : Type} {S : Surroundings σ} {v : Vault} {old new : String} {e : Entry}
    {s s' : σ} {r : Except VaultError Bool} (h : (relockEntry v old new e).Ends S s r s') :
    (∃ error, v.lock.unlock e.locked old = .error error ∧ r = .ok false ∧ s' = s) ∨
    (∃ error head, Refused v old new e error ∧ S (.random v.lock.headLength) s head s' ∧
      r = .error (.encoding error)) ∨
    ∃ text head now, v.lock.unlock e.locked old = .ok text ∧
      v.lock.lockFault? text new = none ∧ ∃ t u,
        S (.random v.lock.headLength) s head t ∧ S .now t now u ∧
        ((S (.store (relocking v e text new head now)) u (.ok ()) s' ∧ r = .ok true) ∨
          ∃ error, S (.store (relocking v e text new head now)) u (.error error) s' ∧
            r = .error (.store error)) := by
  simp only [relockEntry] at h
  cases hu : v.lock.unlock e.locked old with
  | error error =>
      rw [hu] at h
      obtain ⟨rfl, rfl⟩ := Job.ends_pure.1 h
      exact .inl ⟨error, rfl, rfl, rfl⟩
  | ok text =>
      rw [hu] at h
      obtain ⟨head, t, hrandom, hlock⟩ := Vault.ends_lockText_bind.1 h
      cases hfault : v.lock.lockFault? text new with
      | some error =>
          rw [hfault] at hlock
          obtain ⟨rfl, rfl⟩ := hlock
          exact .inr (.inl ⟨error, head, ⟨text, hu, hfault⟩, hrandom, rfl⟩)
      | none =>
          rw [hfault] at hlock
          obtain ⟨now, u, hclock, hcall⟩ := Job.ends_reply_bind.1 hlock
          obtain ⟨x, w, hx, hr⟩ := Job.ends_call_bind.1 hcall
          refine .inr (.inr ⟨text, head, now, rfl, hfault, t, u, hrandom, hclock, ?_⟩)
          cases x with
          | ok a =>
              obtain ⟨rfl, rfl⟩ := Job.ends_pure.1 hr
              exact .inl ⟨hx, rfl⟩
          | error error =>
              obtain ⟨rfl, rfl⟩ := hr
              exact .inr ⟨error, hx, rfl⟩

/-- Work on an entry goes through whose questions are answered. -/
theorem relockEntry_pass {σ : Type} {S : Surroundings σ} {v : Vault} {old new text : String}
    {e : Entry} {s t u s' : σ} {head : Bytes} {now : Instant}
    (hu : v.lock.unlock e.locked old = .ok text) (hfault : v.lock.lockFault? text new = none)
    (hrandom : S (.random v.lock.headLength) s head t) (hnow : S .now t now u)
    (hcall : S (.store (relocking v e text new head now)) u (.ok ()) s') :
    (relockEntry v old new e).Ends S s (.ok true) s' := by
  simp only [relockEntry, hu]
  refine Vault.ends_lockText_bind.2 ⟨head, t, hrandom, ?_⟩
  rw [hfault]
  exact ⟨now, u, hnow, .ok (), s', hcall, rfl, rfl⟩

section

variable {m : Manner} {v : Vault} {old new : String} {e : Entry} {s s' : Scene}
  {r : Except VaultError Bool}

/-- **Work on one entry.**  An entry that the old password does not unlock is left alone, and so is
one that the new password cannot lock, which is an error.  Any other is written once, or the store
fails and nothing has changed. -/
theorem relockEntry_ends (h : (relockEntry v old new e).Ends m.answers s r s') :
    (∃ error, v.lock.unlock e.locked old = .error error ∧ r = .ok false ∧ s' = s) ∨
    (∃ error, Refused v old new e error ∧ r = .error (.encoding error) ∧ s' = s) ∨
    ∃ text head now, v.lock.unlock e.locked old = .ok text ∧ v.lock.Fits text new head ∧
      m.shows now ∧
      ((r = .ok true ∧ (s.store.answer (relocking v e text new head now)).1 = .ok () ∧
          s' = s.after (relocking v e text new head now)) ∨
        ∃ error, r = .error (.store error) ∧ s' = s ∧
          (m.failing ∨ (s.store.answer (relocking v e text new head now)).1 = .error error)) := by
  rcases relockEntry_asks h with hleft | ⟨error, -, hrefused, ⟨-, rfl⟩, rfl⟩ |
    ⟨text, head, now, hu, hfault, t, u, ⟨hl, rfl⟩, ⟨hn, rfl⟩, hcall⟩
  · exact .inl hleft
  · exact .inr (.inl ⟨error, hrefused, rfl, rfl⟩)
  · refine .inr (.inr ⟨text, head, now, hu, ⟨hl, hfault⟩, hn, ?_⟩)
    rcases hcall with ⟨hx, rfl⟩ | ⟨error, hx, rfl⟩
    · rcases hx with ⟨hx, rfl⟩ | ⟨-, ⟨_, e⟩, -⟩
      · exact .inl ⟨rfl, hx.symm, rfl⟩
      · cases e
    · rcases hx with ⟨hx, rfl⟩ | ⟨hf, -, rfl⟩
      · exact .inr ⟨error, rfl, Scene.after_of_error hx.symm, .inr hx.symm⟩
      · exact .inr ⟨error, rfl, rfl, .inl hf⟩

end

/-! ### The reports -/

theorem finished_eq (p : Pool) (n : Nat) :
    p.finished n = n + Pool.total (·.finished) p.reports := by
  have key : ∀ (rs : List Report) (n : Nat),
      rs.foldl (fun n r => n + r.finished) n = n + Pool.total (·.finished) rs := by
    intro rs
    induction rs with
    | nil => exact fun _ => rfl
    | cons r rs ih =>
        intro n
        simp only [List.foldl_cons, ih, Pool.total]
        omega
  exact key p.reports n

section

variable {σ : Type} {S : Surroundings σ} {raised : σ → Prop} {es : List Entry}

/-- The first failure reported is one of the journal, if there is any. -/
theorem Settled.firstFailure? {p : Pool} {s : σ} (hk : Settled raised es p s) :
    (p.firstFailure? = none ∧ ∀ h ∈ p.journal, h.failure? = none) ∨
      ∃ h ∈ p.journal, ∃ failure, h.failure? = some failure ∧ p.firstFailure? = some failure := by
  have hf : p.firstFailure? = (p.reports.filterMap (·.failure)).head? :=
    List.head?_filterMap.symm
  cases e : p.reports.filterMap (·.failure) with
  | nil =>
      have hj := hk.failures
      rw [e] at hj
      exact .inl ⟨by rw [hf, e]; rfl, List.filterMap_eq_nil_iff.1 hj.nil_eq.symm⟩
  | cons failure rest =>
      have hm : failure ∈ p.journal.filterMap Handled.failure? :=
        hk.failures.mem_iff.1 (e ▸ List.mem_cons_self)
      obtain ⟨h, hh, hfail⟩ := List.mem_filterMap.1 hm
      exact .inr ⟨h, hh, failure, hfail, by rw [hf, e]; rfl⟩

/-- What the reports of a settled pool come to. -/
theorem outcome_ends {q : Pool} {n : Nat} {t s' : σ} {p : Progress} (hk : Settled raised es q t)
    (h : (q.outcome n).Ends S t p s') :
    p.finished = n + q.journal.countP Handled.counts ∧
      ((∃ h ∈ q.journal, ∃ failure, h.failure? = some failure ∧ p.failure = some failure ∧
          s' = t) ∨
        (∀ h ∈ q.journal, h.failure? = none) ∧ ∃ c, S .cancellation t c s' ∧
          p.failure = if c.raised then
            some (.cancelled p.finished (c.reason.getD Cancellation.callerReason)) else none) := by
  have hfin : q.finished n = n + q.journal.countP Handled.counts := by
    rw [finished_eq, hk.counts]
  rcases hk.firstFailure? with ⟨hn, hj⟩ | ⟨x, hx, failure, hfail, hs⟩
  · simp only [Pool.outcome, hn] at h
    obtain ⟨c, u, hc, hp⟩ := Program.ends_reply_bind.1 h
    cases hr : c.raised with
    | true =>
        simp only [Cancellation.check_of_raised hr] at hp
        obtain ⟨rfl, rfl⟩ := hp
        exact ⟨hfin, .inr ⟨hj, c, hc, by rw [if_pos hr]⟩⟩
    | false =>
        simp only [Cancellation.check_of_not_raised hr] at hp
        obtain ⟨rfl, rfl⟩ := hp
        exact ⟨hfin, .inr ⟨hj, c, hc, by rw [hr]; rfl⟩⟩
  · simp only [Pool.outcome, hs] at h
    obtain ⟨rfl, rfl⟩ := h
    exact ⟨hfin, .inl ⟨x, hx, failure, hfail, rfl, rfl⟩⟩

end

/-! ### The whole run -/

/-- The updates carried out since `s₀` are those of the counted entries of a journal. -/
def WrittenSince (s₀ : Scene) (j : List Handled) (s : Scene) : Prop :=
  ∃ updates, s.written = updates ++ s₀.written ∧
    updates.map (·.id) = (j.filter Handled.counts).map (·.entry.id)

/-- Each update is carried out for one counted entry. -/
theorem recorded_written (v : Vault) (old new : String) (m : Manner) (s₀ : Scene)
    (es : List Entry) :
    Recorded m.answers (relockEntry v old new) es (WrittenSince s₀) where
  cancellation := by
    rintro j s c s' ⟨-, rfl⟩ hj
    exact hj
  turns := by
    rintro j s x s' rfl hj
    exact hj
  work := by
    rintro j i e s r s' - ha ⟨updates, hu, hj⟩
    rcases relockEntry_ends ha with ⟨_, -, rfl, rfl⟩ | ⟨_, -, rfl, rfl⟩ |
      ⟨text, head, now, -, -, -, ⟨rfl, hok, rfl⟩ | ⟨_, rfl, rfl, -⟩⟩
    · exact ⟨updates, hu, hj⟩
    · exact ⟨updates, hu, hj⟩
    · refine ⟨(relocking v e text new head now).updates ++ updates, ?_, ?_⟩
      · rw [Scene.written_after hok, hu, List.append_assoc]
      · rw [List.filter_cons, Handled.counts_ok, if_pos rfl, List.map_append, hj]
        rfl
    · exact ⟨updates, hu, hj⟩

/-- **The accounts of a pool's run.**  Whatever the order of the turns, the moment of a
cancellation and the calls to the store that fail: no entry is worked on twice; the entries counted
are the updates carried out; the run goes through only if every entry was worked on and no worker
failed; a worker's failure is the result if there is one, and otherwise the result is the caller's
cancellation at the last look. -/
theorem dispatch_accounts (v : Vault) (old new : String) (m : Manner) {rules : RotationRules}
    (hw : 0 < rules.workers) {entries : List Entry} (hid : (entries.map (·.id)).Nodup) {n : Nat}
    {s s' : Scene} {p : Progress}
    (h : (dispatch (relockEntry v old new) rules n entries).Ends m.answers s p s') :
    (entries = [] ∧ p = ⟨n, none⟩ ∧ s' = s) ∨
    ∃ q t, (Pool.run (relockEntry v old new) rules entries).Ends m.answers s q t ∧
      (q.outcome n).Ends m.answers t p s' ∧ q.Ended ∧
      (q.journal.map (·.entry.id)).Nodup ∧ (∀ h ∈ q.journal, h.entry ∈ entries) ∧
      (∃ updates, s'.written = updates ++ s.written ∧ p.finished = n + updates.length ∧
        updates.map (·.id) = (q.journal.filter Handled.counts).map (·.entry.id)) ∧
      (p.failure = none →
        (q.journal.map (·.entry)).Perm entries ∧ ∀ h ∈ q.journal, h.failure? = none) ∧
      ((∃ h ∈ q.journal, ∃ failure, h.failure? = some failure) →
        ∃ h ∈ q.journal, ∃ failure, h.failure? = some failure ∧ p.failure = some failure) ∧
      ((∀ h ∈ q.journal, h.failure? = none) →
        p.failure = if s'.caller.raised then
          some (.cancelled p.finished (s'.caller.reason.getD Cancellation.callerReason))
          else none) := by
  by_cases he : entries = []
  · subst he
    obtain ⟨rfl, rfl⟩ := h
    exact .inl ⟨rfl, rfl, rfl⟩
  · have h' : ((Pool.run (relockEntry v old new) rules entries).bind
        fun q => q.outcome n).Ends m.answers s p s' := by
      simpa [dispatch, he] using h
    obtain ⟨q, t, hq, ho⟩ := Program.ends_bind.1 h'
    obtain ⟨hend, hk, hu⟩ := run_settled m.watched (recorded_written v old new m s entries) hw he
      hq ⟨[], rfl, rfl⟩
    obtain ⟨hfin, hres⟩ := outcome_ends hk ho
    refine .inr ⟨q, t, hq, ho, hend, ?_, ?_, ?_, ?_, ?_, ?_⟩
    · obtain ⟨worked, hperm, hsub⟩ := hk.subperm
      have hn := (hperm.map (·.id)).nodup_iff.1 ((hsub.map (·.id)).nodup hid)
      rwa [List.map_map] at hn
    · exact fun x hx => hk.subperm.subset (List.mem_map_of_mem hx)
    · obtain ⟨updates, hwr, hids⟩ := hu
      refine ⟨updates, ?_, ?_, hids⟩
      · rcases hres with ⟨-, -, -, -, -, rfl⟩ | ⟨-, c, ⟨-, rfl⟩, -⟩
        · exact hwr
        · exact hwr
      · have hl := congrArg List.length hids
        rw [List.length_map, List.length_map] at hl
        rw [hfin, List.countP_eq_length_filter, hl]
    · intro hnone
      rcases hres with ⟨-, -, failure, -, hs, -⟩ | ⟨hj, c, hc, hp⟩
      · rw [hnone] at hs
        cases hs
      · refine ⟨hk.all_worked hj fun hr => ?_, hj⟩
        -- whoever stopped because of the caller, the last look finds the same
        rw [hnone, if_pos ((m.watched.tells _ _ _ hc).2 (m.watched.keeps _ _ _ _ hc hr))] at hp
        cases hp
    · rintro ⟨x, hx, failure, hf⟩
      rcases hres with ⟨y, hy, failure', hf', hp, -⟩ | ⟨hj, -⟩
      · exact ⟨y, hy, failure', hf', hp⟩
      · rw [hj x hx] at hf
        cases hf
    · intro hj
      rcases hres with ⟨y, hy, failure, hf, -⟩ | ⟨-, c, ⟨-, rfl⟩, hp⟩
      · rw [hj y hy] at hf
        cases hf
      · exact hp

/-- Two entries: a hidden one that "old" unlocks, and an active one that nothing unlocks. -/
def samples : List Entry :=
  [⟨.ofNat 0, "first", Vault.usual.lock.lock "text" "old" (List.replicate 28 0), default, default,
      none, some default⟩,
    ⟨.ofNat 1, "second", "plain", default, default, some default, none⟩]

/-- The accounts of a run on two entries. -/
theorem dispatch_accounts_samples :
    ∃ p s', (dispatch (relockEntry Vault.usual "old" "new") {} 0 samples).Ends
        (Manner.rough fun _ => True).answers ⟨.indexed .empty, .idle, []⟩ p s' ∧
      p.finished = s'.written.length := by
  obtain ⟨p, s', h⟩ := Manner.exists_ends (m := Manner.rough fun _ => True) ⟨default, trivial⟩
    (fun _ => ⟨.ofNat 0, trivial⟩) (fun _ => ⟨.ok "", trivial⟩)
    (dispatch (relockEntry Vault.usual "old" "new") {} 0 samples) ⟨.indexed .empty, .idle, []⟩
  refine ⟨p, s', h, ?_⟩
  rcases dispatch_accounts Vault.usual "old" "new" (.rough fun _ => True) (by decide)
      (by decide) h with ⟨he, -⟩ | ⟨q, t, -, -, -, -, -, ⟨updates, hw, hfin, -⟩, -⟩
  · cases he
  · rw [hw, hfin, List.append_nil, Nat.zero_add]

end Strongbox.Rotation
