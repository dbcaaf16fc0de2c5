import Strongbox.Proofs.Rotation.Schedule
import Strongbox.Proofs.Vault.Purge

/-!
# Vault — where a purge stops

A purge that is stopped, by a call to the store that fails or by the caller, has purged the first
entries due, by id, and its result tells their number.  It may stop between pages, between the
entries of a page or in a call; the pages that were read before make no difference.

* `Unstopped`: the log of a run that nothing has stopped yet; `Cut`: what stops it.
* `Amid`, `Halt`: the store and the log while a purge goes on, and where it has stopped.
* `Amid.turn`, `Amid.eachEntry`, `Amid.eachPage`: work on one entry, in order and page by page
  either goes on or halts.
* `purge_stops`: what a purge leaves and reports, wherever it stops.
-/

namespace Strongbox

/-- What the clock showed. -/
def Exchange.clock? {σ : Type} (x : Exchange σ) : Option Instant :=
  match x with
  | ⟨.now, t, _⟩ => some t
  | _ => none

namespace Vault

open Rotation (Given Cancelled given_after cancelled_of_look)

/-! ### Logs -/

/-- The log of a run that nothing has stopped yet: no call has failed, and every look has found the
caller's cancellation not raised. -/
structure Unstopped (s₀ : Scene) (s : Logged Scene) : Prop where
  whole : ∀ x ∈ s.log, x.failure? = none
  unraised : ∀ x ∈ s.log, ∀ c, x.look? = some c → c.raised = false
  reasons : ∀ reason, Given s₀ s.log reason → s.state.caller.reason = some reason

/-- The last question of a run has stopped it: a call has failed, or a look has found the caller's
cancellation raised. -/
inductive Cut (s₀ : Scene) : Logged Scene → VaultError → Prop where
  | failed {s s' : Logged Scene} {x : Exchange Scene} {e : StoreError} (h : Unstopped s₀ s)
      (hlog : s'.log = x :: s.log) (hf : x.failure? = some e) : Cut s₀ s' (.store e)
  | cancelled {s s' : Logged Scene} {c : Cancellation} {n : Nat} (h : Unstopped s₀ s)
      (hlog : s'.log = ⟨.cancellation, c, s'.state⟩ :: s.log) (hc : c.raised = true)
      (hr : Cancelled s₀ s'.log (c.reason.getD Cancellation.callerReason)) :
      Cut s₀ s' (.cancelled n (c.reason.getD Cancellation.callerReason))

/-- The clock was read, and it showed the instant only. -/
structure Timed (now : Instant) (log : List (Exchange Scene)) : Prop where
  read : ∃ x ∈ log, x.clock? = some now
  only : ∀ x ∈ log, ∀ t, x.clock? = some t → t = now

/-- The purge from `s₀` goes on, the entries with an id in `done` having been purged. -/
structure Amid (s₀ : Scene) (mode : PurgeMode) (now : Instant) (done : List Uuid)
    (s : Logged Scene) : Prop where
  store : s.state.store = s₀.store.purged mode now done
  timed : Timed now s.log
  unstopped : Unstopped s₀ s

/-- The purge from `s₀` has stopped, the entries with an id in `done` having been purged. -/
structure Halt (s₀ : Scene) (mode : PurgeMode) (now : Instant) (done : List Uuid)
    (s : Logged Scene) (error : VaultError) : Prop where
  store : s.state.store = s₀.store.purged mode now done
  timed : Timed now s.log
  cut : Cut s₀ s error

section

variable {α : Type} {m : Manner} {v : Vault} {s₀ : Scene} {es : List Entry} {mode : PurgeMode}
  {now : Instant} {done : List Uuid} {n : Nat} {s s' : Logged Scene}

theorem unstopped_start (s₀ : Scene) : Unstopped s₀ ⟨s₀, []⟩ where
  whole _ hx := absurd hx List.not_mem_nil
  unraised _ hx := absurd hx List.not_mem_nil
  reasons reason h := by
    rcases h with h | ⟨_, hx, -⟩
    · exact h
    · cases hx

namespace Unstopped

/-- A question that stops nothing. -/
theorem cons (h : Unstopped s₀ s) {r : Request} {x : r.Reply} (hx : logged m.answers r s x s')
    (hf : Exchange.failure? (⟨r, x, s'.state⟩ : Exchange Scene) = none)
    (hc : ∀ c, Exchange.look? (⟨r, x, s'.state⟩ : Exchange Scene) = some c → c.raised = false) :
    Unstopped s₀ s' where
  whole := by
    rw [hx.2]
    exact List.forall_mem_cons.2 ⟨hf, h.whole⟩
  unraised := by
    rw [hx.2]
    exact List.forall_mem_cons.2 ⟨hc, h.unraised⟩
  reasons := given_after h.reasons hx

/-- A look lets the work go on, or stops it. -/
theorem checkpoint_bind (h : Unstopped s₀ s) {f : Unit → Job α} {r : Except VaultError α}
    (hrun : Job.Ends (logged m.answers) (Job.checkpoint n >>= f) s r s') :
    (∃ t, (f ()).Ends (logged m.answers) t r s' ∧ t.state.store = s.state.store ∧
      (∃ c, t.log = ⟨.cancellation, c, t.state⟩ :: s.log) ∧ Unstopped s₀ t) ∨
    ∃ reason, r = .error (.cancelled n reason) ∧ s'.state.store = s.state.store ∧
      (∃ c, s'.log = ⟨.cancellation, c, s'.state⟩ :: s.log) ∧ Cut s₀ s' (.cancelled n reason) := by
  obtain ⟨c, t, hlook, hcases⟩ := Job.ends_checkpoint_cases hrun
  have hstore : t.state.store = s.state.store := by rw [hlook.1.2]
  rcases hcases with ⟨hraised, rfl, rfl⟩ | ⟨hraised, hf⟩
  · exact .inr ⟨_, rfl, hstore, ⟨c, hlook.2⟩,
      .cancelled h hlook.2 hraised (cancelled_of_look h.reasons hlook hraised)⟩
  · refine .inl ⟨t, hf, hstore, ⟨c, hlook.2⟩, h.cons hlook rfl ?_⟩
    rintro _ ⟨⟩
    exact hraised

/-- A call that the store would carry out is carried out, or fails. -/
theorem call (h : Unstopped s₀ s) {c : Store.Call} {a : c.Answer} {b : Backing}
    (ha : s.state.store.answer c = (.ok a, b)) {x : c.Reply}
    (hx : logged m.answers (.store c) s x s') :
    (x = .ok a ∧ s'.state.store = b ∧ Unstopped s₀ s') ∨
      ∃ e, x = .error e ∧ s'.state.store = s.state.store ∧ Cut s₀ s' (.store e) := by
  rcases hx.1 with ⟨rfl, hstate⟩ | ⟨-, ⟨e, rfl⟩, hstate⟩
  · have hstore : s'.state.store = b := by
      rw [hstate]
      exact congrArg Prod.snd ha
    rw [ha] at hx ⊢
    exact .inl ⟨rfl, hstore, h.cons hx rfl nofun⟩
  · exact .inr ⟨e, rfl, by rw [hstate], .failed h hx.2 rfl⟩

end Unstopped

theorem Timed.cons {x : Exchange Scene} {log : List (Exchange Scene)} (h : Timed now log)
    (hx : x.clock? = none) : Timed now (x :: log) where
  read := by
    obtain ⟨y, hy, hnow⟩ := h.read
    exact ⟨y, List.mem_cons_of_mem _ hy, hnow⟩
  only := by
    refine List.forall_mem_cons.2 ⟨fun t ht => ?_, h.only⟩
    rw [hx] at ht
    cases ht

/-! ### One entry -/

namespace Amid

/-- A look lets the purge go on, or stops it. -/
theorem checkpoint_bind (h : Amid s₀ mode now done s) {f : Unit → Job α}
    {r : Except VaultError α}
    (hrun : Job.Ends (logged m.answers) (Job.checkpoint n >>= f) s r s') :
    (∃ t, (f ()).Ends (logged m.answers) t r s' ∧ Amid s₀ mode now done t) ∨
      ∃ error, r = .error error ∧ Halt s₀ mode now done s' error := by
  rcases h.unstopped.checkpoint_bind hrun with
    ⟨t, hf, hstore, ⟨c, hlog⟩, ht⟩ | ⟨reason, rfl, hstore, ⟨c, hlog⟩, hcut⟩
  · exact .inl ⟨t, hf, hstore.trans h.store, hlog ▸ h.timed.cons rfl, ht⟩
  · exact .inr ⟨_, rfl, hstore.trans h.store, hlog ▸ h.timed.cons rfl, hcut⟩

/-- A call that the store would carry out is carried out, or stops the purge. -/
theorem call (h : Amid s₀ mode now done s) {c : Store.Call} {a : c.Answer} {done' : List Uuid}
    (ha : (s₀.store.purged mode now done).answer c = (.ok a, s₀.store.purged mode now done'))
    {x : c.Reply} (hx : logged m.answers (.store c) s x s') :
    (x = .ok a ∧ Amid s₀ mode now done' s') ∨
      ∃ e, x = .error e ∧ Halt s₀ mode now done s' (.store e) := by
  have htimed : Timed now s'.log := hx.2 ▸ h.timed.cons rfl
  rw [← h.store] at ha
  rcases h.unstopped.call ha hx with ⟨rfl, hstore, hs'⟩ | ⟨e, rfl, hstore, hcut⟩
  · exact .inl ⟨rfl, hstore, htimed, hs'⟩
  · exact .inr ⟨e, rfl, hstore.trans h.store, htimed, hcut⟩

/-- **Work on one entry at its turn** purges it, or halts. -/
theorem turn (hb : s₀.store.Lists es) {e : Entry} (he : e ∈ es) (hid : e.id ∉ done)
    (h : Amid s₀ mode now done s) {r : Except VaultError Bool}
    (hrun : Job.Ends (logged m.answers) (do Job.checkpoint n; purgeEntry mode now e) s r s') :
    (r = .ok true ∧ Amid s₀ mode now (done ++ [e.id]) s') ∨
      ∃ error, r = .error error ∧ Halt s₀ mode now done s' error := by
  rcases h.checkpoint_bind hrun with ⟨t, hwork, ht⟩ | hhalt
  · cases mode with
    | soft =>
        obtain ⟨x, u, hx, hr⟩ := Job.ends_call_bind.1 hwork
        rcases ht.call (hb.answer_hide now done he) hx with ⟨rfl, hu⟩ | ⟨e, rfl, hhalt⟩
        · obtain ⟨rfl, rfl⟩ := Job.ends_pure.1 hr
          exact .inl ⟨rfl, hu⟩
        · obtain ⟨rfl, rfl⟩ := hr
          exact .inr ⟨_, rfl, hhalt⟩
    | hard =>
        obtain ⟨x, u, hx, hr⟩ := Job.ends_call_bind.1 hwork
        rcases ht.call (hb.answer_erase he hid) hx with ⟨rfl, hu⟩ | ⟨e, rfl, hhalt⟩
        · obtain ⟨rfl, rfl⟩ := Job.ends_pure.1 hr
          exact .inl ⟨rfl, hu⟩
        · obtain ⟨rfl, rfl⟩ := hr
          exact .inr ⟨_, rfl, hhalt⟩
  · exact .inr hhalt

end Amid

/-! ### Entries in order -/

/-- What work on entries comes to that purges them, `n` others having been purged before: all of
them are purged, or the first of them, and then the work has halted. -/
inductive Comes (s₀ : Scene) (mode : PurgeMode) (now : Instant) (done : List Uuid) (n : Nat)
    (entries : List Entry) : Progress → Logged Scene → Prop where
  | through {s : Logged Scene} (h : Amid s₀ mode now (done ++ idsOf entries) s) :
      Comes s₀ mode now done n entries ⟨n + entries.length, none⟩ s
  | halts {s : Logged Scene} {error : VaultError} (i : Nat) (hi : i ≤ entries.length)
      (h : Halt s₀ mode now (done ++ idsOf (entries.take i)) s error) :
      Comes s₀ mode now done n entries ⟨n + i, some error⟩ s

/-- Work on more entries, after the first of them have been purged. -/
theorem Comes.after (xs : List Entry) {ys : List Entry} {p : Progress}
    (h : Comes s₀ mode now (done ++ idsOf xs) (n + xs.length) ys p s) :
    Comes s₀ mode now done n (xs ++ ys) p s := by
  have hids : ∀ zs, done ++ idsOf xs ++ idsOf zs = done ++ idsOf (xs ++ zs) := fun zs => by
    rw [List.append_assoc, idsOf, idsOf, ← List.map_append]
  cases h with
  | through h =>
      rw [hids] at h
      rw [Nat.add_assoc, ← List.length_append]
      exact .through h
  | halts i hi h =>
      rw [hids, ← List.take_length_add_append] at h
      rw [Nat.add_assoc]
      exact .halts _ (by rw [List.length_append]; omega) h

/-- Work that has halted among the first entries goes no further. -/
theorem Comes.before {xs : List Entry} {i : Nat} {error : VaultError} (ys : List Entry)
    (hi : i ≤ xs.length) (h : Halt s₀ mode now (done ++ idsOf (xs.take i)) s error) :
    Comes s₀ mode now done n (xs ++ ys) ⟨n + i, some error⟩ s := by
  have htake : (xs ++ ys).take i = xs.take i := List.take_append_of_le_length hi
  rw [← htake] at h
  exact .halts i (by rw [List.length_append]; omega) h

/-- **Work on entries one after another.** -/
theorem Amid.eachEntry (hb : s₀.store.Lists es) {entries : List Entry} (hsub : entries ⊆ es)
    (hnd : (done ++ idsOf entries).Nodup) (h : Amid s₀ mode now done s) {p : Progress}
    (hrun : (Strongbox.eachEntry (purgeEntry mode now) n entries).Ends (logged m.answers) s p s') :
    Comes s₀ mode now done n entries p s' := by
  induction entries generalizing done n s with
  | nil =>
      obtain ⟨rfl, rfl⟩ := hrun
      exact .through (by simpa using h)
  | cons e entries ih =>
      obtain ⟨he, hsub⟩ := List.cons_subset.1 hsub
      have hid : e.id ∉ done := fun hm =>
        (List.nodup_append.1 hnd).2.2 _ hm _ List.mem_cons_self rfl
      obtain ⟨x, t, hx, hp⟩ := Program.ends_bind.1 hrun
      rcases h.turn hb he hid (Job.ends_def.1 hx) with ⟨rfl, ht⟩ | ⟨error, rfl, hhalt⟩
      · have hids : done ++ [e.id] ++ idsOf entries = done ++ idsOf (e :: entries) := by
          simp [idsOf]
        exact Comes.after [e] (ih hsub (hids ▸ hnd) ht hp)
      · obtain ⟨rfl, rfl⟩ := hp
        exact .halts 0 (Nat.zero_le _) (by simpa using hhalt)

/-! ### Pages -/

/-- **Work page by page** purges what is expired among the entries from an offset on, or halts. -/
theorem Amid.eachPage (hb : s₀.store.Lists es) {size : Nat} (hsize : 0 < size)
    {rounds offset : Nat} {front todo : List Entry} (hnd : done.Nodup)
    (hl : es.filter (mode.lists done) = front ++ todo) (ho : front.length = offset)
    (hr : todo.length < rounds) (h : Amid s₀ mode now done s) {p : Progress}
    (hrun : (Strongbox.eachPage (purgeFilter mode) size true
      (fun n page => Strongbox.eachEntry (purgeEntry mode now) n
        (page.filter (·.isExpired now))) rounds offset n).Ends (logged m.answers) s p s') :
    Comes s₀ mode now done n (todo.filter (·.isExpired now)) p s' := by
  induction rounds generalizing done n offset s front todo with
  | zero => omega
  | succ rounds ih =>
      have hsplit : (todo.take size).filter (·.isExpired now)
          ++ (todo.drop size).filter (·.isExpired now) = todo.filter (·.isExpired now) := by
        rw [← List.filter_append, List.take_append_drop]
      obtain ⟨x, t, hx, hp⟩ := Program.ends_bind.1 hrun
      rcases h.checkpoint_bind (Job.ends_def.1 hx) with ⟨u, hlist, hu⟩ | ⟨error, rfl, hhalt⟩
      swap
      · obtain ⟨rfl, rfl⟩ := hp
        exact .halts 0 (Nat.zero_le _) (by simpa using hhalt)
      obtain ⟨y, hy, rfl⟩ := Job.ends_call.1 hlist
      rcases hu.call (Purging.answer_page hb hl ho size) hy with ⟨rfl, ht⟩ | ⟨e, rfl, hhalt⟩
      swap
      · obtain ⟨rfl, rfl⟩ := hp
        exact .halts 0 (Nat.zero_le _) (by simpa using hhalt)
      obtain ⟨q, w, hq, hp⟩ := Program.ends_bind.1 hp
      obtain ⟨hes, hnd'⟩ := Purging.fresh_page hb.ids hnd hl size (·.isExpired now)
      cases ht.eachEntry hb hes hnd' hq with
      | halts i hi hhalt =>
          rw [if_pos (.inl rfl)] at hp
          obtain ⟨rfl, rfl⟩ := hp
          rw [← hsplit]
          exact .before _ hi hhalt
      | through hw =>
          by_cases hlast : (todo.take size).length < size
          · -- the last page: it holds what was left
            rw [if_pos (.inr hlast)] at hp
            obtain ⟨rfl, rfl⟩ := hp
            have htake : todo.take size = todo :=
              List.take_of_length_le (by rw [List.length_take] at hlast; omega)
            rw [htake] at hw ⊢
            exact .through hw
          · rw [if_neg (by simpa using hlast)] at hp
            simp only [if_true, Nat.add_sub_cancel_left] at hp
            obtain ⟨hl', ho'⟩ := Purging.next_page size hb.ids hl ho (·.isExpired now)
            have hr' : (todo.drop size).length < rounds := by
              rw [List.length_take] at hlast
              rw [List.length_drop]
              omega
            rw [← hsplit]
            exact .after _ (ih hnd' hl' ho' hr' hw hp)

/-! ### The whole purge -/

/-- What a purge reports that has purged `k` of `total` entries due.  It goes through if nothing
stops it, and then it has purged all.  A call that fails is told with the number of the entries
purged, and a cancellation with the number and the reason that the caller gave first. -/
structure Reports (s₀ : Scene) (log : List (Exchange Scene)) (k total : Nat)
    (r : Except VaultError Nat) : Prop where
  ok : ∀ n, r = .ok n → n = k ∧ k = total
  through : (∀ x ∈ log, x.failure? = none) →
    (∀ x ∈ log, ∀ c, x.look? = some c → c.raised = false) → r = .ok k
  failed : ∀ x ∈ log, ∀ e, x.failure? = some e → r = .error (.interrupted k (.store e))
  cancelled : ∀ x ∈ log, ∀ c, x.look? = some c → c.raised = true →
    ∃ reason, r = .error (.cancelled k reason) ∧ Cancelled s₀ log reason

/-- A purge that nothing stops reports the number of all entries due. -/
theorem Unstopped.reports (h : Unstopped s₀ s) (k : Nat) : Reports s₀ s.log k k (.ok k) where
  ok := by
    rintro n ⟨⟩
    exact ⟨rfl, rfl⟩
  through _ _ := rfl
  failed x hx e he := by
    rw [h.whole x hx] at he
    cases he
  cancelled x hx c hc hraised := by
    rw [h.unraised x hx c hc] at hraised
    cases hraised

/-- A purge that was stopped reports the number of the entries purged. -/
theorem Cut.reports {error : VaultError} (h : Cut s₀ s error) (k total : Nat) :
    Reports s₀ s.log k total (.error (error.withProgress k)) := by
  cases h with
  | @failed t _ x e h hlog hf =>
      rw [hlog]
      refine ⟨nofun, fun hwhole => ?_, List.forall_mem_cons.2 ⟨fun e' he => ?_, ?_⟩,
        List.forall_mem_cons.2 ⟨fun c hc => ?_, ?_⟩⟩
      · rw [hwhole x List.mem_cons_self] at hf
        cases hf
      · obtain rfl := Option.some.inj (hf.symm.trans he)
        rfl
      · intro y hy e' he
        rw [h.whole y hy] at he
        cases he
      · -- a call that fails is no look
        obtain ⟨r, reply, after⟩ := x
        cases r <;> cases hc
        cases hf
      · intro y hy c hc hraised
        rw [h.unraised y hy c hc] at hraised
        cases hraised
  | @cancelled t _ c n h hlog hc hr =>
      refine ⟨nofun, fun _ hunraised => ?_, ?_, fun _ _ _ _ _ => ⟨_, rfl, hr⟩⟩
      · rw [hunraised _ (by rw [hlog]; exact List.mem_cons_self) c rfl] at hc
        cases hc
      · rw [hlog]
        refine List.forall_mem_cons.2 ⟨nofun, fun y hy e he => ?_⟩
        rw [h.whole y hy] at he
        cases he

/-- The work of a purge leaves its first entries purged, and reports them. -/
theorem Comes.reports {entries : List Entry} {p : Progress}
    (h : Comes s₀ mode now [] 0 entries p s) :
    ∃ k ≤ entries.length, s.state.store = s₀.store.purged mode now (idsOf (entries.take k)) ∧
      Timed now s.log ∧ Reports s₀ s.log k entries.length p.result := by
  cases h with
  | through h =>
      refine ⟨_, Nat.le_refl _, ?_, h.timed, ?_⟩
      · rw [List.take_length]
        exact h.store
      · rw [Nat.zero_add]
        exact h.unstopped.reports _
  | halts i hi h =>
      refine ⟨i, hi, h.store, h.timed, ?_⟩
      rw [Nat.zero_add]
      exact h.cut.reports i _

/-- **Where a purge stops.**  Whatever calls fail and whenever the caller cancels, when it ends, the
first `k` of the entries due at the instant that the clock showed have been purged, by id, and the
store is otherwise as it was; it lists the entries so if it can read the instant back.  The purge
goes through with `k` if nothing stops it; then no entry is listed any more that expired.  If a
list, an update or a removal fails, it reports `k` with the failure, and if a look finds that the
caller has cancelled, it reports `k` with the reason that was given first.  It may find that before
it reads the clock; then it has purged nothing. -/
theorem purge_stops (v : Vault) (mode : PurgeMode) (m : Manner) {s : Scene} {es : List Entry}
    (hs : s.store.Lists es) {r : Except VaultError Nat} {s' : Logged Scene}
    (h : (v.purge mode).Ends (logged m.answers) ⟨s, []⟩ r s') :
    es.Pairwise (fun a b => a.id < b.id) ∧
    ∃ now k, k ≤ es.countP (due mode now) ∧
      (Timed now s'.log ∨ k = 0 ∧ ∃ reason, r = .error (.cancelled 0 reason)) ∧
      s'.state.store = s.store.purged mode now (idsOf ((es.filter (due mode now)).take k)) ∧
      ((mode = .soft → s.store.Takes now) → s'.state.store.Lists
        (mode.leaves (s.store.keep now) (idsOf ((es.filter (due mode now)).take k)) es)) ∧
      Reports s s'.log k (es.countP (due mode now)) r ∧
      ∀ n, r = .ok n → ∃ left, s'.state.store.Listing (purgeFilter mode) left ∧
        ∀ e ∈ left, e.isExpired now = false := by
  refine ⟨hs.ascending, ?_⟩
  have hstart := unstopped_start s
  rcases hstart.checkpoint_bind h with
    ⟨t, hwork, hstore, ⟨c, hlog⟩, ht⟩ | ⟨reason, rfl, hstore, -, hcut⟩
  · obtain ⟨p, u, hp, hr⟩ := Job.ends_lift_bind.1 hwork
    obtain ⟨rfl, rfl⟩ := Job.ends_ofExcept.1 hr
    obtain ⟨now, w, hnow, hpages⟩ := Program.ends_reply_bind.1 hp
    have htimed : Timed now w.log := by
      rw [hnow.2, hlog]
      refine ⟨⟨_, List.mem_cons_self, rfl⟩,
        List.forall_mem_cons.2 ⟨?_, List.forall_mem_cons.2 ⟨?_, ?_⟩⟩⟩
      · rintro _ ⟨⟩
        rfl
      · nofun
      · exact fun _ hx => absurd hx List.not_mem_nil
    obtain ⟨extent, x, hext, hpages⟩ := Program.ends_reply_bind.1 hpages
    have hx : x.state.store = s.store := by
      rw [hext.1.2, hnow.1.2, hstore]
    have hamid : Amid s mode now [] x :=
      ⟨hx.trans (Backing.purged_nil mode now s.store).symm, hext.2 ▸ htimed.cons rfl,
        (ht.cons hnow rfl nofun).cons hext rfl nofun⟩
    have hlen : (es.filter (mode.lists [])).length < extent + 1 := by
      have hle := (hs.listing_purged mode now []).length_le
      have hbound := hext.1.1
      rw [Backing.purged_nil, ← hstore, ← hnow.1.2] at hle
      omega
    have hcomes := hamid.eachPage hs (Settings.rotation_pos v.sound).1 List.nodup_nil
      (List.nil_append _).symm rfl hlen hpages
    rw [expired_of_listed] at hcomes
    obtain ⟨k, hk, hstore', htimed', hreports⟩ := hcomes.reports
    rw [← List.countP_eq_length_filter] at hk hreports
    refine ⟨now, k, hk, .inl htimed', hstore', fun htakes => ?_, hreports, fun n hn => ?_⟩
    · rw [hstore']
      exact hs.purged htakes _
    · obtain ⟨-, rfl⟩ := hreports.ok n hn
      refine ⟨_, hstore' ▸ hs.listing_purged mode now _, fun e he => ?_⟩
      rw [List.countP_eq_length_filter, List.take_length] at he
      exact eq_false_of_ne_true (List.filter_eq_nil_iff.1 (none_expired hs.ids mode now) e he)
  · -- the clock was not read, so any instant will do
    have hsame : s'.state.store
        = s.store.purged mode default (idsOf ((es.filter (due mode default)).take 0)) :=
      hstore.trans (Backing.purged_nil mode default s.store).symm
    refine ⟨default, 0, Nat.zero_le _, .inr ⟨rfl, _, rfl⟩, hsame, fun htakes => ?_,
      hcut.reports 0 _, nofun⟩
    rw [hsame]
    exact hs.purged htakes _

/-- A soft purge of two entries, where any call may fail and the caller may cancel. -/
theorem purge_stops_dueSamples :
    ∃ r s', (Vault.usual.purge .soft).Ends (logged (Manner.rough fun _ => True).answers)
        ⟨dueScene, []⟩ r s' ∧
      ∃ now k, k ≤ dueSamples.countP (due .soft now) ∧
        s'.state.store
          = dueScene.store.purged .soft now (idsOf ((dueSamples.filter (due .soft now)).take k)) ∧
        Reports dueScene s'.log k (dueSamples.countP (due .soft now)) r := by
  obtain ⟨r, s', h⟩ := Manner.exists_ends (m := .rough fun _ => True) ⟨default, trivial⟩
    (fun _ => ⟨.ofNat 0, trivial⟩) (fun _ => ⟨.ok "", trivial⟩)
    (Vault.usual.purge .soft).run dueScene
  obtain ⟨log, hlog⟩ := h.exists_log []
  obtain ⟨-, now, k, hk, -, hstore, -, hreports, -⟩ := purge_stops Vault.usual .soft
    (.rough fun _ => True) lists_dueSamples hlog
  exact ⟨r, _, hlog, now, k, hk, hstore, hreports⟩

end

end Vault

end Strongbox
