import Strongbox.Proofs.Rotation.Rotate
import Strongbox.Proofs.Rotation.Schedule

/-!
# Rotation — where it stops

A rotation in order that is stopped, by a call to the store that fails, by the caller or by a text
that the new password cannot lock, has moved the first entries that the old password unlocks, by id,
and its result tells their number.  Pages make no difference to what is moved: it is fixed by the
update that fails, or at which the caller cancels.

* `Upto`, `Partway`: the scene and the log after the first entries have been worked on.
* `Halt`: what is left behind where the work stops.
* `Partway.turn`, `Partway.eachEntry`, `Partway.eachPage`: work on one entry, in order and page by
  page either goes on or halts.
* `Stopped`: what a rotation has moved and tells; `Comes.stopped` has it of all work.
* `rotate_stops`: what a rotation in order leaves and tells, wherever it stops.
-/

namespace Strongbox.Rotation

/-- The number of entries among the first `j` that the old password unlocks. -/
def moves (v : Vault) (old : String) (es : List Entry) (j : Nat) : Nat :=
  (es.take j).countP (opens v old)

/-- The scene of a rotation of the entries `es` in order, when the first `j` of them have been
worked on. -/
structure Upto (v : Vault) (old new : String) (m : Manner) (s₀ : Scene) (es : List Entry) (j : Nat)
    (s : Scene) : Prop where
  keep : s.store.keep = s₀.store.keep
  takes : s.store.Takes = s₀.store.Takes
  entries : ∃ es', s.store.Lists es' ∧
    List.Forall₂ (Now v old new m.shows s₀.store.keep ((es.take j).map (·.id))) es es'

/-- The first `j` entries have been worked on, and nothing has stopped the rotation. -/
structure Partway (v : Vault) (old new : String) (m : Manner) (s₀ : Scene) (es : List Entry)
    (j : Nat) (s : Logged Scene) : Prop where
  upto : Upto v old new m s₀ es j s.state
  trace : Trace s₀ (moves v old es j) s

/-- Why a rotation stops: one call to the store has failed, which is not the count before the work,
or the caller has cancelled, or the new password cannot lock what was found in the next entry, which
`refuses` tells. -/
inductive Cause (refuses : LockError → Prop) (s₀ : Scene) (log : List (Exchange Scene)) :
    VaultError → Prop where
  | failed {x : Exchange Scene} {e : StoreError} (hx : x ∈ log) (hf : x.failure? = some e)
      (hc : x.isCount = false) (alone : ∀ y ∈ log, y.failure?.isSome → y = x) :
      Cause refuses s₀ log (.store e)
  | cancelled {n : Nat} {reason : String} (whole : ∀ x ∈ log, x.failure? = none)
      (hc : Cancelled s₀ log reason) : Cause refuses s₀ log (.cancelled n reason)
  | refused {e : LockError} (whole : ∀ x ∈ log, x.failure? = none) (hr : refuses e) :
      Cause refuses s₀ log (.encoding e)

/-- The new password cannot lock what the old one finds in the entry. -/
def refuses (v : Vault) (old new : String) (e : Entry) : Bool :=
  match v.lock.unlock e.locked old with
  | .ok text => (v.lock.lockFault? text new).isSome
  | .error _ => false

/-- The number of entries that a rotation moves if nothing else stops it: those that the old
password unlocks before the first that the new one cannot lock. -/
def movable (v : Vault) (old new : String) (es : List Entry) : Nat :=
  (es.takeWhile fun e => !refuses v old new e).countP (opens v old)

/-- A rotation has stopped after the first `j` entries. -/
structure Halt (v : Vault) (old new : String) (m : Manner) (s₀ : Scene) (es : List Entry)
    (j : Nat) (s : Logged Scene) (error : VaultError) : Prop where
  upto : Upto v old new m s₀ es j s.state
  cause : Cause (fun fault => ∃ e, es[j]? = some e ∧ Refused v old new e fault) s₀ s.log error
  reaches : ∀ sch, Scheduled sch s.log →
    Reaches sch (movable v old new es) (moves v old es j)

section

variable {v : Vault} {old new : String} {m : Manner} {s₀ : Scene} {es : List Entry} {j n : Nat}
  {s s' : Logged Scene} {p : Progress}

theorem moves_le (j : Nat) : moves v old es j ≤ es.countP (opens v old) :=
  (List.take_sublist j es).countP_le

theorem refuses_iff {e : Entry} :
    refuses v old new e = true ↔ ∃ error, Refused v old new e error := by
  rw [refuses]
  constructor
  · intro h
    split at h
    · exact (Option.isSome_iff_exists.1 h).imp fun error he => ⟨_, ‹_›, he⟩
    · cases h
  · rintro ⟨error, text, hu, hfault⟩
    simp only [hu, hfault, Option.isSome_some]

theorem moves_succ {e : Entry} (he : es[j]? = some e) :
    moves v old es (j + 1) = moves v old es j + if opens v old e then 1 else 0 := by
  rw [moves, List.take_add_one, he, Option.toList_some, List.countP_append, List.countP_singleton]
  rfl

/-- Nothing has been done yet. -/
theorem upto_start (hs : s₀.store.Lists es) : Upto v old new m s₀ es 0 s₀ where
  keep := rfl
  takes := rfl
  entries := ⟨es, hs, List.forall₂_same.2 fun e _ => by simp [Now]⟩

/-- None of the entries that have been worked on is one that the new password cannot lock. -/
theorem Upto.unrefused {t : Scene} (h : Upto v old new m s₀ es j t) {e : Entry}
    (he : e ∈ es.take j) : refuses v old new e = false := by
  obtain ⟨es', -, hnow⟩ := h.entries
  obtain ⟨i, hi, heq⟩ := List.getElem_of_mem (List.mem_of_mem_take he)
  have hbecomes := hnow.get hi (hnow.length_eq ▸ hi)
  rw [List.get_eq_getElem, heq, Now, if_pos (List.mem_map_of_mem he)] at hbecomes
  rw [← Bool.not_eq_true, refuses_iff]
  rintro ⟨error, hrefused⟩
  exact hbecomes.not_refused error hrefused

/-- What a rotation can still move, it finds after the entries that have been worked on. -/
theorem Upto.movable_eq {t : Scene} (h : Upto v old new m s₀ es j t) :
    movable v old new es = moves v old es j +
      ((es.drop j).takeWhile fun e => !refuses v old new e).countP (opens v old) := by
  have hsplit : es.takeWhile (fun e => !refuses v old new e)
      = es.take j ++ (es.drop j).takeWhile fun e => !refuses v old new e := by
    rw [← List.takeWhile_append_of_pos fun e he => by rw [h.unrefused he]; rfl,
      List.take_append_drop]
  rw [movable, hsplit, List.countP_append]
  rfl

theorem Upto.moves_le_movable {t : Scene} (h : Upto v old new m s₀ es j t) :
    moves v old es j ≤ movable v old new es := by
  rw [h.movable_eq]
  exact Nat.le_add_right _ _

/-! ### Halts -/

/-- A look has found the caller's cancellation raised. -/
theorem Partway.halt_of_look (h : Partway v old new m s₀ es j s) {c : Cancellation}
    (hx : logged m.answers .cancellation s c s') (hc : c.raised = true) :
    Halt v old new m s₀ es j s' (.cancelled n (c.reason.getD Cancellation.callerReason)) where
  upto := by
    obtain ⟨-, hstate⟩ := hx.1
    rw [hstate]
    exact ⟨h.upto.keep, h.upto.takes, h.upto.entries⟩
  cause := by
    refine .cancelled ?_ (cancelled_of_look h.trace.reasons hx hc)
    rw [hx.2]
    exact List.forall_mem_cons.2 ⟨rfl, h.trace.whole⟩
  reaches := h.trace.reaches_of_look h.upto.moves_le_movable hx hc

/-- A look has found the caller's cancellation not raised. -/
theorem Partway.look (h : Partway v old new m s₀ es j s) {c : Cancellation}
    (hx : logged m.answers .cancellation s c s') (hc : c.raised = false) :
    Partway v old new m s₀ es j s' where
  upto := by
    obtain ⟨-, hstate⟩ := hx.1
    rw [hstate]
    exact ⟨h.upto.keep, h.upto.takes, h.upto.entries⟩
  trace := (h.trace.look hx hc).1

/-- The failure of a call is the only one in the log. -/
theorem Partway.cause_of_failure (h : Partway v old new m s₀ es j s) {x : Exchange Scene}
    {error : StoreError} (hlog : s'.log = x :: s.log) (hf : x.failure? = some error)
    (hc : x.isCount = false) {refuses : LockError → Prop} :
    Cause refuses s₀ s'.log (.store error) := by
  rw [hlog]
  refine .failed List.mem_cons_self hf hc fun y hy hfail => ?_
  rcases List.mem_cons.1 hy with rfl | hy
  · rfl
  · rw [h.trace.whole y hy] at hfail
    cases hfail

/-- The new password cannot lock what was found in the next entry. -/
theorem Partway.halt_of_refused (h : Partway v old new m s₀ es j s) {e : Entry}
    (he : es[j]? = some e) {error : LockError} (hr : Refused v old new e error) :
    Halt v old new m s₀ es j s (.encoding error) where
  upto := h.upto
  cause := .refused h.trace.whole ⟨e, he, hr⟩
  reaches := by
    obtain ⟨hj, rfl⟩ := List.getElem?_eq_some_iff.1 he
    have hstop : movable v old new es = moves v old es j := by
      rw [h.upto.movable_eq, List.drop_eq_getElem_cons hj,
        List.takeWhile_cons_of_neg (by simp [refuses_iff.2 ⟨error, hr⟩])]
      rfl
    rw [hstop]
    exact h.trace.reaches_total

/-! ### One entry -/

/-- One more entry has been worked on. -/
theorem Upto.step (hids : (es.map (·.id)).Nodup) {e : Entry} (he : es[j]? = some e) {t t' : Scene}
    (hs : Upto v old new m s₀ es j t) (hkeep : t'.store.keep = t.store.keep)
    (htakes : t'.store.Takes = t.store.Takes) {f : Entry → Entry}
    (hf : ∀ x, x.id ≠ e.id → f x = x) (hm : Moved v old new m.shows s₀.store.keep e (f e))
    (hl : ∀ es', t.store.Lists es' → (∃ e' ∈ es', e'.id = e.id) → t'.store.Lists (es'.map f)) :
    Upto v old new m s₀ es (j + 1) t' where
  keep := hkeep.trans hs.keep
  takes := htakes.trans hs.takes
  entries := by
    obtain ⟨es', hes', hnow⟩ := hs.entries
    have htake : (es.take (j + 1)).map (·.id) = (es.take j).map (·.id) ++ [e.id] := by
      rw [List.take_add_one, he, Option.toList_some, List.map_append]
      rfl
    have hd : e.id ∉ (es.take j).map (·.id) := by
      have hnd := ((List.take_sublist (j + 1) es).map (·.id)).nodup hids
      rw [htake] at hnd
      exact fun hmem => (List.nodup_append.1 hnd).2.2 _ hmem _ List.mem_cons_self rfl
    have hstep := Midway.forall₂_map hnow hids (List.mem_of_getElem? he) hd hf hm
    have hthere := exists_of_now hnow (List.mem_of_getElem? he)
    refine ⟨_, hl es' hes' hthere, hstep.imp fun x x' hx => ?_⟩
    simp only [Now, List.mem_cons] at hx
    simpa only [Now, htake, List.mem_append, List.mem_singleton, or_comm] using hx

/-- The update of an entry that was unlocked goes through and moves it, or the store fails. -/
theorem Upto.update (ht : ∀ t, m.shows t → s₀.store.Takes t) (hids : (es.map (·.id)).Nodup)
    {e : Entry} (he : es[j]? = some e) {t t' : Scene} (hs : Upto v old new m s₀ es j t)
    {text : String} (hu : v.lock.unlock e.locked old = .ok text) {head : Bytes}
    (hfits : v.lock.Fits text new head) {now : Instant} (hnow : m.shows now)
    {x : Except StoreError Unit}
    (hx : m.answers (.store (relocking v e text new head now)) t x t') :
    (x = .ok () ∧ Upto v old new m s₀ es (j + 1) t') ∨ (∃ error, x = .error error) ∧ t' = t := by
  let source : Entry := { e with locked := v.lock.lock text new head, updated := now }
  have htakes : t.store.Takes source.updated := by
    rw [hs.takes]
    exact ht now hnow
  rcases hx with ⟨rfl, rfl⟩ | ⟨-, herror, rfl⟩
  · obtain ⟨es', hes', hnow'⟩ := hs.entries
    obtain ⟨e', he', hid⟩ := exists_of_now hnow' (List.mem_of_getElem? he)
    refine .inl ⟨(hes'.relocked source he' hid htakes).1, ?_⟩
    refine hs.step hids he (Backing.keep_answer _ _) (Backing.takes_answer _ _)
      (f := fun x => if x.id = source.id then
        { x with locked := source.locked, updated := t.store.keep source.updated } else x)
      (fun x hne => if_neg hne) ?_ ?_
    · simp only [Moved, hu, source, if_true, hs.keep]
      exact ⟨head, now, hfits, hnow, rfl⟩
    · rintro es₁ hes₁ ⟨e₁, he₁, hid₁⟩
      exact (hes₁.relocked source he₁ hid₁ htakes).2
  · exact .inr ⟨herror, rfl⟩

/-- **Work on one entry at its turn** goes on to the next one, or halts. -/
theorem Partway.turn (ht : ∀ t, m.shows t → s₀.store.Takes t) (hids : (es.map (·.id)).Nodup)
    {e : Entry} (he : es[j]? = some e) (h : Partway v old new m s₀ es j s)
    {r : Except VaultError Bool}
    (hrun : Job.Ends (logged m.answers) (do Job.checkpoint n; relockEntry v old new e) s r s') :
    (r = .ok (opens v old e) ∧ Partway v old new m s₀ es (j + 1) s') ∨
      ∃ error, r = .error error ∧ Halt v old new m s₀ es j s' error := by
  obtain ⟨c, t, hlook, ⟨hraised, rfl, rfl⟩ | ⟨hraised, hwork⟩⟩ := Job.ends_checkpoint_cases hrun
  · exact .inr ⟨_, rfl, h.halt_of_look hlook hraised⟩
  obtain ⟨hupto, htrace⟩ := h.look hlook hraised
  have hclear := (h.trace.look hlook hraised).2
  rcases relockEntry_asks hwork with ⟨error, hu, rfl, rfl⟩ | ⟨error, head, hr, hrandom, rfl⟩ |
    ⟨text, head, now, hu, hfault, u, w, hrandom, hclock, hcall⟩
  · have hopens : opens v old e = false := by rw [opens, hu]; rfl
    have hm : Moved v old new m.shows s₀.store.keep e (id e) := by simp only [Moved, hu, id]
    refine .inl ⟨by rw [hopens], hupto.step hids he rfl rfl (fun _ _ => rfl) hm
      fun es' hes' _ => ?_, ?_⟩
    · rwa [List.map_id']
    · rwa [moves_succ he, hopens]
  · have hdrawn : Partway v old new m s₀ es j s' :=
      ⟨hrandom.1.2 ▸ hupto, htrace.read hrandom rfl rfl⟩
    exact .inr ⟨_, rfl, hdrawn.halt_of_refused he hr⟩
  · have hopens : opens v old e = true := by rw [opens, hu]; rfl
    have hstate : w.state = t.state := hclock.1.2.trans hrandom.1.2
    have htrace' := (htrace.read hrandom rfl rfl).read hclock rfl rfl
    have hclear' : Unraised (moves v old es j) w.log := by
      rw [hclock.2, hrandom.2]
      exact hclear.cons.cons
    rcases hcall with ⟨hcall, rfl⟩ | ⟨error, hcall, rfl⟩
    · obtain ⟨-, hs'⟩ | ⟨⟨_, he⟩, -⟩ :=
        Upto.update ht hids he (hstate ▸ hupto) hu ⟨hrandom.1.1, hfault⟩ hclock.1.1 hcall.1
      · refine .inl ⟨by rw [hopens], hs', ?_⟩
        rw [moves_succ he, hopens]
        exact htrace'.update hclear' hcall
      · cases he
    · obtain ⟨he, -⟩ | ⟨-, hsame⟩ :=
        Upto.update ht hids he (hstate ▸ hupto) hu ⟨hrandom.1.1, hfault⟩ hclock.1.1 hcall.1
      · cases he
      · have hw : Partway v old new m s₀ es j w := ⟨hstate ▸ hupto, htrace'⟩
        exact .inr ⟨_, rfl, hsame ▸ hw.upto, hw.cause_of_failure hcall.2 rfl rfl,
          htrace'.reaches_of_update hclear' hupto.moves_le_movable hcall⟩

/-! ### Entries in order -/

/-- What work on entries comes to: the first `j` have been worked on, or a halt came before. -/
def Comes (v : Vault) (old new : String) (m : Manner) (s₀ : Scene) (es : List Entry) (j : Nat)
    (p : Progress) (s : Logged Scene) : Prop :=
  (p = ⟨moves v old es j, none⟩ ∧ Partway v old new m s₀ es j s) ∨
    ∃ i error, p = ⟨moves v old es i, some error⟩ ∧ Halt v old new m s₀ es i s error

/-- **Work on the next entries in order.** -/
theorem Partway.eachEntry (ht : ∀ t, m.shows t → s₀.store.Takes t)
    (hids : (es.map (·.id)).Nodup) {entries : List Entry} (hnext : entries <+: es.drop j)
    (h : Partway v old new m s₀ es j s) {p : Progress}
    (hrun : (Strongbox.eachEntry (relockEntry v old new) (moves v old es j) entries).Ends
      (logged m.answers) s p s') :
    Comes v old new m s₀ es (j + entries.length) p s' := by
  induction entries generalizing j s with
  | nil =>
      obtain ⟨rfl, rfl⟩ := hrun
      exact .inl ⟨rfl, h⟩
  | cons e entries ih =>
      obtain ⟨rest, hrest⟩ := hnext
      have he : es[j]? = some e := by
        rw [← Nat.add_zero j, ← List.getElem?_drop, ← hrest]
        rfl
      have hnext : entries <+: es.drop (j + 1) := ⟨rest, by rw [← List.tail_drop, ← hrest]; rfl⟩
      obtain ⟨x, t, hx, hp⟩ := Program.ends_bind.1 hrun
      obtain ⟨rfl, hturn⟩ | ⟨error, rfl, hhalt⟩ := h.turn ht hids he (Job.ends_def.1 hx)
      · have hcount : (if opens v old e then moves v old es j + 1 else moves v old es j)
            = moves v old es (j + 1) := by
          rw [moves_succ he]
          split <;> rfl
        dsimp only at hp
        rw [hcount] at hp
        have := ih hnext hturn hp
        rwa [Nat.add_assoc, Nat.add_comm 1] at this
      · obtain ⟨rfl, rfl⟩ := hp
        exact .inr ⟨j, error, rfl, hhalt⟩

/-! ### Pages -/

/-- A list of the entries not yet worked on is read, or the rotation halts. -/
theorem Partway.list (hids : (es.map (·.id)).Nodup) (h : Partway v old new m s₀ es j s)
    {limit : Option Nat} {x : Except VaultError (List Entry)}
    (hrun : Job.Ends (logged m.answers)
      (Job.call (.list { filter := .all, limit, offset := j })) s x s') :
    (x = .ok (Store.window j limit es) ∧ Partway v old new m s₀ es j s') ∨
      ∃ error, x = .error error ∧ Halt v old new m s₀ es j s' error := by
  obtain ⟨es', hes', hnow⟩ := h.upto.entries
  obtain ⟨y, hy, rfl⟩ := Job.ends_call.1 hrun
  rcases hy.1 with ⟨rfl, hstate⟩ | ⟨-, ⟨error, rfl⟩, hstate⟩
  · have hlist : s.state.store.answer (.list { filter := .all, limit, offset := j })
        = (.ok (Store.window j limit es), s.state.store) := by
      rw [hes'.list, Filter.filter_all]
      -- none of the listed entries has been worked on
      have hsame := Midway.page_eq hids hnow
      cases limit <;> simp only [Store.window, hsame]
    rw [hlist] at hy
    have hsame : s'.state = s.state := by
      rw [hstate]
      simp only [Scene.after, hlist]
      rfl
    exact .inl ⟨by rw [hlist]; rfl, hsame ▸ h.upto, h.trace.read hy rfl rfl⟩
  · refine .inr ⟨_, rfl, hstate ▸ h.upto, h.cause_of_failure hy.2 rfl rfl, fun sch hsch => ?_⟩
    exact absurd hsch (Trace.not_scheduled_of_read hy.2 rfl rfl sch)

/-- A page is read after a look, or the rotation halts. -/
theorem Partway.page (hids : (es.map (·.id)).Nodup) (h : Partway v old new m s₀ es j s)
    {size : Nat} {x : Except VaultError (List Entry)}
    (hrun : Job.Ends (logged m.answers) (do
      Job.checkpoint n
      Job.call (.list (.page .all j size))) s x s') :
    (x = .ok ((es.drop j).take size) ∧ Partway v old new m s₀ es j s') ∨
      ∃ error, x = .error error ∧ Halt v old new m s₀ es j s' error := by
  obtain ⟨c, t, hlook, ⟨hraised, rfl, rfl⟩ | ⟨hraised, hcall⟩⟩ := Job.ends_checkpoint_cases hrun
  · exact .inr ⟨_, rfl, h.halt_of_look hlook hraised⟩
  · exact (h.look hlook hraised).list hids hcall

/-- **Work page by page.** -/
theorem Partway.eachPage (ht : ∀ t, m.shows t → s₀.store.Takes t)
    (hids : (es.map (·.id)).Nodup) {size : Nat} (hsize : 0 < size) {rounds : Nat}
    (hr : es.length < rounds + j) (hj : j ≤ es.length) (h : Partway v old new m s₀ es j s)
    {p : Progress}
    (hrun : (Strongbox.eachPage .all size false
      (fun n page => Strongbox.eachEntry (relockEntry v old new) n page) rounds j
      (moves v old es j)).Ends (logged m.answers) s p s') :
    Comes v old new m s₀ es es.length p s' := by
  induction rounds generalizing j s with
  | zero => omega
  | succ rounds ih =>
      obtain ⟨x, t, hx, hp⟩ := Program.ends_bind.1 hrun
      obtain ⟨rfl, hread⟩ | ⟨error, rfl, hhalt⟩ := h.page hids (Job.ends_def.1 hx)
      · obtain ⟨q, u, hq, hp⟩ := Program.ends_bind.1 hp
        have hlen : ((es.drop j).take size).length = min size (es.length - j) := by
          rw [List.length_take, List.length_drop]
        rcases hread.eachEntry ht hids (List.take_prefix _ _) hq with
          ⟨rfl, hwork⟩ | ⟨i, error, rfl, hhalt⟩
        · by_cases hlast : ((es.drop j).take size).length < size
          · -- the last page: it holds what was left
            rw [if_pos (.inr hlast)] at hp
            obtain ⟨rfl, rfl⟩ := hp
            have hend : j + ((es.drop j).take size).length = es.length := by omega
            rw [hend] at hwork ⊢
            exact .inl ⟨rfl, hwork⟩
          · rw [if_neg (by simpa using hlast)] at hp
            simp only [Bool.false_eq_true, if_false, Nat.sub_zero] at hp
            exact ih (by omega) (by omega) hwork hp
        · rw [if_pos (.inl rfl)] at hp
          obtain ⟨rfl, rfl⟩ := hp
          exact .inr ⟨i, error, rfl, hhalt⟩
      · obtain ⟨rfl, rfl⟩ := hp
        exact .inr ⟨j, error, rfl, hhalt⟩

/-- **The work of a plan in order**, on the whole list or page by page. -/
theorem Partway.progress (ht : ∀ t, m.shows t → s₀.store.Takes t)
    (hids : (es.map (·.id)).Nodup) {plan : Plan} (hseq : plan.mode = .sequential)
    (h : Partway v old new m s₀ es 0 s) {p : Progress}
    (hrun : (Rotation.progress v old new plan).Ends (logged m.answers) s p s') :
    Comes v old new m s₀ es es.length p s' := by
  simp only [Rotation.progress, hseq] at hrun
  split at hrun
  · obtain ⟨extent, t, hx, hp⟩ := Program.ends_reply_bind.1 hrun
    obtain ⟨es', hes', hnow⟩ := h.upto.entries
    have hextent : es.length ≤ extent := by
      rw [hnow.length_eq, ← hes'.size_eq]
      exact hx.1.1
    have ht' : Partway v old new m s₀ es 0 t := ⟨hx.1.2 ▸ h.upto, h.trace.read hx rfl rfl⟩
    exact ht'.eachPage ht hids (Settings.rotation_pos v.sound).1 (by omega) (Nat.zero_le _) hp
  · obtain ⟨x, t, hx, hp⟩ := Program.ends_bind.1 hrun
    obtain ⟨rfl, hread⟩ | ⟨error, rfl, hhalt⟩ := h.list hids (Job.ends_def.1 hx)
    · have := hread.eachEntry ht hids (List.prefix_refl _) hp
      rwa [List.drop_zero, Nat.zero_add] at this
    · obtain ⟨rfl, rfl⟩ := hp
      exact .inr ⟨0, error, rfl, hhalt⟩

/-! ### The whole rotation -/

/-- The first `k` entries that the old password unlocks, by id, have been rotated, and all others
are as they were. -/
def FirstRotated (v : Vault) (old new : String) (shows : Instant → Prop)
    (keep : Instant → Instant) (es : List Entry) (k : Nat) (b : Backing) : Prop :=
  ∃ es', b.Lists es' ∧ List.Forall₂ (fun e e' =>
    if e ∈ (es.filter (opens v old)).take k then Rotated v old new shows keep e e'
    else e' = e) es es'

/-- What a rotation of the entries `es` tells that has moved `k` of them.  It goes through if
nothing stops it, and then it has moved all that the old password unlocks.  A call that fails is
told with the number of the entries moved, except for the count before the work, which is told by
itself.  A cancellation is told with the number and the reason that the caller gave first, and a
text that the new password cannot lock with the number: it is that of the next entry to be moved. -/
structure Tells (v : Vault) (old new : String) (s₀ : Scene) (es : List Entry)
    (log : List (Exchange Scene)) (k : Nat) (r : Except VaultError Nat) : Prop where
  ok : ∀ n, r = .ok n → n = k ∧ k = es.countP (opens v old)
  failed : ∀ x ∈ log, ∀ e, x.failure? = some e →
    if x.isCount then k = 0 ∧ r = .error (.store e) else r = .error (.interrupted k (.store e))
  error : ∀ error, r = .error error → (∃ x ∈ log, x.failure?.isSome) ∨
    (∃ reason, error = .cancelled k reason ∧ Cancelled s₀ log reason) ∨
    ∃ e fault, (es.filter (opens v old))[k]? = some e ∧ Refused v old new e fault ∧
      error = .interrupted k (.encoding fault)

/-- The moved entries among the first `j` are the first that the old password unlocks. -/
theorem filter_take (j : Nat) :
    (es.take j).filter (opens v old) = (es.filter (opens v old)).take (moves v old es j) := by
  have hsplit : es.filter (opens v old)
      = (es.take j).filter (opens v old) ++ (es.drop j).filter (opens v old) := by
    rw [← List.filter_append, List.take_append_drop]
  rw [hsplit, moves, List.countP_eq_length_filter, List.take_left' rfl]

/-- The next entry that the old password unlocks comes after those moved. -/
theorem getElem?_filter {e : Entry} (he : es[j]? = some e) (ho : opens v old e = true) :
    (es.filter (opens v old))[moves v old es j]? = some e := by
  obtain ⟨hj, rfl⟩ := List.getElem?_eq_some_iff.1 he
  have hsplit : es.filter (opens v old) = (es.take j).filter (opens v old)
      ++ es[j] :: (es.drop (j + 1)).filter (opens v old) := by
    rw [← List.filter_cons_of_pos ho, ← List.drop_eq_getElem_cons hj, ← List.filter_append,
      List.take_append_drop]
  rw [hsplit, moves, List.countP_eq_length_filter, List.getElem?_append_right (Nat.le_refl _),
    Nat.sub_self]
  rfl

theorem Upto.firstRotated (hids : (es.map (·.id)).Nodup) {t : Scene}
    (h : Upto v old new m s₀ es j t) :
    FirstRotated v old new m.shows s₀.store.keep es (moves v old es j) t.store := by
  obtain ⟨es', hes', hnow⟩ := h.entries
  refine ⟨es', hes', List.forall₂_iff_zip.2 ⟨hnow.length_eq, fun {e e'} hz => ?_⟩⟩
  have he := (List.of_mem_zip hz).1
  have hbecomes := List.forall₂_zip hnow hz
  rw [← filter_take]
  simp only [Now] at hbecomes
  split
  · rename_i hmem
    rw [if_pos (List.mem_map_of_mem (List.mem_of_mem_filter hmem))] at hbecomes
    exact hbecomes.rotated
  · rename_i hmem
    split at hbecomes
    · -- it was worked on, so the old password does not unlock it
      rename_i hid
      obtain ⟨x, hx, hxid⟩ := List.mem_map.1 hid
      obtain rfl := List.inj_on_of_nodup_map hids (List.mem_of_mem_take hx) he hxid
      have hopens : opens v old x ≠ true := fun ho => hmem (List.mem_filter.2 ⟨hx, ho⟩)
      simp only [Moved] at hbecomes
      split at hbecomes
      · rename_i hu
        exact absurd (by rw [opens, hu]; rfl) hopens
      · exact hbecomes
    · exact hbecomes

/-- A rotation that has moved `k` entries of the store and tells so; the number is the one that any
schedule of its log lets through. -/
structure Stopped (v : Vault) (old new : String) (m : Manner) (s₀ : Scene) (es : List Entry)
    (k : Nat) (r : Except VaultError Nat) (s : Logged Scene) : Prop where
  le : k ≤ es.countP (opens v old)
  moved : FirstRotated v old new m.shows s₀.store.keep es k s.state.store
  tells : Tells v old new s₀ es s.log k r
  reaches : ∀ sch, Scheduled sch s.log → Reaches sch (movable v old new es) k

/-- A rotation that halts tells the number of the entries moved. -/
theorem Halt.stopped (hids : (es.map (·.id)).Nodup) {error : VaultError}
    (h : Halt v old new m s₀ es j s error) :
    Stopped v old new m s₀ es (moves v old es j) (.error (error.withProgress (moves v old es j)))
      s where
  le := moves_le j
  moved := h.upto.firstRotated hids
  tells := by
    refine ⟨nofun, fun x hx e he => ?_, ?_⟩
    · cases h.cause with
      | failed hy hf hc alone =>
          obtain rfl := alone x hx (by rw [he]; rfl)
          obtain rfl := Option.some.inj (he.symm.trans hf)
          rw [if_neg (by rw [hc]; exact Bool.false_ne_true)]
          rfl
      | cancelled whole | refused whole =>
          rw [whole x hx] at he
          cases he
    · rintro _ ⟨⟩
      cases h.cause with
      | failed hy hf hc alone => exact .inl ⟨_, hy, by rw [hf]; rfl⟩
      | cancelled whole hc => exact .inr (.inl ⟨_, rfl, hc⟩)
      | refused whole hr =>
          obtain ⟨e, he, hr⟩ := hr
          have hopens : opens v old e = true := by
            obtain ⟨text, hu, -⟩ := hr
            rw [opens, hu]
            rfl
          exact .inr (.inr ⟨e, _, getElem?_filter he hopens, hr, rfl⟩)
  reaches := h.reaches

/-- A rotation that nothing stops tells the number of all entries that the old password unlocks. -/
theorem Partway.stopped (hids : (es.map (·.id)).Nodup)
    (h : Partway v old new m s₀ es es.length s) :
    Stopped v old new m s₀ es (es.countP (opens v old)) (.ok (es.countP (opens v old))) s := by
  have hall : moves v old es es.length = es.countP (opens v old) := by
    rw [moves, List.take_length]
  have hend : movable v old new es = es.countP (opens v old) := by
    rw [h.upto.movable_eq, hall, List.drop_length]
    rfl
  have hmoved := h.upto.firstRotated hids
  have htrace := h.trace
  rw [hall] at hmoved htrace
  refine ⟨Nat.le_refl _, hmoved, ⟨?_, fun x hx e he => ?_, nofun⟩, hend ▸ htrace.reaches_total⟩
  · rintro n ⟨⟩
    exact ⟨rfl, rfl⟩
  · rw [htrace.whole x hx] at he
    cases he

/-- What the work of a rotation comes to, it tells. -/
theorem Comes.stopped (hids : (es.map (·.id)).Nodup)
    (h : Comes v old new m s₀ es es.length p s) :
    ∃ k, Stopped v old new m s₀ es k p.result s := by
  rcases h with ⟨rfl, hwork⟩ | ⟨j, error, rfl, hhalt⟩
  · have hall : moves v old es es.length = es.countP (opens v old) := by
      rw [moves, List.take_length]
    rw [hall]
    exact ⟨_, hwork.stopped hids⟩
  · exact ⟨_, hhalt.stopped hids⟩

/-- A count that fails before the work. -/
theorem Partway.uncounted (hids : (es.map (·.id)).Nodup) (h : Partway v old new m s₀ es 0 s)
    {x : Exchange Scene} {error : StoreError} (hx : s'.log = x :: s.log)
    (hstate : s'.state = s.state) (hf : x.failure? = some error) (hc : x.isCount = true)
    (hu : x.isUpdate = false) : Stopped v old new m s₀ es 0 (.error (.store error)) s' where
  le := Nat.zero_le _
  moved := by
    rw [hstate]
    exact h.upto.firstRotated hids
  tells := by
    rw [hx]
    refine ⟨nofun, fun y hy e he => ?_, fun _ _ => .inl ⟨x, List.mem_cons_self, by rw [hf]; rfl⟩⟩
    rcases List.mem_cons.1 hy with rfl | hy
    · obtain rfl := Option.some.inj (he.symm.trans hf)
      rw [if_pos hc]
      exact ⟨rfl, rfl⟩
    · rw [h.trace.whole y hy] at he
      cases he
  reaches sch hsch := absurd hsch (Trace.not_scheduled_of_read hx hu hf sch)

/-- However a rotation in order is stopped, it tells what it has moved. -/
theorem rotate_stopped (ht : ∀ t, m.shows t → s₀.store.Takes t) (hs : s₀.store.Lists es)
    (hseq : es.length ≤ v.settings.rotation.parallelAbove) (ho : old ≠ "") (hn : new ≠ "")
    {r : Except VaultError Nat} (h : (v.rotate old new).Ends (logged m.answers) ⟨s₀, []⟩ r s) :
    ∃ k, Stopped v old new m s₀ es k r s := by
  obtain ⟨he, -⟩ | ⟨-, h₁⟩ := Vault.requirePassword_bind h
  · exact absurd he ho
  obtain ⟨he, -⟩ | ⟨-, h₂⟩ := Vault.requirePassword_bind h₁
  · exact absurd he hn
  have hstart : Partway v old new m s₀ es 0 ⟨s₀, []⟩ := ⟨upto_start hs, trace_start s₀⟩
  obtain ⟨c, t, hlook, ⟨hraised, rfl, rfl⟩ | ⟨hraised, h₃⟩⟩ := Job.ends_checkpoint_cases h₂
  · exact ⟨_, (hstart.halt_of_look (n := 0) hlook hraised).stopped hs.ids⟩
  have hlooked := hstart.look hlook hraised
  obtain ⟨x, u, hx, h₄⟩ := Job.ends_call_bind.1 h₃
  obtain ⟨es', hes', hnow⟩ := hlooked.upto.entries
  rcases hx.1 with ⟨rfl, hstate⟩ | ⟨-, ⟨error, rfl⟩, hstate⟩
  · have hcount : t.state.store.answer (.count .all) = (.ok es.length, t.state.store) := by
      rw [hes'.count, List.countP_eq_length_filter, Filter.filter_all, hnow.length_eq]
    have hsame : u.state = t.state := by
      rw [hstate]
      simp only [Scene.after, hcount]
      rfl
    rw [hcount] at hx h₄
    have hcounted : Partway v old new m s₀ es 0 u :=
      ⟨hsame ▸ hlooked.upto, hlooked.trace.read hx rfl rfl⟩
    by_cases hlen : es.length = 0
    · simp only [hlen, if_true] at h₄
      obtain ⟨rfl, rfl⟩ := Job.ends_pure.1 h₄
      obtain rfl := List.eq_nil_iff_length_eq_zero.2 hlen
      exact ⟨0, hcounted.stopped hs.ids⟩
    · simp only [hlen, if_false] at h₄
      obtain ⟨p, w, hwork, h₅⟩ := Job.ends_lift_bind.1 h₄
      obtain ⟨rfl, rfl⟩ := Job.ends_ofExcept.1 h₅
      have hmode : (plan v.settings.rotation es.length).mode = .sequential :=
        if_neg (Nat.not_lt_of_le hseq)
      exact (hcounted.progress ht hs.ids hmode hwork).stopped hs.ids
  · obtain ⟨rfl, rfl⟩ := h₄
    exact ⟨0, hlooked.uncounted hs.ids hx.2 hstate rfl rfl rfl⟩

/-- The same lock moves the same entries. -/
theorem movable_of_lock {v' : Vault} (hv : v'.lock = v.lock) :
    movable v' old new es = movable v old new es := by
  have hopens : opens v' old = opens v old := by
    funext e
    rw [opens, opens, hv]
  have hrefuses : refuses v' old new = refuses v old new := by
    funext e
    rw [refuses, refuses, hv]
  rw [movable, movable, hopens, hrefuses]

/-- The same lock makes the same of the first entries. -/
theorem FirstRotated.of_lock {v' : Vault} (hv : v'.lock = v.lock) {shows : Instant → Prop}
    {keep : Instant → Instant} {k : Nat} {b : Backing}
    (h : FirstRotated v' old new shows keep es k b) : FirstRotated v old new shows keep es k b := by
  have hopens : opens v' old = opens v old := by
    funext e
    rw [opens, opens, hv]
  obtain ⟨es', hes', hall⟩ := h
  refine ⟨es', hes', hall.imp fun e e' he => ?_⟩
  rw [hopens] at he
  split at he
  · rw [if_pos ‹_›]
    exact ⟨fun text hu => hv ▸ he.moved text (hv ▸ hu), fun error hu => he.left error (hv ▸ hu)⟩
  · rwa [if_neg ‹_›]

/-- **Where a rotation in order stops.**  Whatever calls fail and whenever the caller cancels, when
it ends, the first `k` of the entries that the old password unlocks, by id, have been rotated, and
all others are as they were; it goes through with `k` if these are all, a cancellation is told with
`k` and the reason that was given first, a failing list or update with `k` and the failure, and a
failing count, before which nothing is moved, by itself.  An entry that the old password unlocks and
the new one cannot lock stops it too, and is told with `k`.  Where the updates and the looks go by a
schedule, `k` is what the schedule lets through; so another rotation with the same lock and other
rules, in pages or not, that goes by the same schedule has moved the same entries. -/
theorem rotate_stops (v : Vault) {old new : String} (ho : old ≠ "") (hn : new ≠ "") (m : Manner)
    {s : Scene} {es : List Entry} (hs : s.store.Lists es)
    (ht : ∀ t, m.shows t → s.store.Takes t)
    (hseq : es.length ≤ v.settings.rotation.parallelAbove) {r : Except VaultError Nat}
    {s' : Logged Scene} (h : (v.rotate old new).Ends (logged m.answers) ⟨s, []⟩ r s') :
    ∃ k ≤ es.countP (opens v old),
      FirstRotated v old new m.shows s.store.keep es k s'.state.store ∧
      Tells v old new s es s'.log k r ∧
      ∀ sch, Scheduled sch s'.log → Reaches sch (movable v old new es) k ∧
        ∀ v' : Vault, v'.lock = v.lock → es.length ≤ v'.settings.rotation.parallelAbove →
          ∀ r₂ s₂, (v'.rotate old new).Ends (logged m.answers) ⟨s, []⟩ r₂ s₂ →
            Scheduled sch s₂.log →
              FirstRotated v old new m.shows s.store.keep es k s₂.state.store := by
  obtain ⟨k, hle, hmoved, htells, hreaches⟩ := rotate_stopped ht hs hseq ho hn h
  refine ⟨k, hle, hmoved, htells, fun sch hsch => ⟨hreaches sch hsch, ?_⟩⟩
  intro v' hv hseq' r₂ s₂ h₂ hsch₂
  obtain ⟨k₂, -, hmoved₂, -, hreaches₂⟩ := rotate_stopped ht hs hseq' ho hn h₂
  have hsame := hreaches₂ sch hsch₂
  rw [movable_of_lock hv] at hsame
  obtain rfl := hsame.unique (hreaches sch hsch)
  exact hmoved₂.of_lock hv

/-- A rotation of two entries, where any call may fail and the caller may cancel. -/
theorem rotate_stops_samples :
    ∃ r s', (Vault.usual.rotate "old" "new").Ends (logged (Manner.rough fun _ => True).answers)
        ⟨sampleScene, []⟩ r s' ∧
      ∃ k, FirstRotated Vault.usual "old" "new" (fun _ => True) sampleScene.store.keep samples k
          s'.state.store ∧
        Tells Vault.usual "old" "new" sampleScene samples s'.log k r := by
  obtain ⟨r, s', h⟩ := Manner.exists_ends (m := .rough fun _ => True) ⟨default, trivial⟩
    (fun _ => ⟨.ofNat 0, trivial⟩) (fun _ => ⟨.ok "", trivial⟩)
    (Vault.usual.rotate "old" "new").run sampleScene
  obtain ⟨log, hlog⟩ := h.exists_log []
  obtain ⟨k, -, hmoved, htells, -⟩ := rotate_stops Vault.usual (by decide : "old" ≠ "")
    (by decide : "new" ≠ "") (.rough fun _ => True) holds_samples.lists (fun _ _ => trivial)
    (by decide) hlog
  exact ⟨r, _, hlog, k, hmoved, htells⟩

end

end Strongbox.Rotation
