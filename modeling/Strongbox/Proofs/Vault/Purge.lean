import Strongbox.Proofs.Scene
import Strongbox.Proofs.Settings
import Strongbox.Proofs.Store.Removal

/-!
# Vault — purging

While a purge runs in calm surroundings, the store is the one it began with, but for the entries
that were purged so far.  Each page is purged of its expired entries, which leaves the others of the
page before the next one, so the pages meet every entry of the list once.

* `Purging`: the scene after the entries with given ids were purged.
* `Purging.purgeEntry`, `Purging.eachEntry`, `Purging.eachPage`: what work on one entry, in order
  and page by page does from there.
* `purge_due`: what a purge comes to, and that a second one finds nothing to do.
-/

namespace Strongbox.Vault

/-- A purge in the mode at the instant takes the entry. -/
def due (mode : PurgeMode) (now : Instant) (e : Entry) : Bool :=
  (purgeFilter mode).admits e && e.isExpired now

/-- The ids of entries. -/
abbrev idsOf (es : List Entry) : List Uuid :=
  es.map (·.id)

/-- Where ids are apart, an entry is picked if its id is that of one picked. -/
theorem contains_idsOf_filter {es : List Entry} (hids : (idsOf es).Nodup) {p : Entry → Bool}
    {e : Entry} (he : e ∈ es) : (idsOf (es.filter p)).contains e.id = p e := by
  rw [Bool.eq_iff_iff, List.contains_iff_mem, List.mem_map]
  constructor
  · rintro ⟨x, hx, hid⟩
    obtain ⟨hm, hp⟩ := List.mem_filter.1 hx
    obtain rfl := List.inj_on_of_nodup_map hids hm he hid
    exact hp
  · exact fun hp => ⟨e, List.mem_filter.2 ⟨he, hp⟩, rfl⟩

/-- The scene of a purge of the store `b`, when the entries with an id in `done` have been purged
and nobody has cancelled. -/
structure Purging (b : Backing) (mode : PurgeMode) (now : Instant) (done : List Uuid)
    (s : Scene) : Prop where
  quiet : s.caller.raised = false
  store : s.store = b.purged mode now done

section

variable {m : Manner} {v : Vault} {b : Backing} {es : List Entry} {mode : PurgeMode}
  {now : Instant} {done : List Uuid} {s s' : Scene}

namespace Purging

/-- A call that the store carries out. -/
theorem call (hf : ¬ m.failing) (hs : Purging b mode now done s) {c : Store.Call} {a : c.Answer}
    {done' : List Uuid}
    (ha : (b.purged mode now done).answer c = (.ok a, b.purged mode now done')) {x : c.Reply}
    (h : m.answers (.store c) s x s') : x = .ok a ∧ Purging b mode now done' s' := by
  obtain ⟨rfl, rfl⟩ := Manner.eq_of_call hf h
  rw [← hs.store] at ha
  exact ⟨congrArg Prod.fst ha, hs.quiet, congrArg Prod.snd ha⟩

/-- **One more entry is purged.** -/
theorem purgeEntry (hf : ¬ m.failing) (hb : b.Lists es) {e : Entry} (he : e ∈ es)
    (hid : e.id ∉ done) (hs : Purging b mode now done s) {r : Except VaultError Bool}
    (h : (Vault.purgeEntry mode now e).Ends m.answers s r s') :
    r = .ok true ∧ Purging b mode now (done ++ [e.id]) s' := by
  cases mode with
  | soft =>
      obtain ⟨x, t, hx, hr⟩ := Job.ends_call_bind.1 h
      obtain ⟨rfl, hs'⟩ := hs.call hf (hb.answer_hide now done he) hx
      obtain ⟨rfl, rfl⟩ := Job.ends_pure.1 hr
      exact ⟨rfl, hs'⟩
  | hard =>
      obtain ⟨x, t, hx, hr⟩ := Job.ends_call_bind.1 h
      obtain ⟨rfl, hs'⟩ := hs.call hf (hb.answer_erase he hid) hx
      obtain ⟨rfl, rfl⟩ := Job.ends_pure.1 hr
      exact ⟨rfl, hs'⟩

/-- Work on entries one after another purges all of them. -/
theorem eachEntry (hf : ¬ m.failing) (hc : ¬ m.cancelling) (hb : b.Lists es)
    {entries : List Entry} (hsub : entries ⊆ es) (hnd : (done ++ idsOf entries).Nodup) {n : Nat}
    {p : Progress} (hs : Purging b mode now done s)
    (h : (Strongbox.eachEntry (Vault.purgeEntry mode now) n entries).Ends m.answers s p s') :
    p = ⟨n + entries.length, none⟩ ∧ Purging b mode now (done ++ idsOf entries) s' := by
  induction entries generalizing done n s with
  | nil =>
      obtain ⟨rfl, rfl⟩ := h
      exact ⟨rfl, by simpa using hs⟩
  | cons e entries ih =>
      obtain ⟨he, hsub⟩ := List.cons_subset.1 hsub
      have hid : e.id ∉ done := fun hm =>
        (List.nodup_append.1 hnd).2.2 _ hm _ List.mem_cons_self rfl
      obtain ⟨x, t, hx, hp⟩ := Program.ends_bind.1 h
      have hwork := Manner.checkpoint_bind hc hs.quiet (Job.ends_def.1 hx)
      obtain ⟨rfl, hs'⟩ := hs.purgeEntry hf hb he hid hwork
      have hids : done ++ [e.id] ++ idsOf entries = done ++ idsOf (e :: entries) := by
        simp [idsOf]
      obtain ⟨rfl, hfin⟩ := ih hsub (hids ▸ hnd) hs' hp
      rw [hids] at hfin
      exact ⟨by simp only [List.length_cons, if_true, Nat.add_assoc, Nat.add_comm 1], hfin⟩

/-! ### Page by page -/

/-- What is picked from a page of those still listed has not been purged. -/
theorem fresh_page (hids : (idsOf es).Nodup) (hnd : done.Nodup) {front todo : List Entry}
    (hl : es.filter (mode.lists done) = front ++ todo) (size : Nat) (p : Entry → Bool) :
    (todo.take size).filter p ⊆ es ∧ (done ++ idsOf ((todo.take size).filter p)).Nodup := by
  have hsub : ((todo.take size).filter p).Sublist (es.filter (mode.lists done)) := by
    rw [hl]
    exact (List.filter_sublist.trans (List.take_sublist _ _)).trans (List.sublist_append_right _ _)
  have hlisted : ∀ e ∈ (todo.take size).filter p, e ∈ es ∧ mode.lists done e = true :=
    fun e he => List.mem_filter.1 (hsub.subset he)
  refine ⟨fun e he => (hlisted e he).1, List.nodup_append.2 ⟨hnd, ?_, fun id hid _ hm heq => ?_⟩⟩
  · exact ((hsub.trans List.filter_sublist).map _).nodup hids
  · obtain ⟨e, he, rfl⟩ := List.mem_map.1 hm
    exact (PurgeMode.lists_iff.1 (hlisted e he).2).2 (heq ▸ hid)

/-- The page that the store lists while a purge goes on. -/
theorem answer_page (hb : b.Lists es) {offset : Nat} {front todo : List Entry}
    (hl : es.filter (mode.lists done) = front ++ todo) (ho : front.length = offset) (size : Nat) :
    (b.purged mode now done).answer (.list (.page (purgeFilter mode) offset size))
      = (.ok (todo.take size), b.purged mode now done) := by
  rw [Query.page, (hb.listing_purged mode now done).list, hl, Store.window, List.drop_left' ho]

/-- What is still listed after one more page was purged. -/
theorem listed_page {front page back : List Entry} (hids : (idsOf es).Nodup)
    (hl : es.filter (mode.lists done) = front ++ (page ++ back)) (p : Entry → Bool) :
    es.filter (mode.lists (done ++ idsOf (page.filter p)))
      = front ++ (page.filter (!p ·) ++ back) := by
  have hnd : (idsOf (front ++ (page ++ back))).Nodup :=
    hl ▸ (List.filter_sublist.map _).nodup hids
  simp only [idsOf, List.map_append] at hnd
  obtain ⟨-, hrest, hfront⟩ := List.nodup_append'.1 hnd
  obtain ⟨hpage, -, hback⟩ := List.nodup_append'.1 hrest
  -- whoever is not in the page stays
  have hstay : ∀ xs : List Entry, (∀ e ∈ xs, e.id ∉ idsOf page) →
      xs.filter (fun e => !(idsOf (page.filter p)).contains e.id) = xs := by
    intro xs hn
    refine List.filter_eq_self.2 fun e he => ?_
    rw [Bool.not_eq_true', Bool.eq_false_iff, ne_eq, List.contains_iff_mem]
    exact fun hm => hn e he ((List.filter_sublist.map _).subset hm)
  have hf := hstay front fun e he hm =>
    hfront (List.mem_map_of_mem he) (List.mem_append_left _ hm)
  have hb := hstay back fun e he hm => hback hm (List.mem_map_of_mem he)
  have hp : page.filter (fun e => !(idsOf (page.filter p)).contains e.id)
      = page.filter (!p ·) :=
    List.filter_congr fun e he => by rw [contains_idsOf_filter hpage he]
  rw [PurgeMode.filter_lists_append, hl, List.filter_append, List.filter_append, hf, hp, hb]

/-- After a page was purged, the next one begins behind what is left of it. -/
theorem next_page (size : Nat) {offset : Nat} {front todo : List Entry} (hids : (idsOf es).Nodup)
    (hl : es.filter (mode.lists done) = front ++ todo) (ho : front.length = offset)
    (p : Entry → Bool) :
    es.filter (mode.lists (done ++ idsOf ((todo.take size).filter p)))
        = front ++ (todo.take size).filter (!p ·) ++ todo.drop size ∧
      (front ++ (todo.take size).filter (!p ·)).length
        = offset + ((todo.take size).length - ((todo.take size).filter p).length) := by
  have hsplit : es.filter (mode.lists done) = front ++ (todo.take size ++ todo.drop size) := by
    rw [hl, List.take_append_drop]
  have hlen := List.length_eq_length_filter_add (l := todo.take size) p
  rw [List.append_assoc, List.length_append, ho]
  exact ⟨listed_page hids hsplit p, by omega⟩

/-- What is picked from a page, and from the rest after it. -/
theorem idsOf_filter_take (size : Nat) (todo : List Entry) (p : Entry → Bool) :
    idsOf ((todo.take size).filter p) ++ idsOf ((todo.drop size).filter p)
      = idsOf (todo.filter p) := by
  rw [idsOf, ← List.map_append, ← List.filter_append, List.take_append_drop]

/-- **Work page by page** purges what is expired among the entries from an offset on. -/
theorem eachPage (hf : ¬ m.failing) (hc : ¬ m.cancelling) (hb : b.Lists es) {size : Nat}
    (hsize : 0 < size) {rounds offset n : Nat} {front todo : List Entry} {p : Progress}
    (hnd : done.Nodup) (hl : es.filter (mode.lists done) = front ++ todo)
    (ho : front.length = offset) (hr : todo.length < rounds)
    (hs : Purging b mode now done s)
    (h : (Strongbox.eachPage (purgeFilter mode) size true
      (fun n page => Strongbox.eachEntry (Vault.purgeEntry mode now) n
        (page.filter (·.isExpired now))) rounds offset n).Ends m.answers s p s') :
    p = ⟨n + todo.countP (·.isExpired now), none⟩ ∧
      Purging b mode now (done ++ idsOf (todo.filter (·.isExpired now))) s' := by
  induction rounds generalizing done n offset s front todo with
  | zero => omega
  | succ rounds ih =>
      obtain ⟨x, t, hx, hp⟩ := Program.ends_bind.1 h
      have hlist := Manner.checkpoint_bind hc hs.quiet (Job.ends_def.1 hx)
      obtain ⟨y, hy, rfl⟩ := Job.ends_call.1 hlist
      obtain ⟨rfl, hs₁⟩ := hs.call hf (answer_page hb hl ho size) hy
      obtain ⟨q, u, hq, hp⟩ := Program.ends_bind.1 hp
      obtain ⟨hes, hnd'⟩ := fresh_page hb.ids hnd hl size (·.isExpired now)
      obtain ⟨rfl, hs₂⟩ := hs₁.eachEntry hf hc hb hes hnd' hq
      by_cases hlast : (todo.take size).length < size
      · -- the last page: it holds what was left
        rw [if_pos (.inr hlast)] at hp
        obtain ⟨rfl, rfl⟩ := hp
        have htake : todo.take size = todo :=
          List.take_of_length_le (by rw [List.length_take] at hlast; omega)
        rw [htake] at hs₂ ⊢
        rw [List.countP_eq_length_filter]
        exact ⟨rfl, hs₂⟩
      · rw [if_neg (by simpa using hlast)] at hp
        simp only [if_true, Nat.add_sub_cancel_left] at hp
        obtain ⟨hl', ho'⟩ := next_page size hb.ids hl ho (·.isExpired now)
        have hr' : (todo.drop size).length < rounds := by
          rw [List.length_take] at hlast
          rw [List.length_drop]
          omega
        obtain ⟨rfl, hfin⟩ := ih hnd' hl' ho' hr' hs₂ hp
        have hids : done ++ idsOf ((todo.take size).filter (·.isExpired now))
            ++ idsOf ((todo.drop size).filter (·.isExpired now))
              = done ++ idsOf (todo.filter (·.isExpired now)) := by
          rw [List.append_assoc, idsOf_filter_take]
        have hcount : ((todo.take size).filter (·.isExpired now)).length
            + (todo.drop size).countP (·.isExpired now) = todo.countP (·.isExpired now) := by
          rw [← List.countP_eq_length_filter, ← List.countP_append, List.take_append_drop]
        rw [hids] at hfin
        exact ⟨by rw [Nat.add_assoc, hcount], hfin⟩

/-- **A purge** of a store from which some entries were purged before. -/
theorem purge (hf : ¬ m.failing) (hc : ¬ m.cancelling) (hn : ∀ t, m.shows t → t = now)
    (hb : b.Lists es) (hnd : done.Nodup) (hs : Purging b mode now done s)
    {r : Except VaultError Nat} (h : (v.purge mode).Ends m.answers s r s') :
    r = .ok ((es.filter (mode.lists done)).countP (·.isExpired now)) ∧
      Purging b mode now
        (done ++ idsOf ((es.filter (mode.lists done)).filter (·.isExpired now))) s' := by
  have h₁ := Manner.checkpoint_bind hc hs.quiet h
  obtain ⟨p, t, hwork, h₂⟩ := Job.ends_lift_bind.1 h₁
  obtain ⟨now', u, ⟨hnow, rfl⟩, hpages⟩ := Program.ends_reply_bind.1 hwork
  obtain rfl := hn _ hnow
  obtain ⟨extent, u, ⟨hext, rfl⟩, hp⟩ := Program.ends_reply_bind.1 hpages
  have hlen := (hb.listing_purged mode now' done).length_le
  rw [← hs.store] at hlen
  have hl : es.filter (mode.lists done) = [] ++ es.filter (mode.lists done) := rfl
  obtain ⟨rfl, hfin⟩ := hs.eachPage hf hc hb (Settings.rotation_pos v.sound).1 hnd hl rfl
    (by omega) hp
  obtain ⟨rfl, rfl⟩ := Job.ends_ofExcept.1 h₂
  exact ⟨by rw [Progress.result, Nat.zero_add], hfin⟩

end Purging

end

/-! ### The whole purge -/

/-- The entries after a purge, `kept` being what the store keeps of the instant: those due are
hidden, or gone. -/
def afterPurge (mode : PurgeMode) (now kept : Instant) (es : List Entry) : List Entry :=
  match mode with
  | .soft => es.map fun e => if due .soft now e then e.hide kept else e
  | .hard => es.filter fun e => !due .hard now e

theorem leaves_due {es : List Entry} (hids : (idsOf es).Nodup) (mode : PurgeMode)
    (now kept : Instant) :
    mode.leaves kept (idsOf (es.filter (due mode now))) es = afterPurge mode now kept es := by
  cases mode with
  | soft =>
      refine List.map_congr_left fun e he => ?_
      rw [Entry.hideIn, contains_idsOf_filter hids he]
  | hard =>
      refine List.filter_congr fun e he => ?_
      rw [contains_idsOf_filter hids he]

/-- Before a purge, the entries due are those listed that expired. -/
theorem expired_of_listed (es : List Entry) (mode : PurgeMode) (now : Instant) :
    (es.filter (mode.lists [])).filter (·.isExpired now) = es.filter (due mode now) := by
  rw [List.filter_filter]
  refine List.filter_congr fun e _ => ?_
  rw [due, PurgeMode.lists, List.contains_nil, Bool.not_false, Bool.and_true, Bool.and_comm]

/-- After a purge no entry is listed that expired: it would have been due. -/
theorem none_expired {es : List Entry} (hids : (idsOf es).Nodup) (mode : PurgeMode)
    (now : Instant) :
    (es.filter (mode.lists (idsOf (es.filter (due mode now))))).filter (·.isExpired now) = [] := by
  rw [List.filter_filter]
  refine List.filter_eq_nil_iff.2 fun e he hm => ?_
  obtain ⟨hexp, hlist⟩ := Bool.and_eq_true_iff.1 hm
  obtain ⟨hadm, hnot⟩ := PurgeMode.lists_iff.1 hlist
  refine hnot (List.contains_iff_mem.1 ?_)
  rw [contains_idsOf_filter hids he, due, hadm, hexp, Bool.and_true]

/-- **A purge takes the entries that are due, and no others.**  In calm surroundings it ends, and
its result is the number of the entries due: those that expired before the instant, without the
hidden ones if the purge is soft.  The store is the one it was, with exactly these entries hidden at
the instant or taken out, and it lists the entries so, whenever it can read the instant back.
Another vault, whatever its rules, comes to the same result and the same store; and a second purge
at the same instant finds nothing and changes nothing. -/
theorem purge_due (v : Vault) (mode : PurgeMode) (now : Instant) {s : Scene} {es : List Entry}
    (hs : s.store.Lists es) (hq : s.caller.raised = false) :
    (∃ r s', (v.purge mode).Ends (Manner.calm (· = now)).answers s r s') ∧
    ∀ r s', (v.purge mode).Ends (Manner.calm (· = now)).answers s r s' →
      r = .ok (es.countP (due mode now)) ∧
      s'.store = s.store.purged mode now (idsOf (es.filter (due mode now))) ∧
      ((mode = .soft → s.store.Takes now) →
        s'.store.Lists (afterPurge mode now (s.store.keep now) es)) ∧
      ∀ v' : Vault,
        (∀ r₂ s₂, (v'.purge mode).Ends (Manner.calm (· = now)).answers s r₂ s₂ →
          r₂ = r ∧ s₂.store = s'.store) ∧
        (∃ r₂ s₂, (v'.purge mode).Ends (Manner.calm (· = now)).answers s' r₂ s₂) ∧
        ∀ r₂ s₂, (v'.purge mode).Ends (Manner.calm (· = now)).answers s' r₂ s₂ →
          r₂ = .ok 0 ∧ s₂.store = s'.store := by
  have hruns : ∀ (v : Vault) (s : Scene),
      ∃ r s', (v.purge mode).Ends (Manner.calm (· = now)).answers s r s' := fun v s =>
    Manner.exists_ends ⟨now, rfl⟩ (fun _ => ⟨.ofNat 0, trivial⟩) (fun _ => ⟨.ok "", trivial⟩) _ s
  have hstart : Purging s.store mode now [] s := ⟨hq, (Backing.purged_nil mode now s.store).symm⟩
  have hfirst : ∀ (v : Vault) {r s'}, (v.purge mode).Ends (Manner.calm (· = now)).answers s r s' →
      r = .ok (es.countP (due mode now)) ∧
        Purging s.store mode now (idsOf (es.filter (due mode now))) s' := by
    intro v r s' h
    obtain ⟨rfl, hs'⟩ := hstart.purge id id (fun _ => id) hs List.nodup_nil h
    rw [expired_of_listed] at hs'
    rw [List.countP_eq_length_filter, expired_of_listed, ← List.countP_eq_length_filter]
    exact ⟨rfl, hs'⟩
  refine ⟨hruns v s, fun r s' h => ?_⟩
  obtain ⟨rfl, hs'⟩ := hfirst v h
  refine ⟨rfl, hs'.store, fun ht => ?_, fun v' => ⟨fun r₂ s₂ h₂ => ?_, hruns v' s', ?_⟩⟩
  · rw [hs'.store, ← leaves_due hs.ids]
    exact hs.purged ht _
  · obtain ⟨rfl, hs₂⟩ := hfirst v' h₂
    exact ⟨rfl, hs₂.store.trans hs'.store.symm⟩
  · intro r₂ s₂ h₂
    obtain ⟨rfl, hs₂⟩ := hs'.purge id id (fun _ => id) hs
      ((List.filter_sublist.map _).nodup hs.ids) h₂
    rw [none_expired hs.ids] at hs₂
    rw [List.countP_eq_length_filter, none_expired hs.ids]
    exact ⟨rfl, hs₂.store.trans (by rw [hs'.store]; simp)⟩

/-- Two entries: one that expires after the first second, and one that does not expire. -/
def dueSamples : List Entry :=
  [⟨.ofNat 0, "first", "locked", default, default, some (.ofSecond 1), none⟩,
    ⟨.ofNat 1, "second", "locked", default, default, none, none⟩]

/-- A table with the two entries. -/
def dueScene : Scene :=
  ⟨.table ⟨true, dueSamples.map Store.Row.ofEntry⟩, .idle, []⟩

theorem lists_dueSamples : dueScene.store.Lists dueSamples where
  rows := by
    have hsort : (dueSamples.map Store.Row.ofEntry).mergeSort (Store.Table.inOrder .id)
        = dueSamples.map Store.Row.ofEntry :=
      List.mergeSort_of_pairwise (List.pairwise_pair.2 (by decide +kernel))
    have hread : ∀ e ∈ dueSamples, e.unfit? = none ∧ e.floorMicros = e := by decide +kernel
    rw [hsort, List.forall₂_map_left_iff, List.forall₂_same]
    intro e he
    obtain ⟨hfit, hfloor⟩ := hread e he
    have hrow := Store.Row.holds_ofEntry (Entry.unfit?_eq_none.1 hfit)
    rwa [hfloor] at hrow
  ids := by decide
  small := by decide

/-- A soft purge hides one of two entries. -/
theorem purge_due_dueSamples :
    ∃ r s', (Vault.usual.purge .soft).Ends (Manner.calm (· = .ofSecond 2)).answers dueScene r s' ∧
      r = .ok 1 := by
  obtain ⟨⟨r, s', h⟩, hall⟩ :=
    purge_due Vault.usual .soft (.ofSecond 2) lists_dueSamples rfl
  exact ⟨r, s', h, (hall r s' h).1.trans (congrArg Except.ok (by decide +kernel))⟩

end Strongbox.Vault
