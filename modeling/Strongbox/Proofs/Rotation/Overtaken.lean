import Strongbox.Proofs.Rotation.Custody
import Strongbox.Proofs.Rotation.Sweep
import Strongbox.Proofs.Store.Mirror
import Strongbox.Proofs.Vault.Pages

/-!
# Rotation — an update beside it

While a rotation runs, another client may update one of the secrets, between any two questions of
the rotation.  The rotation writes back what it has listed, so the update is lost if it falls
between the list that showed the entry and the write of the entry; otherwise it stays, under its own
password or, if that was the old one, under the new one.

* `beside`: the surroundings of a rotation with an update beside it.
* `Overtaken`: the log of a rotation that has written back what it listed before the update.
* `sweep_beside`: what the rotation keeps of the entry, by `Sweep`.
* `update_overtaken`: what the entry holds in the end.
* `update_lost`: an update that is lost.
-/

namespace Strongbox

/-- A scene, and the locked text that the update of the other client has written in it, once it has
run. -/
structure Shared where
  scene : Scene
  wrote : Option String := none

/-- The update of the other client has run. -/
def Shared.ran (s : Shared) : Bool :=
  s.wrote.isSome

theorem Shared.ran_of_wrote {s : Shared} {blob : String} (h : s.wrote = some blob) :
    s.ran = true := by
  rw [ran, h]
  rfl

namespace Exchange

variable {σ : Type}

/-- The store has rewritten the entry with the id. -/
def Rewrites (id : Uuid) (x : Exchange σ) : Prop :=
  match x with
  | ⟨.store (.update e _), .ok _, _⟩ => e.id = id
  | _ => False

/-- Only a list shows entries. -/
theorem entries_eq_nil {r : Request} (h : ∀ q, r ≠ .store (.list q)) (x : r.Reply) (after : σ) :
    entries ⟨r, x, after⟩ = [] := by
  cases r with
  | store c =>
      cases c with
      | list q => exact absurd rfl (h q)
      | create | update | erase | findId | findToken | count => rfl
  | cancellation | random | now | freshId | token | turns | extent => rfl

/-- What only reads does not rewrite an entry. -/
theorem not_rewrites {r : Request} (h : r.reads = true) (x : r.Reply) (after : σ) (id : Uuid) :
    ¬ Rewrites id ⟨r, x, after⟩ := by
  cases r with
  | store c =>
      cases c with
      | create | update | erase => cases h
      | findId | findToken | list | count => exact not_false
  | cancellation | random | now | freshId | token | turns | extent => exact not_false

end Exchange

namespace Rotation

section

variable (m : Manner) (v : Vault) (token text password : String)

/-- Between two questions the other client may run its update, once; its cancellation is its own.
What it wrote is the latest that was written then. -/
def Meanwhile (s t : Shared) : Prop :=
  t = s ∨ (s.ran = false ∧ t.wrote = t.scene.written.head?.map (·.locked) ∧
    t.scene.caller = s.scene.caller ∧ ∃ c c',
      (v.update token text password).Ends m.answers { s.scene with caller := c } (.ok ())
        { t.scene with caller := c' })

/-- Surroundings in which another client updates a secret, before one of the questions or never. -/
def beside : Surroundings Shared :=
  fun r s x s' => ∃ t, Meanwhile m v token text password s t ∧ m.answers r t.scene x s'.scene ∧
    s'.wrote = t.wrote

end

section

variable {m : Manner} {v : Vault} {token text password : String} {s t : Scene}

/-- An answer that leaves the other client no time. -/
theorem beside_of {r : Request} {x : r.Reply} {wrote : Option String} (h : m.answers r s x t) :
    beside m v token text password r ⟨s, wrote⟩ x ⟨t, wrote⟩ :=
  ⟨⟨s, wrote⟩, .inl rfl, h, rfl⟩

/-- What the update has written stays. -/
theorem Meanwhile.wrote_eq {s t : Shared} (h : Meanwhile m v token text password s t)
    (hr : s.ran = true) : t.wrote = s.wrote := by
  rcases h with rfl | ⟨hran, -⟩
  · rfl
  · rw [hr] at hran
    cases hran

/-- An update may run that leaves the caller as it is. -/
theorem meanwhile_of (hcaller : t.caller = s.caller)
    (h : (v.update token text password).Ends m.answers s (.ok ()) t) :
    Meanwhile m v token text password ⟨s, none⟩ ⟨t, t.written.head?.map (·.locked)⟩ :=
  .inr ⟨rfl, rfl, hcaller, s.caller, t.caller, h⟩

end

/-- Before the update the entry with the id was listed. -/
def ListedBefore (id : Uuid) (log : List (Exchange Shared)) : Prop :=
  ∃ x ∈ log, x.after.ran = false ∧ ∃ e ∈ x.entries, e.id = id

/-- After the update the entry with the id was rewritten. -/
def RewrittenAfter (id : Uuid) (log : List (Exchange Shared)) : Prop :=
  ∃ x ∈ log, x.after.ran = true ∧ x.Rewrites id

/-- The update fell between the list that showed the entry and the write of the entry. -/
def Overtaken (id : Uuid) (log : List (Exchange Shared)) : Prop :=
  ListedBefore id log ∧ RewrittenAfter id log

/-! ### The log -/

section

variable {id : Uuid} {x : Exchange Shared} {log : List (Exchange Shared)}

theorem listedBefore_cons : ListedBefore id (x :: log) ↔
    (x.after.ran = false ∧ ∃ e ∈ x.entries, e.id = id) ∨ ListedBefore id log := by
  simp only [ListedBefore, List.exists_mem_cons_iff]

theorem rewrittenAfter_cons : RewrittenAfter id (x :: log) ↔
    (x.after.ran = true ∧ x.Rewrites id) ∨ RewrittenAfter id log := by
  simp only [RewrittenAfter, List.exists_mem_cons_iff]

end

/-! ### The update -/

/-- An active entry that is found is one of those with the token, and nothing has changed. -/
theorem activeEntry_ok {m : Manner} {token : String} {s s' : Scene} {es : List Entry} {e : Entry}
    (hs : s.store.Holds es) (h : (Vault.activeEntry token).Ends m.answers s (.ok e) s') :
    e ∈ es ∧ e.token = token ∧ s'.store = s.store := by
  obtain ⟨x, t, hx, hr⟩ := Job.ends_call_bind.1 h
  cases x with
  | error error => cases hr.1
  | ok found =>
      have hanswer : (s.store.answer (.findToken token)).1 = .ok found ∧ t.store = s.store := by
        rcases hx with ⟨hx, rfl⟩ | ⟨-, ⟨_, he⟩, -⟩
        · refine ⟨hx.symm, ?_⟩
          simp only [Scene.after]
          cases s.store <;> rfl
        · cases he
      cases found with
      | none => cases hr.1
      | some a =>
          dsimp only at hr
          split at hr
          · cases hr.1
          · obtain ⟨he, rfl⟩ := Job.ends_pure.1 hr
            obtain rfl := Except.ok.inj he
            obtain ⟨hmem, htoken⟩ := hs.found hanswer.1
            exact ⟨hmem, htoken, hanswer.2⟩

/-- An update that goes through has found the entry and locked it anew. -/
theorem update_ok {m : Manner} {v : Vault} {token text password : String} {s s' : Scene}
    {es : List Entry} (hs : s.store.Holds es) (ht : ∀ t, m.shows t → s.store.Takes t)
    (h : (v.update token text password).Ends m.answers s (.ok ()) s') :
    ∃ e ∈ es, e.token = token ∧ ∃ (head : Bytes) (now : Instant),
      v.lock.Fits text password head ∧
      s'.written.head?.map (·.locked) = some (v.lock.lock text password head) ∧
      s'.store.Takes = s.store.Takes ∧
      s'.store.Holds (es.map fun r =>
        if r.id = e.id then
          { r with locked := v.lock.lock text password head, updated := s.store.keep now }
        else r) := by
  obtain ⟨-, he, -⟩ | ⟨-, h₁⟩ := Vault.requireToken_bind h
  · cases he
  obtain ⟨-, he, -⟩ | ⟨-, h₂⟩ := Vault.requirePassword_bind h₁
  · cases he
  obtain ⟨c, t, ⟨-, rfl⟩, ⟨-, he, -⟩ | ⟨-, h₃⟩⟩ := Job.ends_checkpoint_cases h₂
  · cases he
  obtain ⟨e, t, hfound, h₄⟩ | ⟨error, -, he⟩ := Job.ends_bind.1 h₃
  · obtain ⟨hmem, htoken, hstore⟩ := activeEntry_ok (s := { s with caller := c }) hs hfound
    obtain ⟨error, -, he, -⟩ | ⟨head, hfits, h₅⟩ := Vault.lockText_bind h₄
    · cases he
    obtain ⟨now, u, ⟨hnow, rfl⟩, h₆⟩ := Job.ends_reply_bind.1 h₅
    obtain ⟨x, hx, he⟩ := Job.ends_call.1 h₆
    obtain rfl := Job.eq_ok_of_mapError he.symm
    rcases hx with ⟨hok, rfl⟩ | ⟨-, ⟨_, he⟩, -⟩
    · have hrelocked := (hs.relocked
        { e with locked := v.lock.lock text password head, updated := now } hmem rfl
        (ht now hnow)).2
      rw [← hstore] at hrelocked
      refine ⟨e, hmem, htoken, head, now, hfits, ?_, ?_, ?_⟩
      · rw [Scene.written_after hok.symm]
        rfl
      · exact (Backing.takes_answer _ _).trans (congrArg Backing.Takes hstore)
      · rw [← hstore]
        exact hrelocked
    · cases he
  · cases he

/-! ### What is kept of the entry -/

section

variable (v : Vault) (old new text password : String)

/-- The entry holds a locked text moved by the rotation. -/
def Relocked (locked : String) (e : Entry) : Prop :=
  ∃ (found : String) (head : Bytes), v.lock.Fits found new head ∧
    v.lock.unlock locked old = .ok found ∧ e.locked = v.lock.lock found new head

/-- The entry holds a locked text, as it was written or moved by the rotation. -/
def Stays (locked : String) (e : Entry) : Prop :=
  e.locked = locked ∨ Relocked v old new locked e

/-- What the entry `e₀` has become as `e`, when the first `k` of some ids have been listed and those
in `done` worked on. -/
structure Fate (e₀ : Entry) (ids : List Uuid) (k : Nat) (done : List Uuid)
    (s : Logged Shared) (e : Entry) : Prop where
  listed : ∀ x ∈ s.log, ∀ a ∈ x.entries, a.id ∈ ids.take k
  before : s.state.ran = false → (∀ x ∈ s.log, x.after.ran = false) ∧ (e₀.id ∉ done → e = e₀)
  fresh : e₀.id ∉ done → ¬ RewrittenAfter e₀.id s.log
  between : ∀ blob, s.state.wrote = some blob → e₀.id ∉ done → e.locked = blob
  settled : ∀ blob, s.state.wrote = some blob → e₀.id ∈ done →
    (Stays v old new blob e ∧ ¬ Overtaken e₀.id s.log) ∨
      (Relocked v old new e₀.locked e ∧ Overtaken e₀.id s.log)

/-- An entry may be worked on: if it is the one with the update, it is as it was before the update
and was listed then, or it is as the update left it and was not listed before. -/
def Workable (e₀ : Entry) (ids : List Uuid) (s : Logged Shared) (e : Entry) : Prop :=
  e.id ∈ ids ∧ (e.id = e₀.id → (e = e₀ ∧ ListedBefore e₀.id s.log) ∨
    (s.state.wrote = some e.locked ∧ ¬ ListedBefore e₀.id s.log))

/-- The id and the token of an entry. -/
def key (e : Entry) : Uuid × String :=
  (e.id, e.token)

/-- The store holds the same entries, and one of them has its fate. -/
structure Beside (s₀ : Scene) (es : List Entry) (e₀ : Entry) (k : Nat) (done : List Uuid)
    (s : Logged Shared) : Prop where
  wrote : ∀ blob, s.state.wrote = some blob → v.lock.unlock blob password = .ok text
  takes : s.state.scene.store.Takes = s₀.store.Takes
  entries : ∃ es', s.state.scene.store.Holds es' ∧ es'.map key = es.map key ∧
    ∃ e ∈ es', e.id = e₀.id ∧ Fate v old new e₀ (es.map (·.id)) k done s e

end

section

variable {v : Vault} {old new text password : String} {e₀ e : Entry} {ids : List Uuid} {k k' : Nat}
  {done : List Uuid} {s s' : Logged Shared} {y : Exchange Shared}

namespace Fate

/-- Of the entries worked on it matters only whether this one is among them. -/
theorem congr {done' : List Uuid} (h : Fate v old new e₀ ids k done s e)
    (hd : e₀.id ∈ done' ↔ e₀.id ∈ done) : Fate v old new e₀ ids k done' s e where
  listed := h.listed
  before hr := (h.before hr).imp_right fun hb hn => hb (mt hd.2 hn)
  fresh hn := h.fresh (mt hd.2 hn)
  between blob hb hn := h.between blob hb (mt hd.2 hn)
  settled blob hb hm := h.settled blob hb (hd.1 hm)

/-- **The update runs.**  Nothing was written after it yet. -/
theorem ran (h : Fate v old new e₀ ids k done s e) (hr : s.state.ran = false)
    {t : Shared} {e' : Entry} (ht : t.wrote = some e'.locked) :
    Fate v old new e₀ ids k done ⟨t, s.log⟩ e' where
  listed := h.listed
  before hf := by
    rw [Shared.ran, ht] at hf
    cases hf
  fresh := h.fresh
  between blob hb _ := Option.some.inj (ht.symm.trans hb)
  settled blob hb _ := by
    refine .inl ⟨.inl (Option.some.inj (ht.symm.trans hb)), fun ⟨_, x, hx, hafter, _⟩ => ?_⟩
    rw [(h.before hr).1 x hx] at hafter
    cases hafter

/-- A question that leaves the entry as it is. -/
theorem push (h : Fate v old new e₀ ids k done s e) (hk : k ≤ k')
    (hlog : s'.log = y :: s.log) (hy : y.after = s'.state) (hwrote : s'.state.wrote = s.state.wrote)
    (hlisted : ∀ a ∈ y.entries, a.id ∈ ids.take k') (hrw : ¬ y.Rewrites e₀.id) :
    Fate v old new e₀ ids k' done s' e := by
  have hran : s'.state.ran = s.state.ran := congrArg Option.isSome hwrote
  have hlisted' : s.state.ran = true →
      (ListedBefore e₀.id (y :: s.log) ↔ ListedBefore e₀.id s.log) := by
    intro hr
    rw [listedBefore_cons, hy, hran, hr]
    simp only [Bool.true_eq_false, false_and, false_or]
  have hrewritten : RewrittenAfter e₀.id (y :: s.log) ↔ RewrittenAfter e₀.id s.log := by
    rw [rewrittenAfter_cons]
    exact or_iff_right fun hc => hrw hc.2
  refine ⟨?_, fun hr => ?_, ?_, ?_, fun blob hb hm => ?_⟩
  · rw [hlog]
    refine List.forall_mem_cons.2 ⟨hlisted, fun x hx a ha => ?_⟩
    exact (List.take_subset_take_left ids hk) (h.listed x hx a ha)
  · rw [hran] at hr
    obtain ⟨hall, hb⟩ := h.before hr
    refine ⟨?_, hb⟩
    rw [hlog]
    exact List.forall_mem_cons.2 ⟨by rw [hy, hran, hr], hall⟩
  · rw [hlog, hrewritten]
    exact h.fresh
  · rw [hwrote]
    exact h.between
  · rw [hwrote] at hb
    rw [hlog, Overtaken, hlisted' (Shared.ran_of_wrote hb), hrewritten]
    exact h.settled blob hb hm

/-- The entry has been worked on and was not written. -/
theorem skip (h : Fate v old new e₀ ids k done s e) (hid : e₀.id ∉ done) :
    Fate v old new e₀ ids k (e₀.id :: done) s e where
  listed := h.listed
  before hr := (h.before hr).imp_right fun _ hn => absurd List.mem_cons_self hn
  fresh hn := absurd List.mem_cons_self hn
  between _ _ hn := absurd List.mem_cons_self hn
  settled blob hb _ := .inl ⟨.inl (h.between blob hb hid), fun ho => h.fresh hid ho.2⟩

/-- **The entry is written back** as it was listed, before the update or after. -/
theorem write (h : Fate v old new e₀ ids k done s e) (hid : e₀.id ∉ done)
    {w : Entry} (hw : Workable e₀ ids s w) (hwid : w.id = e₀.id) {e' : Entry}
    (he' : Relocked v old new w.locked e') (hlog : s'.log = y :: s.log)
    (hy : y.after = s'.state) (hwrote : s'.state.wrote = s.state.wrote) (hnone : y.entries = [])
    (hrw : y.Rewrites e₀.id) : Fate v old new e₀ ids k (e₀.id :: done) s' e' := by
  have hlisted : ListedBefore e₀.id (y :: s.log) ↔ ListedBefore e₀.id s.log := by
    rw [listedBefore_cons, hnone]
    simp
  refine ⟨?_, fun hr => ?_, fun hn => absurd List.mem_cons_self hn,
    fun _ _ hn => absurd List.mem_cons_self hn, fun blob hb _ => ?_⟩
  · rw [hlog]
    refine List.forall_mem_cons.2 ⟨fun a ha => ?_, h.listed⟩
    rw [hnone] at ha
    cases ha
  · have hran : s.state.ran = false := by rwa [Shared.ran, ← hwrote]
    refine ⟨?_, fun hn => absurd List.mem_cons_self hn⟩
    rw [hlog]
    exact List.forall_mem_cons.2 ⟨by rw [hy, hr], (h.before hran).1⟩
  · rw [hlog, Overtaken, hlisted, rewrittenAfter_cons]
    rcases hw.2 hwid with ⟨rfl, hbefore⟩ | ⟨hlocked, hnot⟩
    · exact .inr ⟨he', hbefore, .inl ⟨by rw [hy, Shared.ran_of_wrote hb], hrw⟩⟩
    · -- it was listed after the update, and so with the text that this has written
      obtain rfl := Option.some.inj (hlocked.symm.trans (hwrote.symm.trans hb))
      exact .inl ⟨.inr he', fun ho => hnot ho.1⟩

end Fate

/-- The form in which an entry may be worked on lasts, also while the update runs. -/
theorem Workable.lasts (h : Workable e₀ ids s e)
    (hwrote : s.state.ran = true → s'.state.wrote = s.state.wrote)
    (hlog : s'.log = s.log ∨ ∃ y, s'.log = y :: s.log ∧ y.after = s'.state) :
    Workable e₀ ids s' e := by
  refine ⟨h.1, fun hid => (h.2 hid).imp ?_ ?_⟩
  · rintro ⟨rfl, hbefore⟩
    refine ⟨rfl, ?_⟩
    rcases hlog with hlog | ⟨y, hlog, -⟩
    · rwa [hlog]
    · rw [hlog, listedBefore_cons]
      exact .inr hbefore
  · rintro ⟨hb, hnot⟩
    have hb' := (hwrote (Shared.ran_of_wrote hb)).trans hb
    refine ⟨hb', ?_⟩
    rcases hlog with hlog | ⟨y, hlog, hy⟩
    · rwa [hlog]
    · rw [hlog, listedBefore_cons, hy, Shared.ran_of_wrote hb']
      simpa using hnot

end

/-! ### The sweep beside the update -/

section

variable {m : Manner} {v : Vault} {old new text password : String} {s₀ : Scene} {es : List Entry}
  {e₀ : Entry} {k k' : Nat} {done : List Uuid} {s s' : Logged Shared} {y : Exchange Shared}

/-- An entry with another locked text and time, if it has the id. -/
def relockAt (id : Uuid) (locked : String) (updated : Instant) (e : Entry) : Entry :=
  if e.id = id then { e with locked, updated } else e

@[simp] theorem key_relockAt (id : Uuid) (locked : String) (updated : Instant) (e : Entry) :
    key (relockAt id locked updated e) = key e := by
  simp only [relockAt]
  split <;> rfl

theorem map_key_relockAt (id : Uuid) (locked : String) (updated : Instant) (es : List Entry) :
    (es.map (relockAt id locked updated)).map key = es.map key := by
  rw [List.map_map]
  exact List.map_congr_left fun e _ => key_relockAt id locked updated e

theorem map_id_of_key {es es' : List Entry} (h : es'.map key = es.map key) :
    es'.map (·.id) = es.map (·.id) := by
  have := congrArg (List.map Prod.fst) h
  rwa [List.map_map, List.map_map] at this

namespace Beside

/-- **The update of the other client**, or nothing, in between. -/
theorem meanwhile (hb : s₀.store.Holds es) (ht : ∀ t, m.shows t → s₀.store.Takes t)
    (he₀ : e₀ ∈ es) (h : Beside v old new text password s₀ es e₀ k done s) {t : Shared}
    (hm : Meanwhile m v e₀.token text password s.state t) :
    Beside v old new text password s₀ es e₀ k done ⟨t, s.log⟩ := by
  rcases hm with rfl | ⟨hran, hwrote, -, c, c', hupdate⟩
  · exact h
  · obtain ⟨es', hh, hkeys, e, he, hid, hfate⟩ := h.entries
    obtain ⟨a, ha, htoken, head, now, hfits, hlatest, htakes, hh'⟩ :=
      update_ok (s := { s.state.scene with caller := c }) hh (fun t hnow => by
        rw [h.takes]
        exact ht t hnow) hupdate
    -- tokens are apart, so the entry found is the one
    have haid : a.id = e₀.id := by
      have hmem : key a ∈ es.map key := hkeys ▸ List.mem_map_of_mem ha
      obtain ⟨b, hbmem, hbkey⟩ := List.mem_map.1 hmem
      have hbtoken : b.token = e₀.token := (congrArg Prod.snd hbkey).trans htoken
      obtain rfl := List.inj_on_of_nodup_map hb.tokens hbmem he₀ hbtoken
      exact (congrArg Prod.fst hbkey).symm
    let f := relockAt a.id (v.lock.lock text password head) (s.state.scene.store.keep now)
    have hblob : t.wrote = some (v.lock.lock text password head) := hwrote.trans hlatest
    refine ⟨fun blob hb => ?_, htakes.trans h.takes, es'.map f, hh',
      (map_key_relockAt ..).trans hkeys, f e, List.mem_map_of_mem he, ?_, hfate.ran hran ?_⟩
    · obtain rfl := Option.some.inj (hblob.symm.trans hb)
      exact Lock.unlock_lock hfits
    · exact (congrArg Prod.fst (key_relockAt ..)).trans hid
    · simp only [f, relockAt, if_pos (hid.trans haid.symm), hblob]

/-- A question that leaves the store as it is. -/
theorem push (h : Beside v old new text password s₀ es e₀ k done s) (hk : k ≤ k')
    (hstore : s'.state.scene.store = s.state.scene.store) (hlog : s'.log = y :: s.log)
    (hy : y.after = s'.state) (hwrote : s'.state.wrote = s.state.wrote)
    (hlisted : ∀ a ∈ y.entries, a.id ∈ (es.map (·.id)).take k') (hrw : ¬ y.Rewrites e₀.id) :
    Beside v old new text password s₀ es e₀ k' done s' := by
  obtain ⟨es', hh, hkeys, e, he, hid, hfate⟩ := h.entries
  exact ⟨by rw [hwrote]; exact h.wrote, by rw [hstore]; exact h.takes, es', hstore ▸ hh, hkeys, e,
    he, hid, hfate.push hk hlog hy hwrote hlisted hrw⟩

/-- A question that is neither a list nor a write. -/
theorem reads (hb : s₀.store.Holds es) (ht : ∀ t, m.shows t → s₀.store.Takes t)
    (he₀ : e₀ ∈ es) {r : Request} (hr : r.reads = true) (hlist : ∀ q, r ≠ .store (.list q))
    {x : r.Reply} (hx : logged (beside m v e₀.token text password) r s x s')
    (h : Beside v old new text password s₀ es e₀ k done s) :
    Beside v old new text password s₀ es e₀ k done s' := by
  obtain ⟨⟨t, hm, hanswer, hwrote⟩, hlog⟩ := hx
  refine (h.meanwhile hb ht he₀ hm).push (Nat.le_refl k) (Manner.same_of_reads hr hanswer).1 hlog
    rfl hwrote (fun a ha => ?_) (Exchange.not_rewrites hr _ _ _)
  rw [Exchange.entries_eq_nil hlist] at ha
  cases ha

/-- A list that fails. -/
theorem refused (hb : s₀.store.Holds es) (ht : ∀ t, m.shows t → s₀.store.Takes t)
    (he₀ : e₀ ∈ es) {q : Query} {error : StoreError}
    (hx : logged (beside m v e₀.token text password) (.store (.list q)) s (.error error) s')
    (h : Beside v old new text password s₀ es e₀ k done s) :
    Beside v old new text password s₀ es e₀ k done s' := by
  obtain ⟨⟨t, hm, hanswer, hwrote⟩, hlog⟩ := hx
  exact (h.meanwhile hb ht he₀ hm).push (Nat.le_refl k) (Manner.same_of_reads rfl hanswer).1 hlog
    rfl hwrote (fun a ha => absurd ha List.not_mem_nil) id

/-- **A list** shows the entries in a form in which they may be worked on. -/
theorem lists (hb : s₀.store.Holds es) (ht : ∀ t, m.shows t → s₀.store.Takes t)
    (he₀ : e₀ ∈ es) {limit : Option Nat} {page : List Entry}
    (hx : logged (beside m v e₀.token text password)
      (.store (.list { filter := .all, limit, offset := k })) s (.ok page) s')
    (hdone : ∀ id ∈ done, id ∈ (es.map (·.id)).take k)
    (h : Beside v old new text password s₀ es e₀ k done s) :
    page.map (·.id) = Store.window k limit (es.map (·.id)) ∧
      Beside v old new text password s₀ es e₀ (k + page.length) done s' ∧
      ∀ e ∈ page, Workable e₀ (es.map (·.id)) s' e := by
  obtain ⟨⟨t, hm, hanswer, hwrote⟩, hlog⟩ := hx
  have hmean := h.meanwhile hb ht he₀ hm
  obtain ⟨es', hh, hkeys, e, he, hid, hfate⟩ := hmean.entries
  have hpage : page = Store.window k limit es' := by
    rcases hanswer with ⟨hx, -⟩ | ⟨-, ⟨_, hx⟩, -⟩
    · rw [hh.lists.list, Filter.filter_all] at hx
      exact Except.ok.inj hx
    · cases hx
  have hids : page.map (·.id) = Store.window k limit (es.map (·.id)) := by
    rw [hpage, ← Store.window_map, map_id_of_key hkeys]
  obtain ⟨-, hfresh, hseen⟩ :=
    Sweep.fresh hb.ids (fun id (hid : id ∈ (es.map (·.id)).take k) => hid) hids
  have hran : s'.state.ran = t.ran := congrArg Option.isSome hwrote
  refine ⟨hids, hmean.push (Nat.le_add_right _ _) (Manner.same_of_reads rfl hanswer).1 hlog rfl
    hwrote (fun a ha => hseen _ (.inl (List.mem_map_of_mem ha))) id,
    fun a ha => ⟨?_, fun haid => ?_⟩⟩
  · exact List.mem_of_mem_take (hseen _ (.inl (List.mem_map_of_mem ha)))
  · have hae : a = e := by
      refine List.inj_on_of_nodup_map hh.ids ?_ he (haid.trans hid.symm)
      rw [hpage] at ha
      exact Store.Table.mem_of_mem_window ha
    have hnew : e₀.id ∉ (es.map (·.id)).take k := haid ▸ hfresh a ha
    have hnot : e₀.id ∉ done := mt (hdone _) hnew
    cases hr : s'.state.ran with
    | false =>
        -- it is listed before the update, and so as it was
        obtain ⟨-, hsame⟩ := hfate.before (hran.symm.trans hr)
        refine .inl ⟨hae.trans (hsame hnot), ?_⟩
        rw [hlog]
        exact ⟨_, List.mem_cons_self, hr, a, ha, haid⟩
    | true =>
        obtain ⟨blob, hblob⟩ := Option.isSome_iff_exists.1 hr
        have hlocked := hfate.between blob (hwrote.symm.trans hblob) hnot
        refine .inr ⟨by rw [hae, hlocked, hblob], ?_⟩
        rw [hlog, listedBefore_cons]
        rintro (⟨hbefore, -⟩ | ⟨x, hx, -, b, hbmem, hbid⟩)
        · rw [hr] at hbefore
          cases hbefore
        · exact hnew (hbid ▸ hfate.listed x hx b hbmem)

/-- An entry that was worked on and not written. -/
theorem skip (h : Beside v old new text password s₀ es e₀ k done s) {id : Uuid}
    (hdone : id ∉ done) : Beside v old new text password s₀ es e₀ k (id :: done) s := by
  obtain ⟨es', hh, hkeys, e, he, hid, hfate⟩ := h.entries
  refine ⟨h.wrote, h.takes, es', hh, hkeys, e, he, hid, ?_⟩
  by_cases hsame : id = e₀.id
  · rw [hsame] at hdone ⊢
    exact hfate.skip hdone
  · exact hfate.congr (by rw [List.mem_cons, or_iff_right (Ne.symm hsame)])

/-- **The write of an entry** that was listed. -/
theorem writes (hb : s₀.store.Holds es) (ht : ∀ t, m.shows t → s₀.store.Takes t)
    (he₀ : e₀ ∈ es) {w : Entry} (hw : Workable e₀ (es.map (·.id)) s w)
    (hdone : w.id ∉ done) {got : String} (hu : v.lock.unlock w.locked old = .ok got) {head : Bytes}
    (hfits : v.lock.Fits got new head) {now : Instant} (hnow : m.shows now)
    {x : Except StoreError Unit}
    (hx : logged (beside m v e₀.token text password) (.store (relocking v w got new head now)) s x
      s') (h : Beside v old new text password s₀ es e₀ k done s) :
    Beside v old new text password s₀ es e₀ k (w.id :: done) s' := by
  obtain ⟨⟨t, hm, hanswer, hwrote⟩, hlog⟩ := hx
  have hmean := h.meanwhile hb ht he₀ hm
  rcases hanswer with ⟨hx, hs'⟩ | ⟨-, ⟨error, rfl⟩, hs'⟩
  · obtain ⟨es', hh, hkeys, e, he, hid, hfate⟩ := hmean.entries
    obtain ⟨w', hw', hwid⟩ := List.mem_map.1 (map_id_of_key hkeys ▸ hw.1)
    obtain ⟨hok, hh'⟩ := hh.relocked
      { w with locked := v.lock.lock got new head, updated := now } hw' hwid
      (by rw [hmean.takes]; exact ht now hnow)
    obtain rfl : x = .ok () := hx.trans hok
    let f := relockAt w.id (v.lock.lock got new head) (t.scene.store.keep now)
    have hstore : s'.state.scene.store
        = (t.scene.store.answer (relocking v w got new head now)).2 := congrArg Scene.store hs'
    refine ⟨hwrote ▸ hmean.wrote, ?_, es'.map f, ?_, (map_key_relockAt ..).trans hkeys, f e,
      List.mem_map_of_mem he, (congrArg Prod.fst (key_relockAt ..)).trans hid, ?_⟩
    · rw [hstore, Backing.takes_answer]
      exact hmean.takes
    · rw [hstore]
      exact hh'
    by_cases hsame : w.id = e₀.id
    · rw [hsame] at hdone ⊢
      have hlasts : Workable e₀ (es.map (·.id)) ⟨t, s.log⟩ w := by
        exact hw.lasts hm.wrote_eq (.inl rfl)
      refine hfate.write hdone hlasts hsame ⟨got, head, hfits, hu, ?_⟩ hlog rfl hwrote rfl hsame
      simp only [f, relockAt, if_pos (hid.trans hsame.symm)]
    · have hfe : f e = e := if_neg fun heq => hsame (heq.symm.trans hid)
      rw [hfe]
      refine (hfate.push (Nat.le_refl k) hlog rfl hwrote (fun a ha => ?_) hsame).congr ?_
      · cases ha
      · rw [List.mem_cons, or_iff_right (Ne.symm hsame)]
  · exact (hmean.push (Nat.le_refl k) (congrArg Scene.store hs') hlog rfl hwrote
      (fun a ha => absurd ha List.not_mem_nil) not_false).skip hdone

end Beside

/-- An exchange keeps the form in which an entry may be worked on. -/
theorem workable_lasts {ids : List Uuid} {r : Request} {x : r.Reply} {e : Entry}
    (hx : logged (beside m v e₀.token text password) r s x s')
    (h : Workable e₀ ids s e) : Workable e₀ ids s' e := by
  obtain ⟨⟨t, hm, -, hwrote⟩, hlog⟩ := hx
  exact h.lasts (fun hr => hwrote.trans (hm.wrote_eq hr)) (.inr ⟨_, hlog, rfl⟩)

/-- **The work on an entry** that was listed. -/
theorem Beside.work (hb : s₀.store.Holds es) (ht : ∀ t, m.shows t → s₀.store.Takes t)
    (he₀ : e₀ ∈ es) {w : Entry} (hw : Workable e₀ (es.map (·.id)) s w)
    (hdone : w.id ∉ done) {r : Except VaultError Bool}
    (hrun : (relockEntry v old new w).Ends (logged (beside m v e₀.token text password)) s r s')
    (h : Beside v old new text password s₀ es e₀ k done s) :
    Beside v old new text password s₀ es e₀ k (w.id :: done) s' := by
  rcases relockEntry_asks hrun with ⟨error, -, -, rfl⟩ | ⟨error, head, -, hrandom, -⟩ |
    ⟨got, head, now, hu, hfault, t, u, hrandom, hclock, hcall⟩
  · exact h.skip hdone
  · exact (h.reads hb ht he₀ rfl (by nofun) hrandom).skip hdone
  · have hw' := workable_lasts hclock (workable_lasts hrandom hw)
    have hread := (h.reads hb ht he₀ rfl (by nofun) hrandom).reads hb ht he₀ rfl (by nofun) hclock
    obtain ⟨⟨_, -, ⟨hl, -⟩, -⟩, -⟩ := hrandom
    obtain ⟨⟨_, -, ⟨hnow, -⟩, -⟩, -⟩ := hclock
    rcases hcall with ⟨hcall, -⟩ | ⟨error, hcall, -⟩ <;>
      exact hread.writes hb ht he₀ hw' hdone hu ⟨hl, hfault⟩ hnow hcall

/-- **The sweep of a rotation** with an update beside it. -/
theorem sweep_beside (hb : s₀.store.Holds es) (ht : ∀ t, m.shows t → s₀.store.Takes t)
    (he₀ : e₀ ∈ es) :
    Sweep (logged (beside m v e₀.token text password))
      (fun s => s.state.scene.caller.raised = true) (relockEntry v old new) (es.map (·.id))
      (Beside v old new text password s₀ es e₀)
      (Workable e₀ (es.map (·.id))) where
  watched := by
    refine ⟨fun r s x s' ⟨⟨t, hm, hanswer, _⟩, _⟩ hr => ?_,
      fun s c s' ⟨⟨t, _, hanswer, _⟩, _⟩ => ?_⟩
    · refine (Manner.answers_onward hanswer).1 ?_
      rcases hm with rfl | ⟨-, -, hcaller, -⟩
      · exact hr
      · rwa [hcaller]
    · exact m.watched.tells _ _ _ hanswer
  apart := hb.ids
  lasts := workable_lasts
  reads hr hq hx h := h.reads hb ht he₀ hr hq hx
  refused hx h := h.refused hb ht he₀ hx
  lists hx hd h := h.lists hb ht he₀ hx hd
  work hw hd hrun h := h.work hb ht he₀ hw hd hrun

/-- Before the rotation nothing has happened. -/
theorem beside_start (hb : s₀.store.Holds es) (he₀ : e₀ ∈ es) :
    Beside v old new text password s₀ es e₀ 0 [] ⟨⟨s₀, none⟩, []⟩ where
  wrote := nofun
  takes := rfl
  entries := by
    refine ⟨es, hb, rfl, e₀, he₀, rfl, fun x hx => absurd hx List.not_mem_nil,
      fun _ => ⟨fun x hx => absurd hx List.not_mem_nil, fun _ => rfl⟩, ?_, nofun, nofun⟩
    rintro - ⟨x, hx, -⟩
    cases hx

/-- What an entry opens to that holds what the update wrote, as it wrote it or moved: the text, or
else what the old password finds in a text that was not locked under it. -/
theorem Stays.opens {blob : String} (hblob : v.lock.unlock blob password = .ok text) {e : Entry}
    (h : Stays v old new blob e) :
    v.lock.unlock e.locked password = .ok text ∨
      (password = old ∧ v.lock.unlock e.locked new = .ok text) ∨
      (password ≠ old ∧ ∃ found, v.lock.unlock blob old = .ok found ∧
        v.lock.unlock e.locked new = .ok found) := by
  rcases h with rfl | ⟨found, head, hfits, hu, hlocked⟩
  · exact .inl hblob
  · have hnew : v.lock.unlock e.locked new = .ok found := by
      rw [hlocked]
      exact Lock.unlock_lock hfits
    by_cases hsame : password = old
    · -- locked under the old password, the text is the one that the rotation has found
      subst hsame
      obtain rfl := Except.ok.inj (hblob.symm.trans hu)
      exact .inr (.inl ⟨rfl, hnew⟩)
    · exact .inr (.inr ⟨hsame, found, hu, hnew⟩)

end

/-! ### A secret beside a rotation -/

section

variable (v : Vault)

/-- A text locked with a head of zeros. -/
def lockedText (text password : String) : String :=
  v.lock.lock text password (List.replicate v.lock.headLength 0)

theorem unlock_lockedText {text password : String} (h : v.lock.lockFault? text password = none) :
    v.lock.unlock (lockedText v text password) password = .ok text :=
  Lock.unlock_lock ⟨List.length_replicate, h⟩

/-- A secret with a locked text. -/
def lostEntry (locked : String) : Entry where
  id := .ofNat 0
  token := "token"
  locked := locked
  created := default
  updated := default
  expires := none
  hidden := none

/-- The scene after the secret has been rewritten with some locked texts, the latest first. -/
def lostScene (first : String) (written : List String) : Scene where
  store := .indexed ⟨[lostEntry (written.headD first)], [("token", .ofNat 0)]⟩
  written := written.map lostEntry

theorem holds_lostScene (first : String) (written : List String) :
    (lostScene first written).store.Holds [lostEntry (written.headD first)] :=
  ⟨⟨List.pairwise_singleton _ _, List.nodup_singleton _, List.nodup_singleton _, fun token id => by
    simp [lostEntry, eq_comm]⟩, rfl⟩

/-- The update of the other client. -/
theorem update_lostScene (first : String) (hafter : v.lock.lockFault? "after" "new" = none) :
    (v.update "token" "after" "new").Ends (Manner.calm fun _ => True).answers
      (lostScene first []) (.ok ()) (lostScene first [lockedText v "after" "new"]) := by
  refine Vault.requireToken_pass (by decide) (Vault.requirePassword_pass (by decide) ?_)
  refine ⟨.idle, lostScene first [], ⟨.inl rfl, rfl⟩, ?_⟩
  refine ⟨.ok (some (lostEntry first)), lostScene first [], .inl ⟨rfl, rfl⟩, ?_⟩
  refine Vault.ends_lockText_bind.2 ⟨List.replicate _ 0, lostScene first [],
    ⟨List.length_replicate, rfl⟩, ?_⟩
  rw [hafter]
  refine ⟨default, lostScene first [], ⟨trivial, rfl⟩, ?_⟩
  exact ⟨.ok (), lostScene first [lockedText v "after" "new"], .inl ⟨rfl, rfl⟩, rfl, rfl⟩

/-- The rotation lists the secret.  The update runs before the random bytes of the write, which
brings back what was listed. -/
theorem rotate_lostScene (hplan : plan v.settings.rotation 1 = ⟨1, .sequential, false⟩)
    (hfirst : v.lock.lockFault? "before" "old" = none)
    (hafter : v.lock.lockFault? "after" "new" = none)
    (hback : v.lock.lockFault? "before" "new" = none) :
    (v.rotate "old" "new").Ends (beside (.calm fun _ => True) v "token" "after" "new")
      ⟨lostScene (lockedText v "before" "old") [], none⟩ (.ok 1)
      ⟨lostScene (lockedText v "before" "old")
        [lockedText v "before" "new", lockedText v "after" "new"],
        some (lockedText v "after" "new")⟩ := by
  let first := lockedText v "before" "old"
  let after := lockedText v "after" "new"
  let back := lockedText v "before" "new"
  have hwork : (relockEntry v "old" "new" (lostEntry first)).Ends
      (beside (.calm fun _ => True) v "token" "after" "new") ⟨lostScene first [], none⟩ (.ok true)
      ⟨lostScene first [back, after], some after⟩ :=
    relockEntry_pass (unlock_lockedText v hfirst) hback
      ⟨⟨lostScene first [after], some after⟩, meanwhile_of rfl (update_lostScene v first hafter),
        ⟨List.length_replicate, rfl⟩, rfl⟩
      (beside_of (r := .now) (x := default) ⟨trivial, rfl⟩) (beside_of (.inl ⟨rfl, rfl⟩))
  refine Vault.requirePassword_pass (by decide) (Vault.requirePassword_pass (by decide) ?_)
  refine Job.ends_checkpoint_bind.2 ⟨.idle, ⟨lostScene first [], none⟩,
    beside_of ⟨.inl rfl, rfl⟩, ?_⟩
  refine Job.ends_call_bind.2 ⟨.ok 1, ⟨lostScene first [], none⟩, beside_of (.inl ⟨rfl, rfl⟩), ?_⟩
  dsimp only
  rw [if_neg Nat.one_ne_zero, hplan]
  refine Job.ends_lift_bind.2 ⟨⟨1, none⟩, ⟨lostScene first [back, after], some after⟩, ?_, rfl, rfl⟩
  refine Program.ends_bind.2 ⟨.ok [lostEntry first], ⟨lostScene first [], none⟩,
    Job.ends_call.2 ⟨.ok [lostEntry first], beside_of (.inl ⟨rfl, rfl⟩), rfl⟩, ?_⟩
  refine Program.ends_bind.2 ⟨.ok true, ⟨lostScene first [back, after], some after⟩, ?_, rfl, rfl⟩
  exact Job.ends_checkpoint_bind.2 ⟨.idle, ⟨lostScene first [], none⟩,
    beside_of ⟨.inl rfl, rfl⟩, hwork⟩

/-- After the run the token leads to what was listed. -/
theorem find_lostScene (first after : String) (hback : v.lock.lockFault? "before" "new" = none)
    {e : Entry} (h : ((lostScene first [lockedText v "before" "new", after]).store.answer
      (.findToken "token")).1 = .ok (some e)) : v.lock.unlock e.locked "new" = .ok "before" := by
  obtain rfl : lostEntry (lockedText v "before" "new") = e := Option.some.inj (Except.ok.inj h)
  exact unlock_lockedText v hback

end

/-! ### What becomes of an update -/

/-- **An update beside a rotation.**  Whatever the rotation's plan, the order of its turns, the
calls that fail and the question before which the update of an entry runs, the entry holds in the
end what the update wrote, unless the update fell between the list that showed the entry and the
write of it.  What the update wrote opens to its text under its password.  The entry opens so too,
or, if that is the old password, under the new one; and if the old password, though another than
that of the update, opens what the update wrote, the entry may open under the new one to what was
found there.  Where the update fell in between, it is lost: what was listed opens under the new
password. -/
theorem update_overtaken (v : Vault) (m : Manner) (old new text password : String) {s : Scene}
    {es : List Entry} (hs : s.store.Holds es) (ht : ∀ t, m.shows t → s.store.Takes t) {e : Entry}
    (he : e ∈ es) {r : Except VaultError Nat} {s' : Logged Shared}
    (h : (v.rotate old new).Ends (logged (beside m v e.token text password)) ⟨⟨s, none⟩, []⟩ r s')
    {blob : String} (hblob : s'.state.wrote = some blob) :
    v.lock.unlock blob password = .ok text ∧
    ∃ es', s'.state.scene.store.Holds es' ∧ es'.map key = es.map key ∧
      ∃ e' ∈ es', e'.id = e.id ∧
        (¬ Overtaken e.id s'.log →
          v.lock.unlock e'.locked password = .ok text ∨
          (password = old ∧ v.lock.unlock e'.locked new = .ok text) ∨
          (password ≠ old ∧ ∃ found, v.lock.unlock blob old = .ok found ∧
            v.lock.unlock e'.locked new = .ok found)) ∧
        (Overtaken e.id s'.log → ∃ listed, v.lock.unlock e.locked old = .ok listed ∧
          v.lock.unlock e'.locked new = .ok listed) := by
  obtain ⟨k, done, hfin⟩ := (sweep_beside hs ht he).rotate (beside_start hs he) h
  obtain ⟨es', hh, hkeys, e', he', hid, hfate⟩ := hfin.entries
  have hopens := hfin.wrote blob hblob
  refine ⟨hopens, es', hh, hkeys, e', he', hid, ?_⟩
  by_cases hdone : e.id ∈ done
  · rcases hfate.settled blob hblob hdone with
      ⟨hstays, hnot⟩ | ⟨⟨listed, head, hfits, hu, hlocked⟩, hover⟩
    · exact ⟨fun _ => hstays.opens hopens, fun hover => absurd hover hnot⟩
    · exact ⟨fun hnot => absurd hover hnot, fun _ =>
        ⟨listed, hu, by rw [hlocked]; exact Lock.unlock_lock hfits⟩⟩
  · have hstays : Stays v old new blob e' := .inl (hfate.between blob hblob hdone)
    exact ⟨fun _ => hstays.opens hopens, fun hover => absurd hover.2 (hfate.fresh hdone)⟩

/-- The update of the sample beside its rotation. -/
theorem update_overtaken_lostScene : ∃ s', (Vault.usual.rotate "old" "new").Ends
      (logged (beside (.calm fun _ => True) Vault.usual "token" "after" "new"))
      ⟨⟨lostScene (lockedText Vault.usual "before" "old") [], none⟩, []⟩ (.ok 1) s' ∧
    s'.state.wrote = some (lockedText Vault.usual "after" "new") ∧
    Vault.usual.lock.unlock (lockedText Vault.usual "after" "new") "new" = .ok "after" ∧
    ∃ es', s'.state.scene.store.Holds es' ∧ ∃ e' ∈ es', e'.id = .ofNat 0 ∧
      (Overtaken (.ofNat 0) s'.log → ∃ listed,
        Vault.usual.lock.unlock e'.locked "new" = .ok listed) := by
  obtain ⟨log, hrun⟩ := (rotate_lostScene Vault.usual (by decide) (by decide) (by decide)
    (by decide)).exists_log []
  obtain ⟨hopens, es', hh, -, e', he', hid, -, hlost⟩ := update_overtaken Vault.usual
    (.calm fun _ => True) "old" "new" "after" "new" (holds_lostScene _ []) (fun _ _ => trivial)
    (List.mem_singleton_self _) hrun rfl
  exact ⟨_, hrun, rfl, hopens, es', hh, e', he', hid, fun h => (hlost h).imp fun _ h => h.2⟩

/-- **An update that is lost.**  It has gone through beside a rotation that goes through, and the
secret does not open to its text. -/
theorem update_lost : ¬ ∀ s', (Vault.usual.rotate "old" "new").Ends
    (beside (.calm fun _ => True) Vault.usual "token" "after" "new")
    ⟨lostScene (lockedText Vault.usual "before" "old") [], none⟩ (.ok 1) s' → s'.ran = true →
    ∃ e, (s'.scene.store.answer (.findToken "token")).1 = .ok (some e) ∧
      (Vault.usual.lock.unlock e.locked "new" = .ok "after" ∨
        ("new" = "old" ∧ Vault.usual.lock.unlock e.locked "new" = .ok "after")) := by
  intro h
  obtain ⟨e, hfound, hopen⟩ := h _
    (rotate_lostScene Vault.usual (by decide) (by decide) (by decide) (by decide)) rfl
  have hbefore := find_lostScene Vault.usual _ _ (by decide) hfound
  simp [hbefore] at hopen

end Rotation

end Strongbox
