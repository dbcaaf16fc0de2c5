import Strongbox.Proofs.Store.Records
import Strongbox.Proofs.Vault.Register

/-!
# Vault — calls that do all or nothing

A call on one secret writes to the store at most once, and as its last step.  So a call that fails,
wherever it does, has left the store as it was, and a call that goes through has changed the one
record that it is about.

* `Job.Atomic`: the job fails and leaves the store as it was, or its answer goes with the store
  after it.
* `Job.Steady`: whatever comes of the job, the store stays as it was.
* `Call.Changes`: what a call that goes through has made of the store.
* `perform_atomic`: every call does all or nothing, whenever calls to the store fail and whenever
  the caller cancels.
-/

namespace Strongbox

/-! ### Jobs that do all or nothing -/

namespace Job

variable {α β : Type}

/-- From a scene with the store `b`, the job fails and leaves the store as it was, or it gives an
answer, and `Q` holds of the answer and of the store after it. -/
def Atomic (m : Manner) (b : Backing) (j : Job α) (Q : α → Backing → Prop) : Prop :=
  ∀ ⦃s r s'⦄, s.store = b → j.Ends m.answers s r s' →
    match r with
    | .ok a => Q a s'.store
    | .error _ => s'.store = b

/-- From a scene with the store `b`, the job leaves the store as it was, and `P` holds of its answer
if it gives one. -/
def Steady (m : Manner) (b : Backing) (j : Job α) (P : α → Prop) : Prop :=
  Atomic m b j fun a b' => b' = b ∧ P a

variable {m : Manner} {b : Backing} {P : α → Prop} {Q : α → Backing → Prop}

theorem atomic_ofExcept {x : Except VaultError α} (h : ∀ a, x = .ok a → Q a b) :
    Atomic m b (ofExcept x) Q := by
  intro s r s' hs he
  obtain ⟨rfl, rfl⟩ := ends_ofExcept.1 he
  cases r with
  | ok a => exact hs ▸ h a rfl
  | error e => exact hs

theorem steady_pure {a : α} (h : P a) : Steady m b (pure a : Job α) P :=
  atomic_ofExcept fun _ e => ⟨rfl, Except.ok.inj e ▸ h⟩

theorem atomic_throw {e : VaultError} : Atomic m b (throw e : Job α) Q :=
  atomic_ofExcept fun _ => nofun

/-- **After a job that leaves the store as it was**, one that does all or nothing. -/
theorem Steady.bind {j : Job α} {f : α → Job β} {Q : β → Backing → Prop} (hj : Steady m b j P)
    (hf : ∀ a, P a → Atomic m b (f a) Q) : Atomic m b (j >>= f) Q := by
  intro s r s' hs he
  rcases ends_bind.1 he with ⟨a, t, ha, h⟩ | ⟨e, h, rfl⟩
  · obtain ⟨ht, hP⟩ := hj hs ha
    exact hf a hP ht h
  · exact hj hs h

theorem Atomic.imp {j : Job α} {Q' : α → Backing → Prop} (hj : Atomic m b j Q)
    (h : ∀ a b', Q a b' → Q' a b') : Atomic m b j Q' := by
  intro s r s' hs he
  cases r with
  | ok a => exact h a _ (hj hs he)
  | error e => exact hj hs he

/-- What becomes of the answer at the end. -/
theorem Atomic.bind_pure {j : Job α} {f : α → β} {Q : β → Backing → Prop}
    (hj : Atomic m b j fun a => Q (f a)) : Atomic m b (j >>= fun a => pure (f a)) Q := by
  intro s r s' hs he
  rcases ends_bind.1 he with ⟨a, t, ha, h⟩ | ⟨e, h, rfl⟩
  · obtain ⟨rfl, rfl⟩ := ends_pure.1 h
    exact hj hs ha
  · exact hj hs h

/-- A question that is no call to the store. -/
theorem steady_reply {q : Request} {P : q.Reply → Prop}
    (h : ∀ s x s', m.answers q s x s' → s'.store = s.store ∧ P x) : Steady m b (reply q) P := by
  intro s r s' hs he
  obtain ⟨x, hx, rfl⟩ := ends_reply.1 he
  obtain ⟨hstore, hP⟩ := h s x s' hx
  exact ⟨hstore.trans hs, hP⟩

/-- **A call to the store** that fails leaves it as it was, whether the store refuses it or it does
not reach the store. -/
theorem atomic_call {c : Store.Call} {Q : c.Answer → Backing → Prop}
    (h : ∀ a, (b.answer c).1 = .ok a → Q a (b.answer c).2) : Atomic m b (call c) Q := by
  rintro s r s' rfl he
  obtain ⟨x, hx | ⟨-, ⟨e, rfl⟩, rfl⟩, rfl⟩ := ends_call.1 he
  · -- a call that reaches the store and is refused there changes nothing either
    obtain ⟨rfl, rfl⟩ := hx
    cases ha : (s.store.answer c).1 with
    | ok a => exact h a ha
    | error e => exact Backing.answer_error ha
  · rfl

theorem steady_checkpoint {n : Nat} : Steady m b (checkpoint n) fun _ => True := by
  refine Steady.bind (P := fun _ => True) (steady_reply ?_) fun c _ => ?_
  · rintro s c _ ⟨-, rfl⟩
    exact ⟨rfl, trivial⟩
  · exact atomic_ofExcept fun _ _ => ⟨rfl, trivial⟩

theorem steady_now : Steady m b (reply .now) m.shows :=
  steady_reply fun _ _ _ ⟨hshows, hs⟩ => ⟨congrArg Scene.store hs, hshows⟩

end Job

/-! ### One record changed -/

namespace Backing

/-- The second store has one record more, which is made of the entry. -/
def Gains (b : Backing) (e : Entry) (b' : Backing) : Prop :=
  ∃ front back, b.records = front ++ back ∧ b'.records = front ++ b.record e :: back

/-- The second store has one record less, which had the token. -/
def Loses (b : Backing) (token : String) (b' : Backing) : Prop :=
  ∃ front x back, b.records = front ++ x :: back ∧ x.token? = some token ∧
    b'.records = front ++ back

/-- In the second store one record is rewritten, which has the token: some fields are those of an
entry made from the one that the record read as. -/
def Rewrites (b : Backing) (token : String) (make : Entry → Entry) (fields : List Field)
    (b' : Backing) : Prop :=
  ∃ front x back e, b.records = front ++ x :: back ∧ x.token? = some token ∧ x.read = .ok e ∧
    b'.records = front ++ x.setFields (make e) fields :: back

variable {b : Backing} {token : String} {e : Entry}

/-- An update by the id of what a record reads as, if it is carried out, rewrites the record. -/
theorem Has.rewrites (hb : b.Apart) (he : b.Has token e) {make : Entry → Entry}
    {fields : List Field} (hid : (make e).id = e.id) (hne : fields ≠ [])
    (ha : (b.answer (.update (make e) fields)).1 = .ok ()) :
    b.Rewrites token make fields (b.answer (.update (make e) fields)).2 := by
  obtain ⟨x, hx, ht, hread⟩ := he
  obtain ⟨front, back, hr⟩ := List.append_of_mem hx
  have hidx : x.id? = some (make e).id := by rw [hid, Store.Record.id?_of_read hread]
  have hat := hb.update_reaches hx hidx hne ha
  refine ⟨front, x, back, e, hr, ht, hread, ?_⟩
  rw [records_update, hb.map_rewrite hr hidx, Store.Record.rewrite_of_isAt hat]

/-- An erasure by the id of what a record reads as, if it is carried out, takes out the record. -/
theorem Has.loses (hb : b.Apart) (he : b.Has token e) (ha : (b.answer (.erase e.id)).1 = .ok ()) :
    b.Loses token (b.answer (.erase e.id)).2 := by
  obtain ⟨x, hx, ht, hread⟩ := he
  obtain ⟨front, back, hr⟩ := List.append_of_mem hx
  have hat := hb.erase_reaches hx (Store.Record.id?_of_read hread) ha
  exact ⟨front, x, back, hr, ht, (records_erase ha).trans (hb.filter_at hr hat)⟩

end Backing

namespace Vault

/-- What a call that goes through has made of the store: nothing, one record more, one less, or one
rewritten in the fields that the call is about and in the time of the last update. -/
def Call.Changes (v : Vault) (shows : Instant → Prop) :
    (c : Call) → c.Answer → (b b' : Backing) → Prop
  | .create text password _ expires, token, b, b'
  | .createDefault text password expires, token, b, b'
  | .createCustom token text password expires, (), b, b' =>
    ∃ (head : Bytes) (now : Instant) (id : Uuid), v.lock.Fits text password head ∧ shows now ∧
      b.Gains (.fresh id token (v.lock.lock text password head) expires now) b'
  | .read _ _, _, b, b' | .inspect _, _, b, b' => b' = b
  | .update token text password, _, b, b' =>
    ∃ (head : Bytes) (now : Instant), v.lock.Fits text password head ∧ shows now ∧
      b.Rewrites token
        (fun e => { e with locked := v.lock.lock text password head, updated := now })
        [.locked, .updated] b'
  | .delete token, _, b, b' => b.Loses token b'
  | .hide token, _, b, b' =>
    ∃ now, shows now ∧
      b.Rewrites token (fun e => { e with hidden := some now, updated := now }) [.hidden, .updated]
        b'
  | .restore token, _, b, b' =>
    ∃ now, shows now ∧
      b.Rewrites token (fun e => { e with hidden := none, updated := now }) [.hidden, .updated] b'
  | .renew token expires, _, b, b' =>
    ∃ now, shows now ∧
      b.Rewrites token (fun e => { e with expires, updated := now }) [.expires, .updated] b'

section

open Job (Atomic Steady)

variable {m : Manner} {v : Vault} {b : Backing} {token text password : String}
  {expires : Option Instant} {e : Entry}

/-! ### First steps -/

theorem steady_requireToken : Steady m b (requireToken token) fun _ => True :=
  Job.atomic_ofExcept fun _ _ => ⟨rfl, trivial⟩

theorem steady_requirePassword : Steady m b (requirePassword password) fun _ => True :=
  Job.atomic_ofExcept fun _ _ => ⟨rfl, trivial⟩

theorem steady_findToken (hb : b.Apart) (token : String) :
    Steady m b (Job.call (.findToken token)) fun found => ∀ e ∈ found, b.Has token e := by
  refine Job.atomic_call fun found ha => ?_
  rw [Backing.answer_findToken hb] at ha ⊢
  refine ⟨rfl, fun e he => Backing.has_of_lookUp ?_⟩
  have hfound : b.lookUp token = .ok found := ha
  rw [hfound, Option.mem_def.1 he]

theorem steady_anyEntry (hb : b.Apart) : Steady m b (anyEntry token) (b.Has token) := by
  refine (steady_findToken hb token).bind fun found hfound => ?_
  cases found with
  | none => exact Job.atomic_throw
  | some e => exact Job.steady_pure (hfound e rfl)

theorem steady_activeEntry (hb : b.Apart) : Steady m b (activeEntry token) (b.Has token) := by
  refine (steady_findToken hb token).bind fun found hfound => ?_
  cases found with
  | none => exact Job.atomic_throw
  | some e =>
      by_cases he : e.isHidden = true
      · simp only [he, if_true]
        exact Job.atomic_throw
      · simp only [he]
        exact Job.steady_pure (hfound e rfl)

theorem steady_lockText :
    Steady m b (v.lockText text password) fun locked =>
      ∃ head : Bytes, v.lock.Fits text password head ∧
        locked = v.lock.lock text password head := by
  have hrandom : Steady m b (Job.reply (.random v.lock.headLength)) fun head : Bytes =>
      head.length = v.lock.headLength :=
    Job.steady_reply fun _ _ _ ⟨hl, hs⟩ => ⟨congrArg Scene.store hs, hl⟩
  refine hrandom.bind fun head hl => Job.atomic_ofExcept fun locked h => ⟨rfl, head, ?_⟩
  obtain ⟨hfault, hlocked⟩ := Lock.tryLock_eq_ok_iff.1 (Job.eq_ok_of_mapError h)
  exact ⟨⟨hl, hfault⟩, hlocked⟩

theorem steady_freeToken (hb : b.Apart) (length left : Nat) :
    Steady m b (v.freeToken length left) fun _ => True := by
  induction left with
  | zero => exact Job.atomic_throw
  | succ left ih =>
      refine Steady.bind (Job.steady_reply (P := fun _ => True) ?_) fun candidate _ => ?_
      · rintro s candidate _ ⟨-, rfl⟩
        exact ⟨rfl, trivial⟩
      refine Steady.bind (P := fun _ => True) (Job.atomic_ofExcept fun _ _ => ⟨rfl, trivial⟩)
        fun token _ => ?_
      refine (steady_findToken hb token).bind fun found _ => ?_
      cases found with
      | none => exact Job.steady_pure trivial
      | some e => exact ih

/-! ### The write -/

/-- A new entry put into the store is one record more. -/
theorem atomic_store :
    Atomic m b (v.store token text password expires) fun _ b' =>
      ∃ (head : Bytes) (now : Instant) (id : Uuid), v.lock.Fits text password head ∧ m.shows now ∧
        b.Gains (.fresh id token (v.lock.lock text password head) expires now) b' := by
  refine steady_lockText.bind fun locked ⟨head, hl, hlocked⟩ => ?_
  refine Job.steady_now.bind fun now hnow => ?_
  refine Steady.bind (Job.steady_reply (P := fun _ => True) ?_) fun id _ => ?_
  · rintro s id _ ⟨-, rfl⟩
    exact ⟨rfl, trivial⟩
  refine Job.atomic_call fun _ ha => ⟨head, now, id, hl, hnow, ?_⟩
  rw [← hlocked]
  exact Backing.records_create ha

/-- Some fields of an entry that was found are written. -/
theorem atomic_write (hb : b.Apart) (he : b.Has token e) (make : Instant → Entry → Entry)
    {fields : List Field} (hid : ∀ now, (make now e).id = e.id) (hne : fields ≠ []) :
    Atomic m b (do let now ← Job.reply .now; Job.call (.update (make now e) fields))
      fun _ b' => ∃ now, m.shows now ∧ b.Rewrites token (make now) fields b' :=
  Job.steady_now.bind fun now hnow => Job.atomic_call fun _ ha =>
    ⟨now, hnow, he.rewrites hb (hid now) hne ha⟩

/-! ### The calls -/

theorem atomic_create (hb : b.Apart) {length : Nat} :
    Atomic m b (v.create text password length expires)
      fun token => (Call.create text password length expires).Changes v m.shows token b :=
  steady_requirePassword.bind fun _ _ => Job.steady_checkpoint.bind fun _ _ =>
    (steady_freeToken hb _ _).bind fun _ _ => atomic_store.bind_pure

theorem atomic_createCustom (hb : b.Apart) :
    Atomic m b (v.createCustom token text password expires)
      fun a => (Call.createCustom token text password expires).Changes v m.shows a b := by
  refine steady_requireToken.bind fun _ _ => steady_requirePassword.bind fun _ _ =>
    Job.steady_checkpoint.bind fun _ _ => (steady_findToken hb token).bind fun found _ => ?_
  cases found with
  | none => exact atomic_store
  | some e => exact Job.atomic_throw

theorem steady_read (hb : b.Apart) : Steady m b (v.read token password) fun _ => True := by
  refine steady_requireToken.bind fun _ _ => steady_requirePassword.bind fun _ _ =>
    Job.steady_checkpoint.bind fun _ _ => (steady_activeEntry hb).bind fun e _ =>
    Job.steady_now.bind fun now _ => ?_
  cases e.expires with
  | none => exact Job.atomic_ofExcept fun _ _ => ⟨rfl, trivial⟩
  | some moment =>
      by_cases hm : moment < now
      · simp only [hm, if_true]
        exact Job.atomic_throw
      · simp only [hm, if_false]
        exact Job.atomic_ofExcept fun _ _ => ⟨rfl, trivial⟩

theorem atomic_update (hb : b.Apart) :
    Atomic m b (v.update token text password)
      fun a => (Call.update token text password).Changes v m.shows a b := by
  refine steady_requireToken.bind fun _ _ => steady_requirePassword.bind fun _ _ =>
    Job.steady_checkpoint.bind fun _ _ => (steady_activeEntry hb).bind fun e he =>
    steady_lockText.bind fun locked hlocked => ?_
  obtain ⟨head, hl, rfl⟩ := hlocked
  let make (now : Instant) (e : Entry) : Entry :=
    { e with locked := v.lock.lock text password head, updated := now }
  exact (atomic_write hb he make (fun _ => rfl) (List.cons_ne_nil _ _)).imp
    fun _ _ ⟨now, hnow, hrewrites⟩ => ⟨head, now, hl, hnow, hrewrites⟩

theorem atomic_delete (hb : b.Apart) :
    Atomic m b (Vault.delete token) fun a => (Call.delete token).Changes v m.shows a b :=
  steady_requireToken.bind fun _ _ => Job.steady_checkpoint.bind fun _ _ =>
    (steady_anyEntry hb).bind fun _ he => Job.atomic_call fun _ ha => he.loses hb ha

theorem atomic_hide (hb : b.Apart) :
    Atomic m b (Vault.hide token) fun a => (Call.hide token).Changes v m.shows a b :=
  steady_requireToken.bind fun _ _ => Job.steady_checkpoint.bind fun _ _ =>
    (steady_activeEntry hb).bind fun _ he =>
      atomic_write hb he (fun now e => { e with hidden := some now, updated := now })
        (fun _ => rfl) (List.cons_ne_nil _ _)

theorem atomic_restore (hb : b.Apart) :
    Atomic m b (Vault.restore token) fun a => (Call.restore token).Changes v m.shows a b := by
  refine steady_requireToken.bind fun _ _ => Job.steady_checkpoint.bind fun _ _ =>
    (steady_anyEntry hb).bind fun e he => ?_
  by_cases hh : e.isHidden = true
  · simp only [hh, if_true]
    exact atomic_write hb he (fun now e => { e with hidden := none, updated := now })
      (fun _ => rfl) (List.cons_ne_nil _ _)
  · simp only [hh]
    exact Job.atomic_throw

theorem atomic_renew (hb : b.Apart) :
    Atomic m b (Vault.renew token expires)
      fun a => (Call.renew token expires).Changes v m.shows a b :=
  steady_requireToken.bind fun _ _ => Job.steady_checkpoint.bind fun _ _ =>
    (steady_activeEntry hb).bind fun _ he =>
      atomic_write hb he (fun now e => { e with expires, updated := now })
        (fun _ => rfl) (List.cons_ne_nil _ _)

theorem steady_inspect (hb : b.Apart) : Steady m b (Vault.inspect token) fun _ => True :=
  steady_requireToken.bind fun _ _ => Job.steady_checkpoint.bind fun _ _ =>
    (steady_anyEntry hb).bind fun _ _ => Job.steady_pure trivial

/-- Every call does all or nothing, from a store whose records are apart. -/
theorem atomic_perform (hb : b.Apart) (c : Call) :
    Atomic m b (v.perform c) fun a => c.Changes v m.shows a b := by
  cases c with
  | create text password length expires => exact atomic_create hb
  | createDefault text password expires => exact atomic_create hb
  | createCustom token text password expires => exact atomic_createCustom hb
  | read token password => exact (steady_read hb).imp fun _ _ h => h.1
  | update token text password => exact atomic_update hb
  | delete token => exact atomic_delete hb
  | hide token => exact atomic_hide hb
  | restore token => exact atomic_restore hb
  | renew token expires => exact atomic_renew hb
  | inspect token => exact (steady_inspect hb).imp fun _ _ h => h.1

end

/-! ### All or nothing -/

/-- A store stays of its kind, whatever is done. -/
theorem sameKind_of_ends {α : Type} {m : Manner} {j : Job α} {s s' : Scene}
    {r : Except VaultError α} (hs : s.store.Apart) (h : j.Ends m.answers s r s') :
    s.store.SameKind s'.store := by
  refine Program.Ends.keeps (I := fun t => s.store.SameKind t.store) ?_ h hs.sameKind
  intro q t x t' hx ht
  rcases Manner.answers_store hx with heq | ⟨c, heq⟩
  · rwa [heq]
  · rw [heq]
    exact ht.answer c

/-- **A call on one secret does all or nothing.**  Whatever the store is, indexed or a table, as
long as its records are apart; whatever tokens and ids are drawn, if any; whichever calls to the
store fail, and whenever the caller cancels: if the call fails, the store is what it was, and if it
goes through, the store differs by what the call is for.  Reading and telling leave it as it was.  A
creation adds one record, which has the token of the answer or the one given.  Every other call
takes out or rewrites the one record with the token given, and rewrites nothing but the fields that
it is about and the time of the last update. -/
theorem perform_atomic (v : Vault) (m : Manner) (c : Call) {s s' : Scene}
    {r : Except VaultError c.Answer} (hs : s.store.Apart)
    (h : (v.perform c).Ends m.answers s r s') :
    s.store.SameKind s'.store ∧ (∀ error, r = .error error → s'.store = s.store) ∧
      ∀ a, r = .ok a → c.Changes v m.shows a s.store s'.store := by
  refine ⟨sameKind_of_ends hs h, ?_, ?_⟩
  · rintro error rfl
    exact atomic_perform hs c rfl h
  · rintro a rfl
    exact atomic_perform hs c rfl h

/-- An active entry. -/
def hideSample : Entry :=
  Entry.fresh (.ofNat 0) "token" "locked" none default

/-- A scene whose store holds the entry. -/
def hideScene : Scene :=
  { store := .indexed ⟨[hideSample], [("token", .ofNat 0)]⟩ }

theorem apart_hideScene : hideScene.store.Apart where
  ascending := List.pairwise_singleton _ _
  tokens := by decide
  keys := by decide
  index token id := by simp [hideSample, Entry.fresh, eq_comm]

/-- Rough surroundings, whose clock may show anything. -/
abbrev hideManner : Manner :=
  Manner.rough fun _ => True

/-- The entry is hidden, where nothing happens to go wrong. -/
theorem hide_goes_through :
    ∃ s', (usual.perform (.hide "token")).Ends hideManner.answers hideScene (.ok ()) s' := by
  let e : Entry := { hideSample with hidden := some default, updated := default }
  refine ⟨⟨.indexed ⟨[e], [("token", .ofNat 0)]⟩, .idle, [e]⟩, ?_⟩
  refine Exists.intro _ ⟨_, ⟨.inl rfl, rfl⟩, ?_⟩
  refine Exists.intro _ ⟨_, .inl ⟨rfl, rfl⟩, ?_⟩
  refine Exists.intro (default : Instant) ⟨_, ⟨trivial, rfl⟩, ?_⟩
  exact Exists.intro _ ⟨_, .inl ⟨rfl, rfl⟩, rfl, rfl⟩

/-- The update may fail too, after the entry was found. -/
theorem hide_fails :
    (usual.perform (.hide "token")).Ends hideManner.answers hideScene (.error (.store .io))
      hideScene := by
  refine Exists.intro _ ⟨_, ⟨.inl rfl, rfl⟩, ?_⟩
  refine Exists.intro _ ⟨_, .inl ⟨rfl, rfl⟩, ?_⟩
  refine Exists.intro (default : Instant) ⟨_, ⟨trivial, rfl⟩, ?_⟩
  exact Exists.intro (.error .io) ⟨_, .inr ⟨trivial, ⟨_, rfl⟩, rfl⟩, rfl, rfl⟩

/-- One of the two runs has changed the entry, and the other nothing. -/
theorem perform_atomic_hideScene :
    (∃ s', (usual.perform (.hide "token")).Ends hideManner.answers hideScene (.ok ()) s' ∧
        (Call.hide "token").Changes usual (fun _ => True) () hideScene.store s'.store) ∧
      ∃ s', (usual.perform (.hide "token")).Ends hideManner.answers hideScene
          (.error (.store .io)) s' ∧ s'.store = hideScene.store := by
  obtain ⟨s', h⟩ := hide_goes_through
  obtain ⟨-, -, hchanges⟩ := perform_atomic usual hideManner (.hide "token") apart_hideScene h
  obtain ⟨-, hsame, -⟩ :=
    perform_atomic usual hideManner (.hide "token") apart_hideScene hide_fails
  exact ⟨⟨s', h, hchanges () rfl⟩, hideScene, hide_fails, hsame _ rfl⟩

end Vault

end Strongbox
