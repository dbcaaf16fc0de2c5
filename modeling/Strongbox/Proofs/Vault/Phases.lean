import Strongbox.Proofs.Vault.Register

/-!
# Vault — the phases of a call

A call on one secret looks its token up, and then writes to the store once: it puts a new entry
there, or rewrites or takes out the entry that it has found, by the id.  Between the two it asks for
random bytes, the time and an id.  Whatever becomes of the store meanwhile, the call keeps to this
course.

* `Phase`: how far a call has come, told from the questions it has asked and their replies.
* `Call.owns`, `Call.Sets`: the fields that a call is for, and what it writes there.
* `Call.Asks`: the questions that a call may put in a phase.
* `Program.Obeys`: the program keeps to the course of a call, whatever the replies.
* `perform_obeys`: the calls that change one secret do.
-/

namespace Strongbox

/-! ### Fields -/

/-- The two entries have the same in a field. -/
def Entry.Agrees (a b : Entry) : Field → Prop
  | .locked => a.locked = b.locked
  | .updated => a.updated = b.updated
  | .expires => a.expires = b.expires
  | .hidden => a.hidden = b.hidden

namespace Entry

variable {e source a b c : Entry} {f g : Field} {fields : List Field}

theorem Agrees.refl (e : Entry) (f : Field) : e.Agrees e f := by
  cases f <;> exact rfl

theorem Agrees.trans (h : a.Agrees b f) (h' : b.Agrees c f) : a.Agrees c f := by
  cases f <;> exact Eq.trans h h'

theorem agrees_setField_self (e source : Entry) (f : Field) :
    (e.setField source f).Agrees source f := by
  cases f <;> exact rfl

theorem agrees_setField_of_ne (h : f ≠ g) : (e.setField source g).Agrees e f := by
  cases f <;> cases g <;> first | exact absurd rfl h | exact rfl

/-- A field that is not taken from the other entry stays. -/
theorem agrees_setFields_of_notMem (h : f ∉ fields) : (e.setFields source fields).Agrees e f := by
  induction fields generalizing e with
  | nil => exact .refl e f
  | cons g fields ih =>
      obtain ⟨hg, hrest⟩ := List.ne_and_not_mem_of_not_mem_cons h
      exact (ih hrest).trans (agrees_setField_of_ne hg)

/-- A field that is taken from the other entry is that of the other one. -/
theorem agrees_setFields_of_mem (h : f ∈ fields) :
    (e.setFields source fields).Agrees source f := by
  induction fields generalizing e with
  | nil => cases h
  | cons g fields ih =>
      by_cases hrest : f ∈ fields
      · exact ih hrest
      · obtain rfl := (List.mem_cons.1 h).resolve_right hrest
        exact (agrees_setFields_of_notMem hrest).trans (agrees_setField_self e source f)

end Entry

/-! ### Phases -/

/-- How far a call has come. -/
inductive Phase where
  /-- Nothing was found yet. -/
  | looking
  /-- No entry has the token. -/
  | clear
  /-- There is an id for a new entry. -/
  | ready (id : Uuid)
  /-- An entry with the token was found. -/
  | found (e : Entry)
  /-- The store has answered the write. -/
  | ended (answer : Except StoreError Unit)

namespace Phase

/-- The phase after a question and its reply. -/
def advance : Phase → (r : Request) → r.Reply → Phase
  | looking, .store (.findToken _), .ok (some e) => found e
  | looking, .store (.findToken _), .ok none => clear
  | clear, .freshId, id => ready id
  | ready _, .store (.create _), x => ended x
  | found _, .store (.update _ _), x => ended x
  | found _, .store (.erase _), x => ended x
  | p, _, _ => p

/-- The store has answered the write. -/
def isEnded : Phase → Bool
  | ended _ => true
  | _ => false

/-- How a call may end in a phase: a call that goes through has written, and one that the store
refuses fails by that. -/
def Ends {α : Type} : Phase → Except VaultError α → Prop
  | ended (.ok ()), r => ∃ a, r = .ok a
  | ended (.error error), r => r = .error (.store error)
  | _, r => ∃ error, r = .error error

end Phase

/-- The reply is one that the question may get: random bytes come in the number asked for. -/
def Request.Fair : (r : Request) → r.Reply → Prop
  | .random n, x => x.length = n
  | _, _ => True

/-! ### The course of a call -/

namespace Vault.Call

/-- The calls that change the secret with a token or create it. -/
def Changing (token : String) : Call → Prop
  | createCustom t _ _ _ | update t _ _ | delete t | hide t | restore t | renew t _ => t = token
  | create _ _ _ _ | createDefault _ _ _ | read _ _ | inspect _ => False

/-- The call is for the field. -/
def owns : Call → Field → Bool
  | createCustom _ _ _ _, _ | update _ _ _, .locked | renew _ _, .expires | hide _, .hidden
  | restore _, .hidden => true
  | _, _ => false

/-- The entry has in the field what the call writes there. -/
def Sets (v : Vault) : Call → Field → Entry → Prop
  | createCustom _ text password _, .locked, e | update _ text password, .locked, e =>
    v.Locks text password e.locked
  | createCustom _ _ _ expires, .expires, e | renew _ expires, .expires, e => e.expires = expires
  | createCustom _ _ _ _, .hidden, e | restore _, .hidden, e => e.hidden = none
  | hide _, .hidden, e => ∃ now, e.hidden = some now
  | _, _, _ => False

/-- The write of a call in a phase: a new entry under the id that was given out, or, by the id of
the entry that was found, an update of the fields that the call is for or an erasure. -/
def Writes (v : Vault) (c : Call) : Phase → Store.Call → Prop
  | .ready id, .create e => e.id = id ∧ ∀ f ≠ .updated, c.owns f = true ∧ c.Sets v f e
  | .found e, .update source fields => source.id = e.id ∧ ∀ f ≠ .updated,
      (c.owns f = true → f ∈ fields ∧ c.Sets v f source) ∧ (c.owns f = false → f ∉ fields)
  | .found e, .erase id => id = e.id
  | _, _ => False

/-- The questions that a call may put in a phase. -/
def Asks (v : Vault) (c : Call) (p : Phase) : Request → Prop
  | .store (.findToken token) => p = .looking ∧ c.token? = some token
  | .store w => c.Writes v p w
  | .freshId => p = .clear
  | .cancellation | .random _ | .now => p.isEnded = false
  | .token _ | .turns | .extent => False

/-- A call that is for one field writes that field of the entry that it has found. -/
theorem writes_field {v : Vault} {c : Call} {e source : Entry} {f : Field}
    (hid : source.id = e.id) (howns : c.owns = (· == f)) (hsets : c.Sets v f source) :
    c.Writes v (.found e) (.update source [f, .updated]) := by
  refine ⟨hid, fun g hg => ⟨fun hown => ?_, fun hown hmem => ?_⟩⟩
  · rw [howns, beq_iff_eq] at hown
    subst hown
    exact ⟨List.mem_cons_self, hsets⟩
  · rw [howns, beq_eq_false_iff_ne] at hown
    exact hg (List.mem_singleton.1 ((List.mem_cons.1 hmem).resolve_left hown))

variable {v : Vault} {c : Call} {p : Phase} {w : Store.Call} {r : Request}

/-- A call to the store is the lookup or the write. -/
theorem Asks.lookup_or_write (h : c.Asks v p (.store w)) :
    (∃ token, p = .looking ∧ w = .findToken token) ∨ c.Writes v p w := by
  cases w with
  | findToken token => exact .inl ⟨token, h.1, rfl⟩
  | create | update | erase | findId | list | count => exact .inr h

theorem Writes.cases (h : c.Writes v p w) :
    (∃ e, p = .ready e.id ∧ w = .create e ∧ ∀ f ≠ .updated, c.owns f = true ∧ c.Sets v f e) ∨
    (∃ e source fields, p = .found e ∧ w = .update source fields ∧ source.id = e.id ∧
      ∀ f ≠ .updated, (c.owns f = true → f ∈ fields ∧ c.Sets v f source) ∧
        (c.owns f = false → f ∉ fields)) ∨
    ∃ e, p = .found e ∧ w = .erase e.id := by
  cases p with
  | ready id =>
      cases w with
      | create e => exact .inl ⟨e, by rw [h.1], rfl, h.2⟩
      | update | erase | findId | findToken | list | count => exact h.elim
  | found e =>
      cases w with
      | update source fields => exact .inr (.inl ⟨e, source, fields, rfl, rfl, h.1, h.2⟩)
      | erase id => exact .inr (.inr ⟨e, rfl, congrArg Store.Call.erase h⟩)
      | create | findId | findToken | list | count => exact h.elim
  | looking | clear | ended => exact h.elim

/-- A call whose write was answered asks nothing more. -/
theorem not_asks_ended {answer : Except StoreError Unit} : ¬ c.Asks v (.ended answer) r := by
  cases r with
  | store w =>
      intro h
      rcases h.lookup_or_write with ⟨_, hp, _⟩ | h
      · cases hp
      · rcases h.cases with ⟨_, hp, _⟩ | ⟨_, _, _, hp, _⟩ | ⟨_, hp, _⟩ <;> cases hp
  | freshId => exact fun h => by cases h
  | cancellation | random | now => exact Bool.noConfusion
  | token | turns | extent => exact not_false

end Vault.Call

section

variable {α : Type} (v : Vault) (c : Vault.Call)

/-- The program puts the questions that the call may put, from a phase on and whatever the replies,
and ends as the call may. -/
def Program.Obeys (p : Phase) : Program (Except VaultError α) → Prop
  | done r => p.Ends r
  | ask q next => c.Asks v p q ∧ ∀ x, q.Fair x → (next x).Obeys (p.advance q x)

/-- The job keeps to the course of the call. -/
def Job.Obeys (p : Phase) (j : Job α) : Prop :=
  Program.Obeys v c p j.run

end

namespace Job

variable {α β : Type} {v : Vault} {c : Vault.Call} {p : Phase} {f : α → Job β}

theorem obeys_throw {error : VaultError} (h : p.isEnded = false) :
    (throw error : Job α).Obeys v c p := by
  cases p with
  | ended x => cases h
  | looking | clear | ready | found => exact ⟨error, rfl⟩

theorem obeys_ofExcept_bind {x : Except VaultError α} (hp : p.isEnded = false)
    (hf : ∀ a, x = .ok a → (f a).Obeys v c p) : (ofExcept x >>= f).Obeys v c p := by
  cases x with
  | ok a => exact hf a rfl
  | error error => exact obeys_throw hp

theorem obeys_reply_bind {q : Request} {f : q.Reply → Job β} (hq : c.Asks v p q)
    (hf : ∀ x, q.Fair x → (f x).Obeys v c (p.advance q x)) : (reply q >>= f).Obeys v c p :=
  ⟨hq, hf⟩

/-- The caller may cancel before anything was found. -/
theorem obeys_checkpoint_bind {n : Nat} {f : Unit → Job β} (hf : (f ()).Obeys v c .looking) :
    (checkpoint n >>= f).Obeys v c .looking := by
  refine ⟨rfl, fun x _ => ?_⟩
  exact obeys_ofExcept_bind (x := x.check n) (f := f) rfl fun _ _ => hf

/-- A lookup of the token finds an entry, or none. -/
theorem obeys_find_bind {token : String} {f : Option Entry → Job β} (hc : c.token? = some token)
    (hnone : (f none).Obeys v c .clear) (hsome : ∀ e, (f (some e)).Obeys v c (.found e)) :
    (call (.findToken token) >>= f).Obeys v c .looking := by
  refine ⟨⟨rfl, hc⟩, fun x _ => ?_⟩
  match x with
  | .ok none => exact hnone
  | .ok (some e) => exact hsome e
  | .error error => exact ⟨.store error, rfl⟩

/-- The write of a call, whose answer is that of the call. -/
theorem obeys_write {w : Store.Call} (hw : c.Writes v p w) : (call w).Obeys v c p := by
  have hends : ∀ x : Except StoreError Unit,
      (Phase.ended x).Ends (x.mapError VaultError.store) := by
    intro x
    cases x with
    | ok a => exact ⟨a, rfl⟩
    | error error => exact rfl
  rcases hw.cases with ⟨e, rfl, rfl, -⟩ | ⟨e, source, fields, rfl, rfl, -, -⟩ | ⟨e, rfl, rfl⟩ <;>
    exact ⟨hw, fun x _ => hends x⟩

/-- The write comes after the time was asked. -/
theorem obeys_now_bind {f : Instant → Job β} (hp : p.isEnded = false)
    (hf : ∀ now, (f now).Obeys v c p) : (reply .now >>= f).Obeys v c p := by
  refine obeys_reply_bind hp fun now _ => ?_
  have hstay : p.advance .now now = p := by cases p <;> rfl
  rw [hstay]
  exact hf now

/-- A text is locked, if it can be. -/
theorem obeys_lockText_bind {text password : String} {f : String → Job β} (hp : p.isEnded = false)
    (hf : ∀ locked, v.Locks text password locked → (f locked).Obeys v c p) :
    (v.lockText text password >>= f).Obeys v c p := by
  refine ⟨hp, fun head hl => ?_⟩
  have hstay : p.advance (.random v.lock.headLength) head = p := by cases p <;> rfl
  rw [hstay]
  exact obeys_ofExcept_bind (x := (v.lock.tryLock text password head).mapError .encoding) (f := f)
    hp fun locked hlock => hf locked ⟨head, hl, eq_ok_of_mapError hlock⟩

end Job

namespace Vault

open Job

variable {v : Vault} {c : Call} {token text password : String} {expires : Option Instant}

theorem obeys_requireToken_bind {β : Type} {f : Unit → Job β}
    (hf : (f ()).Obeys v c .looking) : (requireToken token >>= f).Obeys v c .looking :=
  obeys_ofExcept_bind rfl fun _ _ => hf

theorem obeys_requirePassword_bind {β : Type} {f : Unit → Job β}
    (hf : (f ()).Obeys v c .looking) : (requirePassword password >>= f).Obeys v c .looking :=
  obeys_ofExcept_bind rfl fun _ _ => hf

theorem obeys_anyEntry_bind {β : Type} {f : Entry → Job β} (hc : c.token? = some token)
    (hf : ∀ e, (f e).Obeys v c (.found e)) : (anyEntry token >>= f).Obeys v c .looking := by
  refine ⟨⟨rfl, hc⟩, fun x _ => ?_⟩
  match x with
  | .ok none => exact ⟨.notFound token, rfl⟩
  | .ok (some e) => exact hf e
  | .error error => exact ⟨.store error, rfl⟩

theorem obeys_activeEntry_bind {β : Type} {f : Entry → Job β} (hc : c.token? = some token)
    (hf : ∀ e, (f e).Obeys v c (.found e)) : (activeEntry token >>= f).Obeys v c .looking := by
  refine ⟨⟨rfl, hc⟩, fun x _ => ?_⟩
  match x with
  | .ok none => exact ⟨.notFound token, rfl⟩
  | .ok (some ⟨_, _, _, _, _, _, some _⟩) => exact ⟨.notFound token, rfl⟩
  | .ok (some ⟨id, t, locked, created, updated, ex, none⟩) =>
      exact hf ⟨id, t, locked, created, updated, ex, none⟩
  | .error error => exact ⟨.store error, rfl⟩

/-! ### The calls -/

theorem obeys_createCustom :
    (v.createCustom token text password expires).Obeys v
      (.createCustom token text password expires) .looking := by
  refine obeys_requireToken_bind (obeys_requirePassword_bind (obeys_checkpoint_bind ?_))
  refine obeys_find_bind rfl ?_ fun e => obeys_throw rfl
  refine obeys_lockText_bind rfl fun locked hl => obeys_now_bind rfl fun now => ?_
  refine obeys_reply_bind rfl fun id _ => obeys_write ⟨rfl, fun f _ => ⟨rfl, ?_⟩⟩
  cases f with
  | locked => exact hl
  | expires => exact rfl
  | hidden => exact rfl
  | updated => contradiction

theorem obeys_update :
    (v.update token text password).Obeys v (.update token text password) .looking := by
  refine obeys_requireToken_bind (obeys_requirePassword_bind (obeys_checkpoint_bind ?_))
  refine obeys_activeEntry_bind rfl fun e => ?_
  refine obeys_lockText_bind rfl fun locked hl => obeys_now_bind rfl fun now => ?_
  exact obeys_write (Call.writes_field rfl (funext fun f => by cases f <;> rfl) hl)

theorem obeys_delete : (Vault.delete token).Obeys v (.delete token) .looking := by
  refine obeys_requireToken_bind (obeys_checkpoint_bind ?_)
  exact obeys_anyEntry_bind rfl fun e => obeys_write rfl

theorem obeys_hide : (Vault.hide token).Obeys v (.hide token) .looking := by
  refine obeys_requireToken_bind (obeys_checkpoint_bind ?_)
  refine obeys_activeEntry_bind rfl fun e => obeys_now_bind rfl fun now => ?_
  exact obeys_write (Call.writes_field rfl (funext fun f => by cases f <;> rfl) ⟨now, rfl⟩)

theorem obeys_restore : (Vault.restore token).Obeys v (.restore token) .looking := by
  refine obeys_requireToken_bind (obeys_checkpoint_bind ?_)
  refine obeys_anyEntry_bind rfl fun e => ?_
  by_cases hhidden : e.isHidden = true
  · rw [if_pos hhidden]
    refine obeys_now_bind rfl fun now => ?_
    exact obeys_write (Call.writes_field rfl (funext fun f => by cases f <;> rfl) rfl)
  · rw [if_neg hhidden]
    exact obeys_throw rfl

theorem obeys_renew : (Vault.renew token expires).Obeys v (.renew token expires) .looking := by
  refine obeys_requireToken_bind (obeys_checkpoint_bind ?_)
  refine obeys_activeEntry_bind rfl fun e => obeys_now_bind rfl fun now => ?_
  exact obeys_write (Call.writes_field rfl (funext fun f => by cases f <;> rfl) rfl)

/-- **The calls that change one secret** keep to their course. -/
theorem perform_obeys (hc : c.Changing token) : (v.perform c).Obeys v c .looking := by
  cases c with
  | createCustom => exact obeys_createCustom
  | update => exact obeys_update
  | delete => exact obeys_delete
  | hide => exact obeys_hide
  | restore => exact obeys_restore
  | renew => exact obeys_renew
  | create | createDefault | read | inspect => exact hc.elim

end Vault

end Strongbox
