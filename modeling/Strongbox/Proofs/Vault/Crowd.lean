import Mathlib.Data.List.Nodup
import Mathlib.Logic.Relation
import Strongbox.Proofs.Store.Tokens
import Strongbox.Proofs.Vault.Phases

/-!
# Vault — many calls on one secret

Calls on one secret run beside one another at an indexed store, each putting its questions when it
will.  The store answers one call at a time, and new ids were never given out before.

* `Crowd`, `Crowd.Step`: the calls that run, and one question of one of them.
* `Deed`: a question that was answered, and who asked.
* `phase`: how far a call has come, told from what was asked.
* `Column`: a field of an entry holds what the last call for it has written.
* `asked`: what one question of a call does to the store.
* `Kept`, `Kept.step`: what every question leaves in order.
* `crowd_keeps`: what holds at every moment, in whatever order the questions come.
-/

namespace Strongbox

/-! ### Questions and replies -/

namespace Request

/-- The entry that the store has put in place or written from. -/
def written? : (r : Request) → r.Reply → Option Entry
  | .store (.create e), .ok _ | .store (.update e _), .ok _ => some e
  | _, _ => none

/-- The id of the entry that the store has taken out. -/
def erased? : (r : Request) → r.Reply → Option Uuid
  | .store (.erase id), .ok _ => some id
  | _, _ => none

/-- The entry that was found by its token. -/
def found? : (r : Request) → r.Reply → Option Entry
  | .store (.findToken _), .ok found => found
  | _, _ => none

/-- The id that was given out. -/
def drawn? : (r : Request) → r.Reply → Option Uuid
  | .freshId, id => some id
  | _, _ => none

end Request

namespace Phase

variable {p : Phase} {r : Request} {x : r.Reply} {id : Uuid} {e : Entry}

/-- A call is ready once an id was given out. -/
theorem advance_eq_ready (h : p.advance r x = .ready id) :
    p = .ready id ∨ r.drawn? x = some id := by
  unfold advance at h
  split at h
  all_goals first | exact .inl h | cases h
  exact .inr rfl

/-- A call has found what a lookup has shown. -/
theorem advance_eq_found (h : p.advance r x = .found e) :
    p = .found e ∨ r.found? x = some e := by
  unfold advance at h
  split at h
  all_goals first | exact .inl h | cases h
  exact .inr rfl

/-- A call goes through by its write. -/
theorem advance_eq_ended (h : p.advance r x = .ended (.ok ())) :
    p = .ended (.ok ()) ∨ (r.written? x).isSome ∨ (r.erased? x).isSome := by
  unfold advance at h
  split at h
  all_goals first | exact .inl h | cases h
  all_goals first | exact .inr (.inl rfl) | exact .inr (.inr rfl)

/-- A call that is over went through exactly if its write did. -/
theorem Ends.isOk_iff {α : Type} {answer : Except VaultError α} (h : p.Ends answer) :
    answer.isOk ↔ p = .ended (.ok ()) := by
  unfold Ends at h
  split at h
  · obtain ⟨a, rfl⟩ := h
    exact ⟨fun _ => rfl, fun _ => rfl⟩
  · subst h
    exact ⟨fun hok => absurd hok Bool.false_ne_true, fun hp => by cases hp⟩
  · obtain ⟨error, rfl⟩ := h
    rename_i hnot _
    exact ⟨fun hok => absurd hok Bool.false_ne_true, fun hp => absurd hp hnot⟩

/-- A call that has found an entry stays with it until the store answers the write. -/
theorem advance_found (e : Entry) (r : Request) (x : r.Reply) :
    (found e).advance r x = found e ∨ ∃ answer, (found e).advance r x = ended answer := by
  unfold advance
  split
  all_goals first | exact .inl rfl | exact .inr ⟨_, rfl⟩ | contradiction

end Phase

/-! ### What is shared -/

/-- The store, and the ids given out so far, with those in the store at first. -/
structure Commons where
  store : Store.Indexed
  given : List Uuid

namespace Commons

/-- The store answers, and an id that is given out is new.  The callers may cancel at any time, and
the clock may show anything. -/
def answers : Surroundings Commons
  | .store c, s, x, s' => x = (s.store.answer c).1 ∧ s' = { s with store := (s.store.answer c).2 }
  | .freshId, s, x, s' => x ∉ s.given ∧ s' = { s with given := x :: s.given }
  | .random n, s, x, s' => x.length = n ∧ s' = s
  | .cancellation, s, _, s' | .now, s, _, s' | .token _, s, _, s' | .turns, s, _, s'
  | .extent, s, _, s' => s' = s

variable {s s' : Commons} {r : Request} {x : r.Reply}

theorem fair_of_answers (h : answers r s x s') : r.Fair x := by
  cases r with
  | random n => exact h.1
  | store | cancellation | now | freshId | token | turns | extent => trivial

theorem sound_of_answers (h : answers r s x s') (hs : s.store.Sound) : s'.store.Sound := by
  cases r with
  | store c =>
      obtain ⟨-, rfl⟩ := h
      exact hs.answer c
  | freshId | random =>
      obtain ⟨-, rfl⟩ := h
      exact hs
  | cancellation | now | token | turns | extent =>
      obtain rfl := h
      exact hs

/-- Ids that were given out are never given out again. -/
theorem given_of_answers (h : answers r s x s') : s.given ⊆ s'.given := by
  cases r with
  | store c =>
      obtain ⟨-, rfl⟩ := h
      exact fun _ => id
  | freshId =>
      obtain ⟨-, rfl⟩ := h
      exact List.subset_cons_self _ _
  | random =>
      obtain ⟨-, rfl⟩ := h
      exact fun _ => id
  | cancellation | now | token | turns | extent =>
      obtain rfl := h
      exact fun _ => id

theorem drawn_of_answers (h : answers r s x s') {id : Uuid} (hd : r.drawn? x = some id) :
    id ∉ s.given ∧ id ∈ s'.given := by
  cases r with
  | freshId =>
      obtain ⟨hnew, rfl⟩ := h
      obtain rfl := Option.some.inj hd
      exact ⟨hnew, List.mem_cons_self⟩
  | store | random | cancellation | now | token | turns | extent => cases hd

/-- An entry that was found is in the store. -/
theorem found_of_answers (h : answers r s x s') (hs : s.store.Sound) {e : Entry}
    (hf : r.found? x = some e) : e ∈ s.store.rows := by
  cases r with
  | store c =>
      obtain ⟨rfl, -⟩ := h
      cases c with
      | findToken token => exact (hs.findToken_eq_some.1 hf).1
      | create | update | erase | findId | list | count => cases hf
  | freshId | random | cancellation | now | token | turns | extent => cases hf

end Commons

namespace Vault

/-! ### The crowd -/

/-- A call that runs, and what is left of it. -/
structure Client where
  call : Call
  rest : Program (Except VaultError call.Answer)

/-- A question that was answered: whose it was, for which call, and the reply. -/
structure Deed where
  who : Nat
  call : Call
  request : Request
  reply : request.Reply

/-- Calls that run beside one another, and their answered questions, the latest first. -/
structure Crowd where
  commons : Commons
  clients : List Client
  log : List Deed

namespace Crowd

/-- One of the calls puts its next question. -/
inductive Step (k : Crowd) : Crowd → Prop where
  | ask {i : Nat} {c : Call} {r : Request} {next : r.Reply → Program (Except VaultError c.Answer)}
      {x : r.Reply} {s' : Commons} (hi : k.clients[i]? = some ⟨c, .ask r next⟩)
      (hx : Commons.answers r k.commons x s') :
      Step k ⟨s', k.clients.set i ⟨c, next x⟩, ⟨i, c, r, x⟩ :: k.log⟩

/-- No call has put a question. -/
def start (v : Vault) (s : Store.Indexed) (calls : List Call) : Crowd where
  commons := ⟨s, s.rows.map (·.id)⟩
  clients := calls.map fun c => ⟨c, (v.perform c).run⟩
  log := []

end Crowd

/-! ### What was asked -/

namespace Deed

def written? (d : Deed) : Option Entry :=
  d.request.written? d.reply

def erased? (d : Deed) : Option Uuid :=
  d.request.erased? d.reply

def found? (d : Deed) : Option Entry :=
  d.request.found? d.reply

/-- The store has put an entry in place, written from it or taken one out. -/
def Wrote (d : Deed) : Prop :=
  d.written?.isSome ∨ d.erased?.isSome

/-- The call is for the field, and the store has written from an entry with the id. -/
def settles (id : Uuid) (f : Field) (d : Deed) : Bool :=
  d.call.owns f && d.written?.any (·.id == id)

end Deed

/-- How far the call of a client has come. -/
def phase (i : Nat) : List Deed → Phase
  | [] => .looking
  | d :: log => if d.who = i then (phase i log).advance d.request d.reply else phase i log

/-- The field of the entry holds what the last call for it has written there, or, if there was none,
what it held at first. -/
def Column (v : Vault) (s₀ : Store.Indexed) (log : List Deed) (e : Entry) (f : Field) : Prop :=
  match log.find? (·.settles e.id f) with
  | some d => ∃ source, d.written? = some source ∧ e.Agrees source f ∧ d.call.Sets v f source
  | none => ∃ e₀ ∈ s₀.rows, e₀.id = e.id ∧ e₀.token = e.token ∧ e.Agrees e₀ f

section

variable {v : Vault} {s₀ : Store.Indexed} {d : Deed} {log : List Deed} {e e' source : Entry}
  {f : Field} {i : Nat}

theorem phase_cons_self (h : d.who = i) :
    phase i (d :: log) = (phase i log).advance d.request d.reply :=
  if_pos h

theorem phase_cons_of_ne (h : d.who ≠ i) : phase i (d :: log) = phase i log :=
  if_neg h

/-- Only an id that is given out makes a call ready. -/
theorem phase_cons_ready {id : Uuid} (h : phase i (d :: log) = .ready id) :
    phase i log = .ready id ∨ (d.who = i ∧ d.request.drawn? d.reply = some id) := by
  by_cases hi : d.who = i
  · rw [phase_cons_self hi] at h
    exact (Phase.advance_eq_ready h).imp_right fun hd => ⟨hi, hd⟩
  · exact .inl ((phase_cons_of_ne hi).symm.trans h)

/-- Only a lookup finds an entry. -/
theorem phase_cons_found (h : phase i (d :: log) = .found e) :
    phase i log = .found e ∨ d.found? = some e := by
  by_cases hi : d.who = i
  · rw [phase_cons_self hi] at h
    exact Phase.advance_eq_found h
  · exact .inl ((phase_cons_of_ne hi).symm.trans h)

/-- Only a write ends a call that goes through. -/
theorem phase_cons_ended (h : phase i (d :: log) = .ended (.ok ())) :
    phase i log = .ended (.ok ()) ∨ (d.who = i ∧ d.Wrote) := by
  by_cases hi : d.who = i
  · rw [phase_cons_self hi] at h
    exact (Phase.advance_eq_ended h).imp_right fun hw => ⟨hi, hw⟩
  · exact .inl ((phase_cons_of_ne hi).symm.trans h)

/-- A question that does not write to the field leaves it. -/
theorem Column.pass (h : Column v s₀ log e f) (hd : d.settles e.id f = false) :
    Column v s₀ (d :: log) e f := by
  simp only [Column, List.find?_cons, hd]
  exact h

/-- A question that writes to the field is the last one for it. -/
theorem Column.set (hown : d.call.owns f = true) (hw : d.written? = some source)
    (hid : source.id = e.id) (hagree : e.Agrees source f) (hsets : d.call.Sets v f source) :
    Column v s₀ (d :: log) e f := by
  have hd : d.settles e.id f = true := by
    simp [Deed.settles, hown, hw, hid]
  simp only [Column, List.find?_cons, hd]
  exact ⟨source, hw, hagree, hsets⟩

theorem Column.congr (h : Column v s₀ log e f) (hid : e'.id = e.id) (ht : e'.token = e.token)
    (hagree : e'.Agrees e f) : Column v s₀ log e' f := by
  simp only [Column, hid, ht] at h ⊢
  split at h
  · obtain ⟨source, hw, h, hsets⟩ := h
    exact ⟨source, hw, hagree.trans h, hsets⟩
  · obtain ⟨e₀, he₀, hid₀, ht₀, h⟩ := h
    exact ⟨e₀, he₀, hid₀, ht₀, hagree.trans h⟩

end

/-! ### One question -/

/-- What the question `r` of a call in the phase `p` does to the store: nothing, or it is the write
of the call, and there is one entry more, or one rewritten in the fields that the call is for, or
one less. -/
inductive Asked (v : Vault) (c : Call) (p : Phase) (r : Request) (x : r.Reply)
    (s s' : Store.Indexed) : Prop where
  | nothing (hw : r.written? x = none) (he : r.erased? x = none) (hs : s' = s)
  | created (e : Entry) (hp : p = .ready e.id) (hw : r.written? x = some e)
      (he : r.erased? x = none) (hsets : ∀ f ≠ .updated, c.owns f = true ∧ c.Sets v f e)
      (hs : ∀ a, a ∈ s'.rows ↔ a = e ∨ a ∈ s.rows)
  | rewritten (e source : Entry) (fields : List Field) (hp : p = .found e)
      (hw : r.written? x = some source) (he : r.erased? x = none) (hid : source.id = e.id)
      (hsets : ∀ f ≠ .updated, (c.owns f = true → f ∈ fields ∧ c.Sets v f source) ∧
        (c.owns f = false → f ∉ fields))
      (hs : s'.rows = s.rows.map (Store.Indexed.rewrite source fields))
  | erased (e : Entry) (hp : p = .found e) (hw : r.written? x = none)
      (he : r.erased? x = some e.id) (hs : ∀ a, a ∈ s'.rows ↔ a ∈ s.rows ∧ a.id ≠ e.id)

section

variable {v : Vault} {c : Call} {p : Phase} {r : Request} {x : r.Reply} {s s' : Commons}

/-- The rows after a question have the ids of those before it, or it has put one more in place. -/
theorem Asked.rows {s s' : Store.Indexed} {e : Entry} (h : Asked v c p r x s s')
    (he : e ∈ s'.rows) :
    (∃ a ∈ s.rows, a.id = e.id) ∨ (p = .ready e.id ∧ r.written? x = some e) := by
  cases h with
  | nothing _ _ hs => exact .inl ⟨e, hs ▸ he, rfl⟩
  | created a hp hw _ _ hs =>
      rcases (hs e).1 he with rfl | he
      · exact .inr ⟨hp, hw⟩
      · exact .inl ⟨e, he, rfl⟩
  | rewritten a source fields _ _ _ _ _ hs =>
      rw [hs] at he
      obtain ⟨b, hb, rfl⟩ := List.mem_map.1 he
      exact .inl ⟨b, hb, (Store.Indexed.id_rewrite source fields b).symm⟩
  | erased a _ _ _ hs => exact .inl ⟨e, ((hs e).1 he).1, rfl⟩

/-- The write is the last question. -/
theorem advance_of_write (hask : c.Asks v p r)
    (hw : (r.written? x).isSome ∨ (r.erased? x).isSome) :
    p.advance r x = .ended (.ok ()) := by
  cases r with
  | store w =>
      rcases Call.Asks.lookup_or_write hask with ⟨token, -, rfl⟩ | hwrites
      · rcases hw with hw | hw <;> cases hw
      rcases hwrites.cases with ⟨e, rfl, rfl, -⟩ | ⟨e, source, fields, rfl, rfl, -, -⟩ |
        ⟨e, rfl, rfl⟩ <;> cases x with
      | ok a => rfl
      | error error => rcases hw with hw | hw <;> cases hw
  | freshId | random | cancellation | now | token | turns | extent =>
      rcases hw with hw | hw <;> cases hw

/-- A lookup comes first. -/
theorem advance_of_found (hask : c.Asks v p r) {e : Entry} (hf : r.found? x = some e) :
    p.advance r x = .found e := by
  cases r with
  | store w =>
      rcases Call.Asks.lookup_or_write hask with ⟨token, rfl, rfl⟩ | hwrites
      · cases x with
        | ok found =>
            obtain rfl : found = some e := hf
            rfl
        | error error => cases hf
      · rcases hwrites.cases with ⟨e, rfl, rfl, -⟩ | ⟨e, source, fields, rfl, rfl, -, -⟩ |
          ⟨e, rfl, rfl⟩ <;> cases hf
  | freshId | random | cancellation | now | token | turns | extent => cases hf

theorem asked (hs : s.store.Sound) (hask : c.Asks v p r) (hx : Commons.answers r s x s') :
    Asked v c p r x s.store s'.store := by
  cases r with
  | store w =>
      obtain ⟨rfl, rfl⟩ := hx
      rcases Call.Asks.lookup_or_write hask with ⟨token, -, rfl⟩ | hwrites
      · exact .nothing rfl rfl rfl
      rcases hwrites.cases with ⟨e, rfl, rfl, hsets⟩ | ⟨e, source, fields, rfl, rfl, hid, hsets⟩ |
        ⟨e, rfl, rfl⟩
      · rcases hs.create_cases e with ⟨-, -, heq⟩ | ⟨-, heq⟩
        · simp only [Store.Indexed.answer, heq]
          exact .created e rfl rfl rfl hsets fun a =>
            (Store.Indexed.insertRow_perm e _).mem_iff.trans List.mem_cons
        · simp only [Store.Indexed.answer, heq]
          exact .nothing rfl rfl rfl
      · rcases hs.update_cases source fields with ⟨a, -, -, heq⟩ | ⟨-, heq⟩
        · simp only [Store.Indexed.answer, heq]
          exact .rewritten e source fields rfl rfl rfl hid hsets rfl
        · simp only [Store.Indexed.answer, heq]
          exact .nothing rfl rfl rfl
      · rcases hs.erase_cases e.id with ⟨a, -, haid, heq⟩ | ⟨-, heq⟩
        · simp only [Store.Indexed.answer, heq]
          refine .erased e rfl rfl rfl fun b => ?_
          simp [haid]
        · simp only [Store.Indexed.answer, heq]
          exact .nothing rfl rfl rfl
  | freshId =>
      obtain ⟨-, rfl⟩ := hx
      exact .nothing rfl rfl rfl
  | random n =>
      obtain ⟨-, rfl⟩ := hx
      exact .nothing rfl rfl rfl
  | cancellation | now =>
      obtain rfl := hx
      exact .nothing rfl rfl rfl
  | token | turns | extent => exact hask.elim

end

/-! ### Every moment -/

/-- The id was given out, and no call is about to put a new entry under it. -/
def Settled (given : List Uuid) (log : List Deed) (id : Uuid) : Prop :=
  id ∈ given ∧ ∀ i, phase i log ≠ .ready id

/-- What holds at every moment of a crowd that started from the store `s₀`. -/
structure Kept (v : Vault) (s₀ : Store.Indexed) (k : Crowd) : Prop where
  sound : k.commons.store.Sound
  /-- Every call keeps to its course. -/
  course : ∀ i (a : Client), k.clients[i]? = some a → a.rest.Obeys v a.call (phase i k.log)
  rows : ∀ e ∈ k.commons.store.rows, Settled k.commons.given k.log e.id
  found : ∀ i e, phase i k.log = .found e → Settled k.commons.given k.log e.id
  /-- An id that is not settled is that of one call alone. -/
  ready : ∀ i id, phase i k.log = .ready id →
    id ∈ k.commons.given ∧ ∀ j, phase j k.log = .ready id → j = i
  /-- What was taken out does not come back. -/
  erased : ∀ d ∈ k.log, ∀ id, d.erased? = some id →
    Settled k.commons.given k.log id ∧ ∀ e ∈ k.commons.store.rows, e.id ≠ id
  /-- A call that has found an entry stays with it. -/
  looked : ∀ d ∈ k.log, ∀ e, d.found? = some e →
    phase d.who k.log = .found e ∨ ∃ answer, phase d.who k.log = .ended answer
  /-- A call goes through once the store has carried out its write. -/
  ended : ∀ i, phase i k.log = .ended (.ok ()) ↔ ∃ d ∈ k.log, d.who = i ∧ d.Wrote
  columns : ∀ e ∈ k.commons.store.rows, ∀ f ≠ .updated, Column v s₀ k.log e f

section

variable {v : Vault} {s₀ : Store.Indexed} {k k' : Crowd}

/-- Before the first question. -/
theorem kept_start {token : String} {calls : List Call} (hs : s₀.Sound)
    (hc : ∀ c ∈ calls, c.Changing token) : Kept v s₀ (.start v s₀ calls) where
  sound := hs
  course i a ha := by
    obtain ⟨c, hcall, rfl⟩ := List.mem_map.1 (List.mem_of_getElem? ha)
    exact perform_obeys (hc c hcall)
  rows e he := ⟨List.mem_map_of_mem he, fun i h => by cases h⟩
  found i e h := by cases h
  ready i id h := by cases h
  erased d hd := absurd hd List.not_mem_nil
  looked d hd := absurd hd List.not_mem_nil
  ended i := ⟨fun h => Phase.noConfusion h, fun ⟨_, hd, _⟩ => absurd hd List.not_mem_nil⟩
  columns e he f _ := ⟨e, he, rfl, rfl, .refl e f⟩

/-! ### What one question keeps -/

/-- The question may be put in the phase of its call, and gets its reply. -/
structure Answered (v : Vault) (k : Crowd) (d : Deed) (s' : Commons) : Prop where
  asks : d.call.Asks v (phase d.who k.log) d.request
  answers : Commons.answers d.request k.commons d.reply s'

variable {d : Deed} {s' : Commons} {e : Entry} {id : Uuid} {i : Nat}

/-- An id that is settled stays so. -/
theorem Answered.settled (h : Answered v k d s') (hid : Settled k.commons.given k.log id) :
    Settled s'.given (d :: k.log) id := by
  refine ⟨Commons.given_of_answers h.answers hid.1, fun j hj => ?_⟩
  rcases phase_cons_ready hj with hp | ⟨-, hd⟩
  · exact hid.2 j hp
  · exact (Commons.drawn_of_answers h.answers hd).1 hid.1

/-- A call that has ended stays so: it has asked nothing. -/
theorem Answered.ended (h : Answered v k d s') {answer : Except StoreError Unit}
    (hp : phase i k.log = .ended answer) : phase i (d :: k.log) = .ended answer := by
  by_cases hi : d.who = i
  · subst hi
    exact absurd (hp ▸ h.asks) Call.not_asks_ended
  · exact (phase_cons_of_ne hi).trans hp

theorem Answered.asked (h : Answered v k d s') (hk : Kept v s₀ k) :
    Asked v d.call (phase d.who k.log) d.request d.reply k.commons.store s'.store :=
  Vault.asked hk.sound h.asks h.answers

theorem Kept.rows_step (hk : Kept v s₀ k) (h : Answered v k d s') (he : e ∈ s'.store.rows) :
    Settled s'.given (d :: k.log) e.id := by
  rcases (h.asked hk).rows he with ⟨a, ha, hid⟩ | ⟨hp, hw⟩
  · exact h.settled (hid ▸ hk.rows a ha)
  · -- the new entry is in place, and no other call has its id
    obtain ⟨hgiven, hone⟩ := hk.ready d.who e.id hp
    have hended := advance_of_write h.asks (.inl (by rw [hw]; rfl))
    refine ⟨Commons.given_of_answers h.answers hgiven, fun j hj => ?_⟩
    by_cases hj' : d.who = j
    · rw [phase_cons_self hj', ← hj', hended] at hj
      cases hj
    · exact hj' (hone j ((phase_cons_of_ne hj').symm.trans hj)).symm

theorem Kept.found_step (hk : Kept v s₀ k) (h : Answered v k d s')
    (hp : phase i (d :: k.log) = .found e) : Settled s'.given (d :: k.log) e.id := by
  rcases phase_cons_found hp with hp | hf
  · exact h.settled (hk.found i e hp)
  · exact h.settled (hk.rows e (Commons.found_of_answers h.answers hk.sound hf))

theorem Kept.ready_step (hk : Kept v s₀ k) (h : Answered v k d s')
    (hp : phase i (d :: k.log) = .ready id) :
    id ∈ s'.given ∧ ∀ j, phase j (d :: k.log) = .ready id → j = i := by
  rcases phase_cons_ready hp with hold | ⟨rfl, hd⟩
  · obtain ⟨hgiven, hone⟩ := hk.ready i id hold
    refine ⟨Commons.given_of_answers h.answers hgiven, fun j hj => ?_⟩
    rcases phase_cons_ready hj with hj | ⟨-, hd⟩
    · exact hone j hj
    · exact absurd hgiven (Commons.drawn_of_answers h.answers hd).1
  · obtain ⟨hnew, hgiven⟩ := Commons.drawn_of_answers h.answers hd
    refine ⟨hgiven, fun j hj => ?_⟩
    rcases phase_cons_ready hj with hj | ⟨rfl, -⟩
    · exact absurd (hk.ready j id hj).1 hnew
    · rfl

theorem Kept.erased_step (hk : Kept v s₀ k) (h : Answered v k d s') {a : Deed}
    (ha : a ∈ d :: k.log) (herased : a.erased? = some id) :
    Settled s'.given (d :: k.log) id ∧ ∀ e ∈ s'.store.rows, e.id ≠ id := by
  rcases List.mem_cons.1 ha with rfl | ha
  · cases h.asked hk with
    | nothing _ he | created _ _ _ he | rewritten _ _ _ _ _ he => cases he.symm.trans herased
    | erased e hp _ he hs =>
        obtain rfl := Option.some.inj (he.symm.trans herased)
        exact ⟨h.settled (hk.found a.who e hp), fun b hb => ((hs b).1 hb).2⟩
  · obtain ⟨hid, hgone⟩ := hk.erased a ha id herased
    refine ⟨h.settled hid, fun b hb hsame => ?_⟩
    rcases (h.asked hk).rows hb with ⟨b', hb', hsame'⟩ | ⟨hp, -⟩
    · exact hgone b' hb' (hsame'.trans hsame)
    · exact hid.2 d.who (hsame ▸ hp)

theorem Kept.looked_step (hk : Kept v s₀ k) (h : Answered v k d s') {a : Deed}
    (ha : a ∈ d :: k.log) (hf : a.found? = some e) :
    phase a.who (d :: k.log) = .found e ∨ ∃ answer, phase a.who (d :: k.log) = .ended answer := by
  rcases List.mem_cons.1 ha with rfl | ha
  · exact .inl ((phase_cons_self rfl).trans (advance_of_found h.asks hf))
  · rcases hk.looked a ha e hf with hp | ⟨answer, hp⟩
    · by_cases hsame : d.who = a.who
      · rw [phase_cons_self hsame, hp]
        exact Phase.advance_found e _ _
      · exact .inl ((phase_cons_of_ne hsame).trans hp)
    · exact .inr ⟨answer, h.ended hp⟩

theorem Kept.ended_step (hk : Kept v s₀ k) (h : Answered v k d s') (i : Nat) :
    phase i (d :: k.log) = .ended (.ok ()) ↔ ∃ a ∈ d :: k.log, a.who = i ∧ a.Wrote := by
  constructor
  · intro hp
    rcases phase_cons_ended hp with hp | ⟨hi, hw⟩
    · obtain ⟨a, ha, hi, hw⟩ := (hk.ended i).1 hp
      exact ⟨a, List.mem_cons_of_mem d ha, hi, hw⟩
    · exact ⟨d, List.mem_cons_self, hi, hw⟩
  · rintro ⟨a, ha, rfl, hw⟩
    rcases List.mem_cons.1 ha with rfl | ha
    · exact (phase_cons_self rfl).trans (advance_of_write h.asks hw)
    · exact h.ended ((hk.ended a.who).2 ⟨a, ha, rfl, hw⟩)

/-- **A call leaves the fields as they are that it is not for**, and sets those that it is for. -/
theorem Kept.columns_step (hk : Kept v s₀ k) (h : Answered v k d s') (he : e ∈ s'.store.rows)
    {f : Field} (hf : f ≠ .updated) : Column v s₀ (d :: k.log) e f := by
  have hpass : ∀ source, d.written? = some source → source.id ≠ e.id →
      d.settles e.id f = false := by
    intro source hw hne
    simp [Deed.settles, hw, hne]
  cases h.asked hk with
  | nothing hw _ hs =>
      exact (hk.columns e (hs ▸ he) f hf).pass (by simp [Deed.settles, Deed.written?, hw])
  | created a hp hw _ hsets hs =>
      rcases (hs e).1 he with rfl | he
      · exact .set (hsets f hf).1 hw rfl (.refl e f) (hsets f hf).2
      · -- the id of the new entry is that of no other
        refine (hk.columns e he f hf).pass (hpass a hw fun heq => ?_)
        exact (hk.rows e he).2 d.who (heq ▸ hp)
  | rewritten a source fields hp hw _ hid hsets hs =>
      rw [hs] at he
      obtain ⟨b, hb, rfl⟩ := List.mem_map.1 he
      have hcolumn := hk.columns b hb f hf
      by_cases hsame : b.id = source.id
      · have hb' : Store.Indexed.rewrite source fields b = b.setFields source fields :=
          if_pos hsame
        by_cases hown : d.call.owns f = true
        · obtain ⟨hmem, hset⟩ := (hsets f hf).1 hown
          refine .set hown hw ?_ ?_ hset
          · rw [Store.Indexed.id_rewrite, hsame]
          · rw [hb']
            exact Entry.agrees_setFields_of_mem hmem
        · have hnot := (hsets f hf).2 (Bool.eq_false_iff.2 hown)
          refine (hcolumn.congr ?_ ?_ ?_).pass (by simp [Deed.settles, hown])
          · exact Store.Indexed.id_rewrite ..
          · exact Store.Indexed.token_rewrite ..
          · rw [hb']
            exact Entry.agrees_setFields_of_notMem hnot
      · have hb' : Store.Indexed.rewrite source fields b = b := if_neg hsame
        rw [hb'] at hpass ⊢
        exact hcolumn.pass (hpass source hw (Ne.symm hsame))
  | erased a _ hw _ hs =>
      exact (hk.columns e ((hs e).1 he).1 f hf).pass (by simp [Deed.settles, Deed.written?, hw])

/-- **What one question keeps.** -/
theorem Kept.step (hk : Kept v s₀ k) (h : k.Step k') : Kept v s₀ k' := by
  obtain @⟨i, c, r, next, x, s', hi, hx⟩ := h
  obtain ⟨hask, hnext⟩ := hk.course i _ hi
  have ha : Answered v k ⟨i, c, r, x⟩ s' := ⟨hask, hx⟩
  refine ⟨Commons.sound_of_answers hx hk.sound, fun j a hj => ?_, fun _ => hk.rows_step ha,
    fun _ _ => hk.found_step ha, fun _ _ => hk.ready_step ha,
    fun _ hd _ => hk.erased_step ha hd, fun _ hd _ => hk.looked_step ha hd,
    fun _ => hk.ended_step ha _, fun _ he _ => hk.columns_step ha he⟩
  by_cases hji : i = j
  · subst hji
    rw [List.getElem?_set_self (List.getElem?_eq_some_iff.1 hi).1] at hj
    obtain rfl := Option.some.inj hj
    have hphase : phase i (⟨i, c, r, x⟩ :: k.log) = (phase i k.log).advance r x :=
      phase_cons_self rfl
    exact hphase ▸ hnext x (Commons.fair_of_answers hx)
  · rw [List.getElem?_set_ne hji] at hj
    have hphase : phase j (⟨i, c, r, x⟩ :: k.log) = phase j k.log := phase_cons_of_ne hji
    exact hphase ▸ hk.course j a hj

/-- **What every moment keeps.** -/
theorem Kept.of_reaches (hk : Kept v s₀ k) (h : Relation.ReflTransGen Crowd.Step k k') :
    Kept v s₀ k' := by
  induction h with
  | refl => exact hk
  | tail _ hstep ih => exact ih.step hstep

/-- A call whose write was refused ends with that. -/
theorem eq_done_of_obeys {α : Type} {c : Call} {p : Program (Except VaultError α)}
    {error : StoreError} (h : p.Obeys v c (.ended (.error error))) :
    p = .done (.error (.store error)) := by
  cases p with
  | done r => exact congrArg Program.done h
  | ask r next => exact absurd h.1 Call.not_asks_ended

/-- **The write of a call whose entry is gone** is refused, and the call ends with that. -/
theorem Kept.missing (hk : Kept v s₀ k) {c : Call} {w : Store.Call}
    {next : w.Reply → Program (Except VaultError c.Answer)}
    (hi : k.clients[i]? = some ⟨c, .ask (.store w) next⟩) (hp : phase i k.log = .found e)
    (hgone : ∀ a ∈ k.commons.store.rows, a.id ≠ e.id) :
    k.commons.store.answer w = (.error (.missing e.id), k.commons.store) ∧
      next (.error (.missing e.id)) = .done (.error (.store (.missing e.id))) := by
  obtain ⟨hask, hnext⟩ := hk.course i _ hi
  rw [hp] at hask hnext
  have hlast := hnext (.error (.missing e.id)) trivial
  rcases Call.Asks.lookup_or_write hask with ⟨_, hp, _⟩ | hwrites
  · cases hp
  rcases hwrites.cases with ⟨_, hp, _⟩ | ⟨_, source, fields, hp, rfl, hid, _⟩ | ⟨_, hp, rfl⟩
  · cases hp
  · obtain rfl := Phase.found.inj hp
    refine ⟨?_, eq_done_of_obeys hlast⟩
    rcases hk.sound.update_cases source fields with ⟨a, ha, haid, -⟩ | ⟨-, heq⟩
    · exact absurd (haid.trans hid) (hgone a ha)
    · rw [Store.Indexed.answer, heq, hid]
  · obtain rfl := Phase.found.inj hp
    refine ⟨?_, eq_done_of_obeys hlast⟩
    rcases hk.sound.erase_cases e.id with ⟨a, ha, haid, -⟩ | ⟨-, heq⟩
    · exact absurd haid (hgone a ha)
    · rw [Store.Indexed.answer, heq]

end

/-! ### Every crowd -/

/-- **Calls beside one another.**  Any number of calls create a secret with a token or change it,
and their questions come in any order.  At every moment one entry at most has the token.  Each of
its fields holds what the last call that is for the field has written to the entry, be it the one
that created it, or what it held at first: calls for different fields do not undo one another.  A
call whose entry was taken out after it was found has written nothing, the store refuses its write
and stays as it is, and the call fails by that; and what was taken out does not come back.  A call
goes through exactly if the store has carried out its write. -/
theorem crowd_keeps (v : Vault) {s : Store.Indexed} (hs : s.Sound) {token : String}
    {calls : List Call} (hc : ∀ c ∈ calls, c.Changing token) {k : Crowd}
    (h : Relation.ReflTransGen Crowd.Step (.start v s calls) k) :
    (∀ a ∈ k.commons.store.rows, ∀ b ∈ k.commons.store.rows,
      a.token = token → b.token = token → a = b) ∧
    (∀ e ∈ k.commons.store.rows, e.token = token →
      ∀ f ∈ [Field.locked, .expires, .hidden], Column v s k.log e f) ∧
    (∀ i c w next e, k.clients[i]? = some ⟨c, .ask (.store w) next⟩ →
      (⟨i, c, .store (.findToken token), .ok (some e)⟩ : Deed) ∈ k.log →
      (∃ j c', (⟨j, c', .store (.erase e.id), .ok ()⟩ : Deed) ∈ k.log) →
      (∀ d ∈ k.log, d.who = i → ¬ d.Wrote) ∧
      k.commons.store.answer w = (.error (.missing e.id), k.commons.store) ∧
      next (.error (.missing e.id)) = .done (.error (.store (.missing e.id)))) ∧
    (∀ j c id, (⟨j, c, .store (.erase id), .ok ()⟩ : Deed) ∈ k.log →
      ∀ e ∈ k.commons.store.rows, e.id ≠ id) ∧
    ∀ i c r, k.clients[i]? = some ⟨c, .done r⟩ →
      (r.isOk ↔ ∃ d ∈ k.log, d.who = i ∧ d.Wrote) := by
  have hk := (kept_start (v := v) hs hc).of_reaches h
  refine ⟨fun a ha b hb hat hbt => ?_, fun e he _ f hf => ?_,
    fun i c w next e hi hfound ⟨j, c', herased⟩ => ?_, fun j c id herased => ?_,
    fun i c r hi => ?_⟩
  · exact List.inj_on_of_nodup_map hk.sound.tokens ha hb (hat.trans hbt.symm)
  · refine hk.columns e he f fun hupdated => ?_
    rw [hupdated] at hf
    simp at hf
  · have hgone := (hk.erased _ herased e.id rfl).2
    have hasking : ∀ answer, phase i k.log ≠ .ended answer := fun answer hended =>
      Call.not_asks_ended (hended ▸ (hk.course i _ hi).1)
    have hp : phase i k.log = .found e :=
      (hk.looked _ hfound e rfl).resolve_right fun ⟨answer, hended⟩ => hasking answer hended
    refine ⟨fun d hd hwho hw => ?_, hk.missing hi hp hgone⟩
    exact hasking _ ((hk.ended i).2 ⟨d, hd, hwho, hw⟩)
  · exact (hk.erased _ herased id rfl).2
  · exact (Phase.Ends.isOk_iff (hk.course i _ hi)).trans (hk.ended i)

/-- A secret. -/
def crowdSecret : Entry :=
  .fresh (.ofNat 0) "token" "locked" none default

/-- The store that holds it. -/
def crowdStore : Store.Indexed where
  rows := [crowdSecret]
  index := [("token", .ofNat 0)]

theorem sound_crowdStore : crowdStore.Sound where
  ascending := List.pairwise_singleton _ _
  tokens := by decide
  keys := by decide
  index token id := by simp [crowdStore, crowdSecret, Entry.fresh, eq_comm]

/-- A renewal and a deletion of the secret. -/
def crowdCalls : List Call :=
  [.renew "token" none, .delete "token"]

/-- The secret is deleted after the renewal has found it. -/
theorem crowd_runs : ∃ k w next, Relation.ReflTransGen Crowd.Step
      (.start usual crowdStore crowdCalls) k ∧
    k.clients[0]? = some ⟨.renew "token" none, .ask (.store w) next⟩ ∧
    (⟨0, .renew "token" none, .store (.findToken "token"), .ok (some crowdSecret)⟩ : Deed)
      ∈ k.log ∧
    ∃ j c, (⟨j, c, .store (.erase crowdSecret.id), .ok ()⟩ : Deed) ∈ k.log := by
  have h₁ : Relation.ReflTransGen Crowd.Step (.start usual crowdStore crowdCalls) _ :=
    .tail .refl (.ask (i := 0) (r := .cancellation) (x := .idle) rfl rfl)
  have h₂ := h₁.tail (.ask (i := 0) (r := .store (.findToken "token")) rfl ⟨rfl, rfl⟩)
  have h₃ := h₂.tail (.ask (i := 1) (r := .cancellation) (x := .idle) rfl rfl)
  have h₄ := h₃.tail (.ask (i := 1) (r := .store (.findToken "token")) rfl ⟨rfl, rfl⟩)
  have h₅ := h₄.tail (.ask (i := 1) (r := .store (.erase (.ofNat 0))) rfl ⟨rfl, rfl⟩)
  have h₆ := h₅.tail (.ask (i := 0) (r := .now) (x := default) rfl rfl)
  refine ⟨_, .update { crowdSecret with updated := default } [.expires, .updated], _, h₆, rfl, ?_,
    1, .delete "token", ?_⟩
  · exact .tail _ (.tail _ (.tail _ (.tail _ (.head _))))
  · exact .tail _ (.head _)

/-- The renewal fails then, and nothing has changed by it. -/
theorem crowd_keeps_crowdStore : ∃ k w next, Relation.ReflTransGen Crowd.Step
      (.start usual crowdStore crowdCalls) k ∧
    k.clients[0]? = some ⟨.renew "token" none, .ask (.store w) next⟩ ∧
    k.commons.store.answer w = (.error (.missing crowdSecret.id), k.commons.store) ∧
    next (.error (.missing crowdSecret.id))
      = .done (.error (.store (.missing crowdSecret.id))) := by
  obtain ⟨k, w, next, hreach, hi, hfound, herased⟩ := crowd_runs
  have hcalls : ∀ c ∈ crowdCalls, c.Changing "token" := by
    intro c hc
    rcases List.mem_cons.1 hc with rfl | hc
    · exact rfl
    · obtain rfl := List.mem_singleton.1 hc
      exact rfl
  obtain ⟨-, -, hmissing, -⟩ := crowd_keeps usual sound_crowdStore hcalls hreach
  exact ⟨k, w, next, hreach, hi, (hmissing 0 _ w next crowdSecret hi hfound herased).2⟩

end Vault

end Strongbox
