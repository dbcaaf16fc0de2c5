import Strongbox.Proofs.Vault.Draws

/-!
# Vault — what becomes of a token that was handed out

A secret is kept under a token that was drawn, whatever the source of tokens gave.  Every later call
looks at the token first, and has none if the text is empty; then it looks for the record.  So a
record with another token is reached by every call on it, and goes on to be reached after any of
them but its deletion, as long as the store can read it.

* `Stands`: the record of an entry stands in its place, and nobody has cancelled.
* `Call.Does`: what a call on the token answers, and what it makes of the entry.
* `Stands.perform`, `Stands.delete`: a call does so, whatever else is in the store.
* `Reached`, `Later.stands`: every call reaches the record, now and after other calls on it.
* `create_usable`: the record of a token that was handed out is reached by every call, or by none.
* `exists_unusable`: the record of a token without any text is reached by none.
-/

namespace Strongbox.Vault

open Store (Record)

/-- Calm surroundings in which new ids are those of no entry.  What is drawn as a token may be any
text. -/
def anyTokens (shows : Instant → Prop) : Manner :=
  { Manner.calm shows with gives := Backing.Lacks }

/-- The record of an entry stands in its place in the store, and nobody has cancelled. -/
structure Stands (s : Scene) (front : List Record) (x : Record) (back : List Record) (e : Entry) :
    Prop where
  quiet : s.caller.raised = false
  placed : s.store.Places front x back e.token e.id
  reads : x.read = .ok e

/-! ### What calls do -/

/-- What reading an entry answers: the text that the password opens, if the entry is active and its
expiry has not passed. -/
def Opens (v : Vault) (shows : Instant → Prop) (e : Entry) (password : String)
    (r : Except VaultError String) : Prop :=
  if e.isHidden then r = .error (.notFound e.token)
  else ∃ now, shows now ∧
    r = match e.expires.filter (· < now) with
      | some moment => .error (.expired e.token moment)
      | none => (v.lock.unlock e.locked password).mapError .decryption

/-- Reading an active entry under the right password gives the text until the expiry has passed. -/
theorem Opens.active {v : Vault} {shows : Instant → Prop} {e : Entry} {text password : String}
    {r : Except VaultError String} (h : v.Opens shows e password r) (ha : e.isHidden = false)
    (hu : v.lock.unlock e.locked password = .ok text) :
    ∃ now, shows now ∧
      r = match e.expires.filter (· < now) with
        | some moment => .error (.expired e.token moment)
        | none => .ok text := by
  rw [Opens, if_neg (by simp [ha]), hu] at h
  exact h

/-- The entry is changed if it is found, and otherwise stays. -/
def Alters (found : Bool) (e : Entry) (make : Entry → Prop) (r : Except VaultError Unit)
    (e' : Entry) : Prop :=
  if found then r = .ok () ∧ make e' else r = .error (.notFound e.token) ∧ e' = e

namespace Call

/-- What a call on the token of an entry answers, and the entry after it, as the store keeps
instants. -/
def Does (v : Vault) (shows : Instant → Prop) (keep : Instant → Instant) (e : Entry) :
    (c : Call) → Except VaultError c.Answer → Entry → Prop
  | .inspect _, r, e' => r = .ok e.info ∧ e' = e
  | .read _ password, r, e' => v.Opens shows e password r ∧ e' = e
  | .update _ text password, r, e' =>
    match v.lock.lockFault? text password with
    | some error => r = .error (if e.isHidden then .notFound e.token else .encoding error) ∧ e' = e
    | none =>
      Alters (!e.isHidden) e (fun a => ∃ (head : Bytes) (now : Instant),
        head.length = v.lock.headLength ∧ shows now ∧
          a = { e with locked := v.lock.lock text password head, updated := keep now }) r e'
  | .renew _ expires, r, e' =>
    Alters (!e.isHidden) e (fun a => ∃ now, shows now ∧
      a = { e with expires := expires.map keep, updated := keep now }) r e'
  | .hide _, r, e' =>
    Alters (!e.isHidden) e (fun a => ∃ now, shows now ∧
      a = { e with hidden := some (keep now), updated := keep now }) r e'
  | .restore _, r, e' =>
    Alters e.isHidden e (fun a => ∃ now, shows now ∧
      a = { e with hidden := none, updated := keep now }) r e'
  | .create _ _ _ _, _, _ | .createDefault _ _ _, _, _ | .createCustom _ _ _ _, _, _
  | .delete _, _, _ => False

/-- The call leaves the record of its token in the store. -/
def stays : Call → Bool
  | read _ _ | update _ _ _ | hide _ | restore _ | renew _ _ | inspect _ => true
  | create _ _ _ _ | createDefault _ _ _ | createCustom _ _ _ _ | delete _ => false

/-- The expiry that the call gives to a record. -/
def expiry? : Call → Option Instant
  | renew _ expires => expires
  | _ => none

/-- The call is one on the token that leaves its record: it gives a token and a password, and no
expiry that the store does not take. -/
structure Uses (b : Backing) (token : String) (c : Call) : Prop where
  token : c.token? = some token
  heard : c.refusal? = none
  stays : c.stays = true
  taken : ∀ t ∈ c.expiry?, b.Takes t

end Call

section

variable {α : Type} {v : Vault} {shows : Instant → Prop} {s s' : Scene} {front back : List Record}
  {x : Record} {e : Entry} {token password text : String}

/-! ### First steps -/

/-- A call that is not refused gives no empty token and no empty password. -/
theorem not_empty {c : Call} (h : c.refusal? = none) :
    (∀ token, c.token? = some token → token ≠ "") ∧
      ∀ password, c.password? = some password → password ≠ "" := by
  rw [Call.refusal?] at h
  split at h
  · cases h
  · split at h
    · cases h
    · rename_i htoken hpassword
      exact ⟨fun _ ht he => htoken (he ▸ ht), fun _ hp he => hpassword (he ▸ hp)⟩

/-- A call that gives a token goes on. -/
theorem begin_token (hq : s.caller.raised = false) (ht : token ≠ "") {f : Unit → Job α}
    {r : Except VaultError α}
    (h : Job.Ends (Manner.calm shows).answers
      (requireToken token >>= fun _ => Job.checkpoint 0 >>= f) s r s') :
    (f ()).Ends (Manner.calm shows).answers s r s' := by
  rcases requireToken_bind h with ⟨hno, -⟩ | ⟨-, h₁⟩
  · exact absurd hno ht
  · exact Manner.checkpoint_bind id hq h₁

/-- A call that gives a token and a password goes on. -/
theorem begin_both (hq : s.caller.raised = false) (ht : token ≠ "") (hp : password ≠ "")
    {f : Unit → Job α} {r : Except VaultError α}
    (h : Job.Ends (Manner.calm shows).answers
      (requireToken token >>= fun _ => requirePassword password >>= fun _ =>
        Job.checkpoint 0 >>= f) s r s') :
    (f ()).Ends (Manner.calm shows).answers s r s' := by
  rcases requireToken_bind h with ⟨hno, -⟩ | ⟨-, h₁⟩
  · exact absurd hno ht
  · rcases requirePassword_bind h₁ with ⟨hno, -⟩ | ⟨-, h₂⟩
    · exact absurd hno hp
    · exact Manner.checkpoint_bind id hq h₂

theorem now_shows {f : Instant → Job α} {r : Except VaultError α}
    (h : Job.Ends (Manner.calm shows).answers (Job.reply .now >>= f) s r s') :
    ∃ now, shows now ∧ (f now).Ends (Manner.calm shows).answers s r s' := by
  obtain ⟨now, t, ⟨hnow, rfl⟩, h₁⟩ := Job.ends_reply_bind.1 h
  exact ⟨now, hnow, h₁⟩

namespace Stands

/-! ### Look-ups -/

theorem answer_findToken (h : Stands s front x back e) :
    s.store.answer (.findToken e.token) = (.ok (some e), s.store) := by
  rw [h.placed.find, h.reads]
  rfl

theorem anyEntry_bind (h : Stands s front x back e) {f : Entry → Job α} {r : Except VaultError α}
    (he : Job.Ends (Manner.calm shows).answers (anyEntry e.token >>= f) s r s') :
    (f e).Ends (Manner.calm shows).answers s r s' := by
  rcases Vault.anyEntry_bind id h.answer_findToken he with ⟨hno, -⟩ | ⟨a, heq, hf⟩
  · cases hno
  · exact Option.some.inj heq ▸ hf

/-- A hidden entry is not found by a call on active ones. -/
theorem activeEntry_bind (h : Stands s front x back e) {f : Entry → Job α}
    {r : Except VaultError α}
    (he : Job.Ends (Manner.calm shows).answers (activeEntry e.token >>= f) s r s') :
    (e.isHidden = true ∧ r = .error (.notFound e.token) ∧ s' = s) ∨
      (e.isHidden = false ∧ (f e).Ends (Manner.calm shows).answers s r s') := by
  rcases Vault.activeEntry_bind id h.answer_findToken he with ⟨hh, hr⟩ | ⟨a, heq, hh, hf⟩
  · exact .inl ⟨hh e rfl, hr⟩
  · obtain rfl := Option.some.inj heq
    exact .inr ⟨hh, hf⟩

/-! ### Writing -/

/-- An update of the entry is carried out, and the record stays in its place. -/
theorem update (h : Stands s front x back e) {source : Entry} {fields : List Field}
    (hid : source.id = e.id) (hne : fields ≠ []) (ht : ∀ f ∈ fields, s.store.TakesField source f)
    {r : Except VaultError Unit}
    (he : Job.Ends (Manner.calm shows).answers (Job.call (.update source fields)) s r s') :
    r = .ok () ∧ Stands s' front (x.setFields source fields) back
      (e.setFields (s.store.keepEntry source) fields) := by
  obtain ⟨y, hy, rfl⟩ := Job.ends_call.1 he
  obtain ⟨rfl, rfl⟩ := Manner.eq_of_call id hy
  obtain ⟨hok, hplaced⟩ := h.placed.update hid hne
  have hx : x ∈ s.store.records := by
    rw [h.placed.records]
    exact List.mem_append_right _ List.mem_cons_self
  refine ⟨by rw [hok]; rfl, h.quiet, ?_, Backing.read_setFields hx h.reads h.placed.reached ht⟩
  rw [Entry.token_setFields, Entry.id_setFields]
  exact hplaced

/-- The entry is written at an instant that the clock shows. -/
theorem write (h : Stands s front x back e) (make : Instant → Entry) {fields : List Field}
    (hid : ∀ now, (make now).id = e.id) (hne : fields ≠ [])
    (ht : ∀ now, shows now → ∀ f ∈ fields, s.store.TakesField (make now) f)
    {r : Except VaultError Unit}
    (he : Job.Ends (Manner.calm shows).answers
      (Job.reply .now >>= fun now => Job.call (.update (make now) fields)) s r s') :
    r = .ok () ∧ ∃ now x', shows now ∧
      Stands s' front x' back (e.setFields (s.store.keepEntry (make now)) fields) := by
  obtain ⟨now, hnow, h₁⟩ := now_shows he
  obtain ⟨hr, hs'⟩ := h.update (hid now) hne (ht now hnow) h₁
  exact ⟨hr, now, _, hnow, hs'⟩

/-- An erasure of the entry is carried out, and the others are left. -/
theorem erase (h : Stands s front x back e) {r : Except VaultError Unit}
    (he : Job.Ends (Manner.calm shows).answers (Job.call (.erase e.id)) s r s') :
    r = .ok () ∧ s'.store.records = front ++ back := by
  obtain ⟨y, hy, rfl⟩ := Job.ends_call.1 he
  obtain ⟨rfl, rfl⟩ := Manner.eq_of_call id hy
  obtain ⟨hok, hrecords⟩ := h.placed.erase
  exact ⟨by rw [hok]; rfl, hrecords⟩

/-! ### The calls -/

/-- A call on an active entry alters it as the rest of the call does, or does not find it. -/
theorem alters (h : Stands s front x back e) {f : Entry → Job Unit} {make : Entry → Prop}
    {r : Except VaultError Unit}
    (he : Job.Ends (Manner.calm shows).answers (activeEntry e.token >>= f) s r s')
    (hf : (f e).Ends (Manner.calm shows).answers s r s' →
      r = .ok () ∧ ∃ e', make e' ∧ e'.token = e.token ∧ ∃ x', Stands s' front x' back e') :
    ∃ e', Alters (!e.isHidden) e make r e' ∧ e'.token = e.token ∧
      ∃ x', Stands s' front x' back e' := by
  rcases h.activeEntry_bind he with ⟨hh, rfl, rfl⟩ | ⟨hh, h₁⟩
  · refine ⟨e, ?_, rfl, x, h⟩
    simp only [Alters, hh, Bool.not_true, Bool.false_eq_true, if_false, and_self]
  · obtain ⟨hr, e', hmake, ht, hs'⟩ := hf h₁
    refine ⟨e', ?_, ht, hs'⟩
    simp only [Alters, hh, Bool.not_false, if_true]
    exact ⟨hr, hmake⟩

variable (hshows : ∀ t, shows t → s.store.Takes t)

include hshows

theorem update_does (h : Stands s front x back e) {r : Except VaultError Unit}
    (he : Job.Ends (Manner.calm shows).answers (activeEntry e.token >>= fun a =>
      v.lockText text password >>= fun locked => Job.reply .now >>= fun now =>
        Job.call (.update { a with locked, updated := now } [.locked, .updated])) s r s') :
    ∃ e', (Call.update e.token text password).Does v shows s.store.keep e r e' ∧
      e'.token = e.token ∧ ∃ x', Stands s' front x' back e' := by
  cases hfault : v.lock.lockFault? text password with
  | some error =>
      simp only [Call.Does, hfault]
      rcases h.activeEntry_bind he with ⟨hh, rfl, rfl⟩ | ⟨hh, h₁⟩
      · exact ⟨e, by simp [hh], rfl, x, h⟩
      · rcases lockText_bind h₁ with ⟨error', hfault', rfl, rfl⟩ | ⟨head, hfits, -⟩
        · obtain rfl := Option.some.inj (hfault.symm.trans hfault')
          exact ⟨e, by simp [hh], rfl, x, h⟩
        · exact nomatch hfault.symm.trans hfits.fault
  | none =>
      simp only [Call.Does, hfault]
      refine h.alters he fun h₁ => ?_
      rcases lockText_bind h₁ with ⟨error, hfault', -⟩ | ⟨head, hfits, h₂⟩
      · exact nomatch hfault.symm.trans hfault'
      let make (now : Instant) : Entry :=
        { e with locked := v.lock.lock text password head, updated := now }
      obtain ⟨hr, now, x', hnow, hs'⟩ := h.write make (fun _ => rfl) (List.cons_ne_nil _ _)
        (fun now hnow => Backing.takesField_pair (Backing.takesField_locked _ _)
          (hshows now hnow)) h₂
      refine ⟨hr, _, ⟨head, now, hfits.length, hnow, ?_⟩, ?_, x', hs'⟩
      · cases s.store <;> rfl
      · exact Entry.token_setFields _ _ _

theorem hide_does (h : Stands s front x back e) {r : Except VaultError Unit}
    (he : Job.Ends (Manner.calm shows).answers (activeEntry e.token >>= fun a =>
      Job.reply .now >>= fun now =>
        Job.call (.update { a with hidden := some now, updated := now } [.hidden, .updated]))
      s r s') :
    ∃ e', (Call.hide e.token).Does v shows s.store.keep e r e' ∧
      e'.token = e.token ∧ ∃ x', Stands s' front x' back e' := by
  refine h.alters he fun h₁ => ?_
  let make (now : Instant) : Entry := { e with hidden := some now, updated := now }
  obtain ⟨hr, now, x', hnow, hs'⟩ := h.write make (fun _ => rfl) (List.cons_ne_nil _ _)
    (fun now hnow => Backing.takesField_pair
      (Backing.takesField_hidden fun t ht => Option.some.inj ht ▸ hshows now hnow)
      (hshows now hnow)) h₁
  refine ⟨hr, _, ⟨now, hnow, ?_⟩, Entry.token_setFields _ _ _, x', hs'⟩
  cases s.store <;> rfl

theorem restore_does (h : Stands s front x back e) {r : Except VaultError Unit}
    (he : Job.Ends (Manner.calm shows).answers (anyEntry e.token >>= fun a =>
      if a.isHidden then Job.reply .now >>= fun now =>
        Job.call (.update { a with hidden := none, updated := now } [.hidden, .updated])
      else throw (.notFound e.token)) s r s') :
    ∃ e', (Call.restore e.token).Does v shows s.store.keep e r e' ∧
      e'.token = e.token ∧ ∃ x', Stands s' front x' back e' := by
  have h₁ := h.anyEntry_bind he
  cases hh : e.isHidden with
  | false =>
      simp only [hh, Bool.false_eq_true, if_false] at h₁
      obtain ⟨rfl, rfl⟩ := Job.ends_throw.1 h₁
      refine ⟨e, ?_, rfl, x, h⟩
      simp only [Call.Does, Alters, hh, Bool.false_eq_true, if_false, and_self]
  | true =>
      simp only [hh, if_true] at h₁
      let make (now : Instant) : Entry := { e with hidden := none, updated := now }
      obtain ⟨hr, now, x', hnow, hs'⟩ := h.write make (fun _ => rfl) (List.cons_ne_nil _ _)
        (fun now hnow => Backing.takesField_pair (Backing.takesField_hidden fun _ => nofun)
          (hshows now hnow)) h₁
      refine ⟨_, ?_, Entry.token_setFields _ _ _, x', hs'⟩
      simp only [Call.Does, Alters, hh, if_true]
      refine ⟨hr, now, hnow, ?_⟩
      cases s.store <;> rfl

theorem renew_does (h : Stands s front x back e) {expires : Option Instant}
    (hx : ∀ t ∈ expires, s.store.Takes t) {r : Except VaultError Unit}
    (he : Job.Ends (Manner.calm shows).answers (activeEntry e.token >>= fun a =>
      Job.reply .now >>= fun now =>
        Job.call (.update { a with expires, updated := now } [.expires, .updated])) s r s') :
    ∃ e', (Call.renew e.token expires).Does v shows s.store.keep e r e' ∧
      e'.token = e.token ∧ ∃ x', Stands s' front x' back e' := by
  refine h.alters he fun h₁ => ?_
  let make (now : Instant) : Entry := { e with expires, updated := now }
  obtain ⟨hr, now, x', hnow, hs'⟩ := h.write make (fun _ => rfl) (List.cons_ne_nil _ _)
    (fun now hnow => Backing.takesField_pair (Backing.takesField_expires hx) (hshows now hnow)) h₁
  refine ⟨hr, _, ⟨now, hnow, ?_⟩, Entry.token_setFields _ _ _, x', hs'⟩
  cases s.store with
  | indexed => rw [show (Backing.indexed _).keep = id from rfl, Option.map_id]; rfl
  | table => rfl

omit hshows in
theorem read_does (h : Stands s front x back e) {r : Except VaultError String}
    (he : Job.Ends (Manner.calm shows).answers (activeEntry e.token >>= fun a =>
      Job.reply .now >>= fun now =>
        match a.expires with
        | some moment =>
          if moment < now then throw (.expired e.token moment)
          else Job.ofExcept ((v.lock.unlock a.locked password).mapError .decryption)
        | none => Job.ofExcept ((v.lock.unlock a.locked password).mapError .decryption)) s r s') :
    v.Opens shows e password r ∧ s' = s := by
  rcases h.activeEntry_bind he with ⟨hh, rfl, rfl⟩ | ⟨hh, h₁⟩
  · simp only [Opens, hh, if_true, and_self]
  · obtain ⟨now, hnow, h₂⟩ := now_shows h₁
    rw [Opens, if_neg (by simp [hh])]
    cases hx : e.expires with
    | none =>
        simp only [hx] at h₂
        obtain ⟨rfl, rfl⟩ := Job.ends_ofExcept.1 h₂
        exact ⟨⟨now, hnow, rfl⟩, rfl⟩
    | some moment =>
        by_cases hm : moment < now
        · simp only [hx, hm, if_true] at h₂
          obtain ⟨rfl, rfl⟩ := Job.ends_throw.1 h₂
          have hexpired : (some moment).filter (· < now) = some moment := by simp [hm]
          exact ⟨⟨now, hnow, by rw [hexpired]⟩, rfl⟩
        · simp only [hx, hm, if_false] at h₂
          obtain ⟨rfl, rfl⟩ := Job.ends_ofExcept.1 h₂
          have hgood : (some moment).filter (· < now) = none := by simp [hm]
          exact ⟨⟨now, hnow, by rw [hgood]⟩, rfl⟩

/-- **A call on the token does as it should**, and the record stays in its place. -/
theorem perform (h : Stands s front x back e) {c : Call} (hc : c.Uses s.store e.token)
    {r : Except VaultError c.Answer}
    (he : (v.perform c).Ends (Manner.calm shows).answers s r s') :
    ∃ e', c.Does v shows s.store.keep e r e' ∧ e'.token = e.token ∧
      ∃ x', Stands s' front x' back e' := by
  obtain ⟨htoken, hpassword⟩ := not_empty hc.heard
  have ht := htoken _ hc.token
  cases c with
  | create | createDefault | createCustom | delete => exact absurd hc.stays nofun
  | inspect token =>
      obtain rfl := Option.some.inj hc.token
      have h₁ := h.anyEntry_bind (begin_token h.quiet ht he)
      obtain ⟨rfl, rfl⟩ := Job.ends_pure.1 h₁
      exact ⟨e, ⟨rfl, rfl⟩, rfl, x, h⟩
  | read token password =>
      obtain rfl := Option.some.inj hc.token
      obtain ⟨hr, rfl⟩ := h.read_does (begin_both h.quiet ht (hpassword _ rfl) he)
      exact ⟨e, ⟨hr, rfl⟩, rfl, x, h⟩
  | update token text password =>
      obtain rfl := Option.some.inj hc.token
      exact h.update_does hshows (begin_both h.quiet ht (hpassword _ rfl) he)
  | hide token =>
      obtain rfl := Option.some.inj hc.token
      exact h.hide_does hshows (begin_token h.quiet ht he)
  | restore token =>
      obtain rfl := Option.some.inj hc.token
      exact h.restore_does hshows (begin_token h.quiet ht he)
  | renew token expires =>
      obtain rfl := Option.some.inj hc.token
      exact h.renew_does hshows hc.taken (begin_token h.quiet ht he)

omit hshows in
/-- **A deletion** takes the record out and leaves the others. -/
theorem delete (h : Stands s front x back e) (ht : e.token ≠ "") {r : Except VaultError Unit}
    (he : (Vault.delete e.token).Ends (Manner.calm shows).answers s r s') :
    r = .ok () ∧ s'.store.records = front ++ back :=
  h.erase (h.anyEntry_bind (begin_token h.quiet ht he))

end Stands

/-! ### Calls one after another -/

/-- Calls on the token that leave its record, one after another, from one scene to another. -/
inductive Later (v : Vault) (shows : Instant → Prop) (token : String) : Scene → Scene → Prop where
  | here (s : Scene) : Later v shows token s s
  | next {s t s' : Scene} {c : Call} {r : Except VaultError c.Answer} (h : Later v shows token s t)
      (hc : c.Uses t.store token) (he : (v.perform c).Ends (Manner.calm shows).answers t r s') :
      Later v shows token s s'

/-- No run changes which instants a store takes. -/
theorem takes_of_ends {m : Manner} {p : Program α} {a : α} (h : p.Ends m.answers s a s') :
    s'.store.Takes = s.store.Takes := by
  refine Program.Ends.keeps (I := fun t => t.store.Takes = s.store.Takes) ?_ h rfl
  intro q t x t' hx ht
  rcases Manner.answers_store hx with heq | ⟨c, heq⟩
  · rwa [heq]
  · rw [heq, Backing.takes_answer]
    exact ht

/-- After calls on its token that leave it, the record stands in its place. -/
theorem Later.stands (h : Later v shows e.token s s') (hs : Stands s front x back e)
    (hshows : ∀ t, shows t → s.store.Takes t) :
    s'.store.Takes = s.store.Takes ∧ ∃ e', e'.token = e.token ∧
      ∃ x', Stands s' front x' back e' := by
  -- the entry changes from call to call, but not its token nor the records on both sides
  induction h with
  | here => exact ⟨rfl, e, rfl, x, hs⟩
  | next _ hc he ih =>
      obtain ⟨htakes, e', ht, x', hs'⟩ := ih
      obtain ⟨e'', -, ht', hs''⟩ := hs'.perform (htakes ▸ hshows) (ht ▸ hc) he
      exact ⟨(takes_of_ends he).trans htakes, e'', ht'.trans ht, hs''⟩

/-- Every call on the token of the entry reaches its record: it does what it should with the entry
and leaves the record in its place, and a deletion takes out the record and no other. -/
structure Reached (v : Vault) (shows : Instant → Prop) (s : Scene) (front back : List Record)
    (e : Entry) : Prop where
  records : ∃ x, s.store.records = front ++ x :: back ∧ x.token? = some e.token ∧ x.read = .ok e
  uses : ∀ {c : Call} {r : Except VaultError c.Answer} {s' : Scene}, c.Uses s.store e.token →
    (v.perform c).Ends (Manner.calm shows).answers s r s' →
    ∃ e', c.Does v shows s.store.keep e r e' ∧
      ∃ x', s'.store.records = front ++ x' :: back ∧ x'.token? = some e.token ∧ x'.read = .ok e'
  delete : ∀ {r : Except VaultError Unit} {s' : Scene},
    (Vault.delete e.token).Ends (Manner.calm shows).answers s r s' →
    r = .ok () ∧ s'.store.records = front ++ back

/-- **A record in its place is reached**, if its token is not empty. -/
theorem Stands.reached (h : Stands s front x back e) (hshows : ∀ t, shows t → s.store.Takes t)
    (ht : e.token ≠ "") : Reached v shows s front back e where
  records := ⟨x, h.placed.records, h.placed.named, h.reads⟩
  uses hc he := by
    obtain ⟨e', hdoes, ht', x', hs'⟩ := h.perform hshows hc he
    exact ⟨e', hdoes, x', hs'.placed.records, ht' ▸ hs'.placed.named, hs'.reads⟩
  delete he := h.delete ht he

/-! ### Records that no call reaches -/

/-- A call without a token is refused. -/
theorem perform_empty {σ : Type} {S : Surroundings σ} {w w' : σ} {c : Call}
    (hc : c.token? = some "") {r : Except VaultError c.Answer}
    (h : (v.perform c).Ends S w r w') : r = .error .emptyToken ∧ w' = w := by
  have hrefused : ∀ {α : Type} {f : Unit → Job α} {r : Except VaultError α},
      Job.Ends S (requireToken "" >>= f) w r w' → r = .error .emptyToken ∧ w' = w := by
    intro α f r h
    rcases requireToken_bind h with ⟨-, hr, hw⟩ | ⟨hne, -⟩
    · exact ⟨hr, hw⟩
    · exact absurd rfl hne
  cases c with
  | create | createDefault => exact nomatch hc
  | createCustom token | read token | update token | delete token | hide token | restore token
  | renew token | inspect token =>
      obtain rfl := Option.some.inj hc
      exact hrefused h

/-- Where a search fails, so does what goes on from it. -/
theorem findToken_fails {error : StoreError}
    (hfind : s.store.answer (.findToken token) = (.error error, s.store))
    {f : Option Entry → Job α} {r : Except VaultError α}
    (h : Job.Ends (Manner.calm shows).answers (Job.call (.findToken token) >>= f) s r s') :
    r = .error (.store error) ∧ s' = s := by
  obtain ⟨x, t, hx, h₁⟩ := Job.ends_call_bind.1 h
  obtain ⟨rfl, rfl⟩ := Manner.eq_of_call id hx
  have hfirst : (s.store.answer (.findToken token)).1 = .error error := by rw [hfind]
  simp only [hfirst] at h₁
  rwa [Scene.after_of_error hfirst] at h₁

/-- Where a search fails, no entry is found. -/
theorem entry_fails {error : StoreError}
    (hfind : s.store.answer (.findToken token) = (.error error, s.store)) {β : Type}
    {g : Option Entry → Job α} {f : α → Job β} {r : Except VaultError β}
    (h : Job.Ends (Manner.calm shows).answers ((Job.call (.findToken token) >>= g) >>= f) s r s') :
    r = .error (.store error) ∧ s' = s := by
  rcases Job.ends_bind.1 h with ⟨a, t, ha, -⟩ | ⟨error', ha, rfl⟩
  · exact nomatch (findToken_fails hfind ha).1
  · obtain ⟨heq, rfl⟩ := findToken_fails hfind ha
    exact ⟨by rw [Except.error.inj heq], rfl⟩

/-- Where a search fails, so does every call that begins with it. -/
theorem perform_unread {error : StoreError} (hq : s.caller.raised = false)
    (hfind : s.store.answer (.findToken token) = (.error error, s.store)) {c : Call}
    (hc : c.token? = some token) (hheard : c.refusal? = none) {r : Except VaultError c.Answer}
    (h : (v.perform c).Ends (Manner.calm shows).answers s r s') :
    r = .error (.store error) ∧ s' = s := by
  obtain ⟨htoken, hpassword⟩ := not_empty hheard
  have ht := htoken token hc
  cases c with
  | create | createDefault => exact nomatch hc
  | createCustom token text password expires =>
      obtain rfl := Option.some.inj hc
      exact findToken_fails hfind (begin_both hq ht (hpassword _ rfl) h)
  | read token password | update token text password =>
      obtain rfl := Option.some.inj hc
      exact entry_fails hfind (begin_both hq ht (hpassword _ rfl) h)
  | delete token | hide token | restore token | renew token | inspect token =>
      obtain rfl := Option.some.inj hc
      exact entry_fails hfind (begin_token hq ht h)

/-! ### A token that was handed out -/

variable {length : Nat} {expires : Option Instant}

/-- A token that is handed out is one that no record had. -/
theorem free_of_freeToken {m : Manner} (hb : s.store.InStep) (hf : ¬ m.failing) {left : Nat}
    (h : (v.freeToken length left).Ends m.answers s (.ok token) s') :
    s' = s ∧ ∀ y ∈ s.store.records, y.token? ≠ some token := by
  induction left with
  | zero => exact nomatch (Job.ends_throw.1 h).1
  | succ left ih =>
      obtain ⟨candidate, t, ⟨-, ht⟩, h₁⟩ := Job.ends_reply_bind.1 h
      obtain rfl : s = t := ht.symm
      cases candidate with
      | error error => exact nomatch (Job.ends_ofExcept_bind.1 h₁).1
      | ok drawn =>
          obtain ⟨x, t, hx, h₂⟩ := Job.ends_call_bind.1 (Job.ends_ofExcept_bind.1 h₁)
          obtain ⟨rfl, rfl⟩ := Manner.eq_of_call hf hx
          rw [hb.answer_findToken, Scene.after_findToken hb] at h₂
          cases hfound : s.store.lookUp drawn with
          | error error =>
              simp only [hfound] at h₂
              exact nomatch h₂.1
          | ok found =>
              simp only [hfound] at h₂
              cases found with
              | none =>
                  obtain ⟨heq, rfl⟩ := Job.ends_pure.1 h₂
                  obtain rfl := Except.ok.inj heq
                  exact ⟨rfl, Backing.token?_ne_of_lookUp hfound⟩
              | some a => exact ih h₂

/-- A secret that was kept has a record in a place of its own. -/
theorem create_places (hb : s.store.InStep) (hq : s.caller.raised = false)
    (h : (v.create text password length expires).Ends (anyTokens shows).answers s (.ok token) s') :
    password ≠ "" ∧ s'.caller = s.caller ∧
      ∃ (head : Bytes) (now : Instant) (id : Uuid) (front back : List Record),
        v.lock.Fits text password head ∧ shows now ∧ s.store.records = front ++ back ∧
        s'.store.Places front
          (s.store.record (.fresh id token (v.lock.lock text password head) expires now)) back token
          id := by
  have hf : ¬ (anyTokens shows).failing := fun h => h
  rcases requirePassword_bind h with ⟨-, hr, -⟩ | ⟨hp, h₁⟩
  · cases hr
  have h₂ := Manner.checkpoint_bind (fun h => h) hq h₁
  rcases Job.ends_bind.1 h₂ with ⟨drawn, t, hdrawn, h₃⟩ | ⟨error, -, hr⟩
  · obtain ⟨rfl, hfree⟩ := free_of_freeToken hb hf hdrawn
    rcases Job.ends_bind.1 h₃ with ⟨_, u, hstore, h₄⟩ | ⟨error, -, hr⟩
    · obtain ⟨heq, rfl⟩ := Job.ends_pure.1 h₄
      obtain rfl := Except.ok.inj heq
      rcases store_places hb hf (fun _ hid => hid) hfree hstore with ⟨_, -, hr, -⟩ |
        ⟨-, hcaller, head, now, id, front, back, hfits, hnow, -, hrecords, hplaced⟩
      · cases hr
      · exact ⟨hp, hcaller, head, now, id, front, back, hfits, hnow, hrecords, hplaced⟩
    · cases hr
  · cases hr

end

/-- The usual vault keeps a secret in an empty store under whatever text is drawn. -/
theorem create_empty (token : String) :
    ∃ s', (usual.create "text" "password" 32 none).Ends (anyTokens fun _ => True).answers
      { store := .indexed .empty } (.ok token) s' := by
  let head : Bytes := List.replicate usual.lock.headLength 0
  have hl : head.length = usual.lock.headLength := List.length_replicate
  let e := Entry.fresh (.ofNat 0) token (usual.lock.lock "text" "password" head) none default
  let t : Scene := { store := .indexed ⟨[e], [(token, .ofNat 0)]⟩ }
  refine ⟨t, Exists.intro _ ⟨_, ⟨.inl rfl, rfl⟩, ?_⟩⟩
  refine Exists.intro (.ok token) ⟨_, ⟨trivial, rfl⟩, ?_⟩
  refine Exists.intro _ ⟨_, .inl ⟨rfl, rfl⟩, ?_⟩
  refine Exists.intro head ⟨_, ⟨hl, rfl⟩, ?_⟩
  refine Exists.intro default ⟨_, ⟨trivial, rfl⟩, ?_⟩
  refine Exists.intro (.ofNat 0) ⟨_, ⟨rfl, rfl⟩, ?_⟩
  exact Exists.intro _ ⟨_, .inl ⟨rfl, rfl⟩, rfl, rfl⟩

/-- **A token that was handed out**, whatever text the source of tokens gave.  A secret is kept in
one record more, under the token.  If the token is empty, every call on it is refused and changes
nothing; if the store does not take the expiry, every call on it fails at the expiry of the record
and changes nothing.  Otherwise every call on it reaches the record, reading under the password
gives the text until the expiry has passed, and so it is after any calls on it but its deletion. -/
theorem create_usable (v : Vault) (shows : Instant → Prop) {s s' : Scene}
    {text password token : String} {length : Nat} {expires : Option Instant}
    (hb : s.store.InStep) (hq : s.caller.raised = false)
    (hshows : ∀ t, shows t → s.store.Takes t)
    (h : (v.create text password length expires).Ends (anyTokens shows).answers s (.ok token) s') :
    (∀ c t, ∃ r t', (v.perform c).Ends (Manner.calm shows).answers t r t') ∧
      ∃ (front back : List Record) (e : Entry), s.store.records = front ++ back ∧
        s'.store.records = front ++ s.store.record e :: back ∧
        v.Keepsake s.store token text password expires e ∧
        (token = "" → ∀ c r s'', c.token? = some token →
          (v.perform c).Ends (Manner.calm shows).answers s' r s'' →
            r = .error .emptyToken ∧ s'' = s') ∧
        (token ≠ "" → (¬ ∀ t ∈ expires, s.store.Takes t) → ∀ c r s'', c.token? = some token →
          c.refusal? = none → (v.perform c).Ends (Manner.calm shows).answers s' r s'' →
            r = .error (.store (.unreadable (some 5))) ∧ s'' = s') ∧
        (token ≠ "" → (∀ t ∈ expires, s.store.Takes t) →
          Reached v shows s' front back (s.store.keepEntry e) ∧
          (∀ r s'', (v.read token password).Ends (Manner.calm shows).answers s' r s'' →
            s'' = s' ∧ ∃ now, shows now ∧
              r = match (s.store.keepEntry e).expires.filter (· < now) with
                | some moment => .error (.expired token moment)
                | none => .ok text) ∧
          ∀ s'', Later v shows token s' s'' →
            ∃ e', e'.token = token ∧ Reached v shows s'' front back e') := by
  obtain ⟨hp, hcaller, head, now, id, front, back, hfits, hnow, hrecords, hplaced⟩ :=
    create_places hb hq h
  let e := Entry.fresh id token (v.lock.lock text password head) expires now
  have hq' : s'.caller.raised = false := by rw [hcaller, hq]
  have hshows' : ∀ t, shows t → s'.store.Takes t := takes_of_ends h ▸ hshows
  refine ⟨fun c t => ?_, front, back, e, hrecords, hplaced.records, keepsake_fresh hfits, ?_, ?_,
    ?_⟩
  · exact Manner.exists_ends ⟨now, hnow⟩ (fun _ => ⟨id, trivial⟩) (fun _ => ⟨.ok "", trivial⟩) _ t
  · rintro rfl c r s'' hc he
    exact perform_empty hc he
  · intro ht hx c r s'' hc hheard he
    -- the record is found, and reading it stops at the column of its expiry
    refine perform_unread hq' ?_ hc hheard he
    rw [hplaced.find, Backing.unread_record_fresh (hshows now hnow) hx]
    rfl
  · intro ht hx
    have hstands : Stands s' front (s.store.record e) back (s.store.keepEntry e) :=
      { quiet := hq'
        placed := by rw [Backing.token_keepEntry, Backing.id_keepEntry]; exact hplaced
        reads := Backing.read_record_fresh (hshows now hnow) hx }
    -- what the store keeps has the token, though its instants may be cut
    have htoken : (s.store.keepEntry e).token = token := Backing.token_keepEntry
    refine ⟨hstands.reached hshows' (htoken ▸ ht), fun r s'' he => ?_, fun s'' hlater => ?_⟩
    · have hbegun := begin_both hq' ht hp he
      rw [← htoken] at hbegun
      obtain ⟨hopens, rfl⟩ := hstands.read_does hbegun
      obtain ⟨now, hnow, hr⟩ := hopens.active Backing.isHidden_keepEntry
        ((congrArg (v.lock.unlock · password) Backing.locked_keepEntry).trans
          (Lock.unlock_lock hfits))
      rw [htoken] at hr
      exact ⟨rfl, now, hnow, hr⟩
    · obtain ⟨htakes, e', ht', x', hs''⟩ := Later.stands (htoken.symm ▸ hlater) hstands hshows'
      have htoken' : e'.token = token := ht'.trans htoken
      exact ⟨e', htoken', hs''.reached (htakes ▸ hshows') (htoken'.symm ▸ ht)⟩

/-- A token with a text is handed out, and every call on it reaches the record. -/
theorem create_usable_token :
    ∃ s' e, (usual.create "text" "password" 32 none).Ends (anyTokens fun _ => True).answers
        { store := .indexed .empty } (.ok "token") s' ∧
      usual.Keepsake (.indexed .empty) "token" "text" "password" none e ∧
      Reached usual (fun _ => True) s' [] [] e ∧
      ∀ r s'', (usual.read "token" "password").Ends (Manner.calm fun _ => True).answers s' r s'' →
        r = .ok "text" ∧ s'' = s' := by
  obtain ⟨s', h⟩ := create_empty "token"
  obtain ⟨-, front, back, e, hrecords, -, hkeepsake, -, -, husable⟩ :=
    create_usable (s := { store := .indexed .empty }) usual (fun _ => True)
      Store.Indexed.sound_empty rfl (fun _ _ => trivial) h
  obtain ⟨rfl, rfl⟩ := List.append_eq_nil_iff.1 hrecords.symm
  obtain ⟨hreached, hread, -⟩ := husable (by decide) (fun _ => nofun)
  refine ⟨s', e, h, hkeepsake, hreached, fun r s'' he => ?_⟩
  obtain ⟨rfl, now, -, hr⟩ := hread r s'' he
  have hexpires : (Backing.keepEntry (.indexed .empty) e).expires = none := hkeepsake.expiry
  rw [hexpires] at hr
  exact ⟨hr, rfl⟩

/-- A token without any text is handed out, and every call on it is refused, though the record is
there. -/
theorem exists_unusable :
    ∃ s' : Scene, (usual.create "text" "password" 32 none).Ends (anyTokens fun _ => True).answers
        { store := .indexed .empty } (.ok "") s' ∧
      (∃ x, s'.store.records = [x] ∧ x.token? = some "") ∧
      ∀ c r s'', c.token? = some "" →
        (usual.perform c).Ends (Manner.calm fun _ => True).answers s' r s'' →
        r = .error .emptyToken ∧ s'' = s' := by
  obtain ⟨s', h⟩ := create_empty ""
  obtain ⟨-, -, head, now, id, front, back, -, -, hrecords, hplaced⟩ :=
    create_places (s := { store := .indexed .empty }) Store.Indexed.sound_empty rfl h
  obtain ⟨rfl, rfl⟩ := List.append_eq_nil_iff.1 hrecords.symm
  exact ⟨s', h, ⟨_, hplaced.records, hplaced.named⟩, fun c r s'' hc he =>
    perform_empty hc he⟩

end Strongbox.Vault
