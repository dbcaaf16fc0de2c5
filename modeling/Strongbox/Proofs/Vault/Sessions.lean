import Strongbox.Proofs.Lock.Spelling
import Strongbox.Proofs.Settings
import Strongbox.Proofs.Store.Indexed
import Strongbox.Proofs.Vault.Register

/-!
# Vault — sessions

A vault over an indexed store answers like the register, whatever calls are made to it one after
another.  The store mirrors the register: under each token it finds an entry that keeps the secret
of the register, with the same locked text.

* `Mirrors`: the scene mirrors the register.
* `Mirrors.perform`: a call answers as the register does, and the scene after it mirrors the
  register after it.
* `session_follows`: so does any session that starts with an empty store.
* `session_refused`: calls may fail for other reasons than what the register holds.
-/

namespace Strongbox.Vault

/-- The entry keeps the secret. -/
structure Keeps (v : Vault) (e : Entry) (x : Secret) : Prop where
  locked : e.locked = x.locked
  made : v.Locks x.text x.password x.locked
  created : e.created = x.created
  updated : e.updated = x.updated
  expires : e.expires = x.expires
  hidden : e.hidden = x.hidden

/-- The scene mirrors the register, and nobody has cancelled. -/
structure Mirrors (v : Vault) (R : Register) (s : Scene) : Prop where
  quiet : s.caller.raised = false
  store : ∃ st : Store.Indexed, s.store = .indexed st ∧ st.Sound ∧
    ∀ token, Option.Rel v.Keeps (st.findToken token) (R token)

/-- The entry is found under a token and keeps the secret that the register has there. -/
structure Found (v : Vault) (R : Register) (s : Scene) (token : String) (e : Entry) (x : Secret) :
    Prop where
  entry : ∃ st : Store.Indexed, s.store = .indexed st ∧ st.findToken token = some e
  secret : R token = some x
  keeps : v.Keeps e x

section

variable {α : Type} {v : Vault} {R : Register} {now : Instant} {s s' : Scene} {token : String}
  {e : Entry} {x : Secret}

theorem Keeps.isHidden (h : v.Keeps e x) : e.isHidden = x.hidden.isSome := by
  rw [Entry.isHidden, h.hidden]

/-- What is told of the entry is what the secret has. -/
theorem Keeps.info (h : v.Keeps e x) :
    e.info = ⟨e.token, x.created, x.updated, x.expires, x.hidden, some .current⟩ := by
  rw [Entry.info, h.created, h.updated, h.expires, h.hidden, h.locked, h.made.format]

/-- Unlocking the entry opens the secret. -/
theorem Keeps.opens (h : v.Keeps e x) (password : String) :
    x.Opens v password ((v.lock.unlock e.locked password).mapError .decryption) := by
  rw [h.locked]
  by_cases hp : password = x.password
  · rw [Secret.Opens, if_pos hp, hp, h.made.unlock]
    rfl
  · rw [Secret.Opens, if_neg hp]

/-! ### Look-ups -/

theorem now_bind {f : Instant → Job α} {r : Except VaultError α}
    (h : Job.Ends (v.manner now).answers (Job.reply .now >>= f) s r s') :
    (f now).Ends (v.manner now).answers s r s' := by
  obtain ⟨_, t, ⟨rfl, rfl⟩, h₁⟩ := Job.ends_reply_bind.1 h
  exact h₁

theorem freshId_bind {f : Uuid → Job α} {r : Except VaultError α}
    (h : Job.Ends (v.manner now).answers (Job.reply .freshId >>= f) s r s') :
    ∃ id, s.store.Lacks id ∧ (f id).Ends (v.manner now).answers s r s' := by
  obtain ⟨id, t, ⟨hid, rfl⟩, h₁⟩ := Job.ends_reply_bind.1 h
  exact ⟨id, hid, h₁⟩

/-- What the generator of the vault makes for a length. -/
theorem make_cases (v : Vault) (length millis : Nat) (supply : Supply) :
    (v.settings.tokens.least ≤ length ∧ length ≤ v.settings.tokens.most ∧
        ∃ token, v.Makes length token ∧
          (v.generator.make length millis supply).map (·.1) = .ok token) ∨
      (¬ (v.settings.tokens.least ≤ length ∧ length ≤ v.settings.tokens.most) ∧
        (v.generator.make length millis supply).map (·.1)
          = .error ⟨length, v.settings.tokens.least, v.settings.tokens.most⟩) := by
  obtain ⟨hl, hm⟩ := v.generator_bounds
  by_cases h : v.generator.least ≤ length ∧ length ≤ v.generator.most
  · have hmake : ∃ token rest, v.generator.make length millis supply = .ok (token, rest) :=
      ⟨_, _, by rw [Token.Generator.make, if_pos h]⟩
    obtain ⟨token, rest, hmake⟩ := hmake
    rw [hl, hm] at h
    exact .inl ⟨h.1, h.2, token, ⟨millis, supply, rest, hmake⟩, by rw [hmake]; rfl⟩
  · refine .inr ⟨by rwa [hl, hm] at h, ?_⟩
    rw [Token.Generator.make, if_neg h, hl, hm]
    rfl

/-- The generator of the vault keeps to the bounds. -/
theorem bounds_of_makes (v : Vault) {length : Nat} {token : String} (h : v.Makes length token) :
    v.settings.tokens.least ≤ length ∧ length ≤ v.settings.tokens.most := by
  obtain ⟨millis, supply, rest, hmake⟩ := h
  rcases v.make_cases length millis supply with ⟨hl, hm, -⟩ | ⟨-, he⟩
  · exact ⟨hl, hm⟩
  · rw [hmake] at he
    cases he

namespace Mirrors

theorem checkpoint_bind (hs : Mirrors v R s) {f : Unit → Job α} {r : Except VaultError α}
    (h : Job.Ends (v.manner now).answers (Job.checkpoint 0 >>= f) s r s') :
    (f ()).Ends (v.manner now).answers s r s' :=
  Manner.checkpoint_bind id hs.quiet h

/-- What a search answers: nothing if the register has no secret, and else its entry. -/
theorem answer_findToken (hs : Mirrors v R s) (token : String) :
    ∃ found, s.store.answer (.findToken token) = (.ok found, s.store) ∧
      ((found = none ∧ R token = none) ∨ ∃ e x, found = some e ∧ Found v R s token e x) := by
  obtain ⟨st, hst, -, hrel⟩ := hs.store
  refine ⟨st.findToken token, by rw [hst]; rfl, ?_⟩
  have hr := hrel token
  cases hR : R token with
  | none =>
      rw [hR] at hr
      cases hf : st.findToken token with
      | none => exact .inl ⟨rfl, rfl⟩
      | some e => rw [hf] at hr; cases hr
  | some x =>
      rw [hR] at hr
      cases hf : st.findToken token with
      | none => rw [hf] at hr; cases hr
      | some e =>
          rw [hf] at hr
          cases hr with
          | some hk => exact .inr ⟨e, x, rfl, ⟨st, hst, hf⟩, hR, hk⟩

/-- What is found under a token. -/
theorem findToken_bind (hs : Mirrors v R s) {f : Option Entry → Job α} {r : Except VaultError α}
    (h : Job.Ends (v.manner now).answers (Job.call (.findToken token) >>= f) s r s') :
    (R token = none ∧ (f none).Ends (v.manner now).answers s r s') ∨
      ∃ e x, Found v R s token e x ∧ (f (some e)).Ends (v.manner now).answers s r s' := by
  obtain ⟨found, hfind, hcases⟩ := hs.answer_findToken token
  have h₁ := Vault.findToken_bind id hfind h
  rcases hcases with ⟨rfl, hR⟩ | ⟨e, x, rfl, hfound⟩
  · exact .inl ⟨hR, h₁⟩
  · exact .inr ⟨e, x, hfound, h₁⟩

/-- The entry that is found is a row of the store. -/
theorem row (hs : Mirrors v R s) (hf : Found v R s token e x) :
    ∃ st : Store.Indexed, s.store = .indexed st ∧ st.Sound ∧
      (∀ t, Option.Rel v.Keeps (st.findToken t) (R t)) ∧ e ∈ st.rows ∧ e.token = token := by
  obtain ⟨st, hst, hsound, hrel⟩ := hs.store
  obtain ⟨st', hst', hfind⟩ := hf.entry
  obtain rfl : st' = st := by
    rw [hst] at hst'
    exact (Backing.indexed.inj hst').symm
  exact ⟨st', hst, hsound, hrel, hsound.findToken_eq_some.1 hfind⟩

theorem anyEntry_bind (hs : Mirrors v R s) {f : Entry → Job α} {r : Except VaultError α}
    (h : Job.Ends (v.manner now).answers (anyEntry token >>= f) s r s') :
    (R token = none ∧ r = .error (.notFound token) ∧ s' = s) ∨
      ∃ e x, Found v R s token e x ∧ (f e).Ends (v.manner now).answers s r s' := by
  obtain ⟨found, hfind, hcases⟩ := hs.answer_findToken token
  rcases Vault.anyEntry_bind id hfind h with ⟨rfl, hr⟩ | ⟨e, rfl, hf⟩
  · rcases hcases with ⟨-, hR⟩ | ⟨_, _, hno, -⟩
    · exact .inl ⟨hR, hr⟩
    · cases hno
  · rcases hcases with ⟨hno, -⟩ | ⟨_, x, heq, hfound⟩
    · cases hno
    · obtain rfl := Option.some.inj heq
      exact .inr ⟨e, x, hfound, hf⟩

theorem activeEntry_bind (hs : Mirrors v R s) {f : Entry → Job α} {r : Except VaultError α}
    (h : Job.Ends (v.manner now).answers (activeEntry token >>= f) s r s') :
    (R.active? token = none ∧ r = .error (.notFound token) ∧ s' = s) ∨
      ∃ e x, Found v R s token e x ∧ R.active? token = some x ∧
        (f e).Ends (v.manner now).answers s r s' := by
  obtain ⟨found, hfind, hcases⟩ := hs.answer_findToken token
  rcases Vault.activeEntry_bind id hfind h with ⟨hhidden, hr⟩ | ⟨e, rfl, hshown, hf⟩
  · refine .inl ⟨?_, hr⟩
    rcases hcases with ⟨-, hR⟩ | ⟨e, x, rfl, hfound⟩
    · rw [Register.active?, hR]
      rfl
    · rw [Register.active?_eq hfound.secret, ← hfound.keeps.isHidden, hhidden e rfl]
      rfl
  · rcases hcases with ⟨hno, -⟩ | ⟨_, x, heq, hfound⟩
    · cases hno
    · obtain rfl := Option.some.inj heq
      refine .inr ⟨e, x, hfound, ?_, hf⟩
      rw [Register.active?_eq hfound.secret, ← hfound.keeps.isHidden, hshown]
      rfl

/-! ### Writing -/

/-- An update of an entry that is found. -/
theorem update_ends (hs : Mirrors v R s) (hf : Found v R s token e x) {source : Entry}
    {fields : List Field} {x' : Secret} (hk : v.Keeps (e.setFields source fields) x')
    (hid : e.id = source.id) {r : Except VaultError Unit}
    (h : Job.Ends (v.manner now).answers (Job.call (.update source fields)) s r s') :
    r = .ok () ∧ Mirrors v (R.set token (some x')) s' := by
  obtain ⟨st, hst, hsound, hrel, hm, ht⟩ := hs.row hf
  obtain ⟨y, hy, rfl⟩ := Job.ends_call.1 h
  obtain ⟨rfl, rfl⟩ := Manner.eq_of_call (fun h => h) hy
  have ha : s.store.answer (.update source fields) = (.ok (), .indexed
      { st with rows := st.rows.map (Store.Indexed.rewrite source fields) }) := by
    simp only [hst, Backing.answer, Store.Indexed.answer, Store.Indexed.update_eq hsound hm hid]
  refine ⟨by rw [ha]; rfl, hs.quiet, _, by rw [Scene.after, ha], hsound.update source fields,
    fun t => ?_⟩
  rw [Store.Indexed.findToken_update hsound]
  by_cases htt : t = token
  · rw [htt, hsound.findToken_eq_some.2 ⟨hm, ht⟩, Option.map_some, Store.Indexed.rewrite,
      if_pos hid, Register.set, if_pos rfl]
    exact .some hk
  · rw [Register.set, if_neg htt]
    have hr := hrel t
    cases hft : st.findToken t with
    | none => rwa [hft] at hr
    | some a =>
        obtain ⟨hma, rfl⟩ := hsound.findToken_eq_some.1 hft
        -- ids are as distinct as tokens, so the update passes this entry by
        have hne : a.id ≠ source.id := fun he =>
          htt (((hsound.id_eq_iff hma hm).1 (he.trans hid.symm)).trans ht)
        rw [Option.map_some, Store.Indexed.rewrite, if_neg hne]
        rwa [hft] at hr

/-- The active entry is changed, if there is one. -/
theorem active_changes (hs : Mirrors v R s) (source : Entry → Instant → Entry)
    {fields : List Field} {change : Secret → Secret}
    (hk : ∀ e x, v.Keeps e x → v.Keeps (e.setFields (source e now) fields) (change x))
    (hid : ∀ e t, e.id = (source e t).id) {r : Except VaultError Unit}
    (h : Job.Ends (v.manner now).answers (activeEntry token >>= fun e =>
      Job.reply .now >>= fun t => Job.call (.update (source e t) fields)) s r s') :
    ∃ R', R.Changes token (R.active? token) (fun x => some (change x)) r R' ∧ Mirrors v R' s' := by
  rcases hs.activeEntry_bind h with ⟨hno, rfl, rfl⟩ | ⟨e, x, hf, hact, h₁⟩
  · exact ⟨R, Register.changes_none hno, hs⟩
  · obtain ⟨rfl, hs'⟩ := hs.update_ends hf (hk e x hf.keeps) (hid e now) (now_bind h₁)
    exact ⟨_, Register.changes_some hact, hs'⟩

/-- An entry that is found is taken out. -/
theorem erase_ends (hs : Mirrors v R s) (hf : Found v R s token e x) {r : Except VaultError Unit}
    (h : Job.Ends (v.manner now).answers (Job.call (.erase e.id)) s r s') :
    r = .ok () ∧ Mirrors v (R.set token none) s' := by
  obtain ⟨st, hst, hsound, hrel, hm, rfl⟩ := hs.row hf
  obtain ⟨y, hy, rfl⟩ := Job.ends_call.1 h
  obtain ⟨rfl, rfl⟩ := Manner.eq_of_call (fun h => h) hy
  have ha : s.store.answer (.erase e.id) = (.ok (), .indexed
      ⟨st.rows.filter (·.id != e.id), st.index.filter (·.1 != e.token)⟩) := by
    simp only [hst, Backing.answer, Store.Indexed.answer, Store.Indexed.erase_eq hsound hm]
  refine ⟨by rw [ha]; rfl, hs.quiet, _, by rw [Scene.after, ha], hsound.erase hm, fun t => ?_⟩
  rw [Store.Indexed.findToken_erase hsound hm, Register.set]
  split
  · exact .none
  · exact hrel t

/-- A new entry under a free token. -/
theorem store_ends (hs : Mirrors v R s) (hfree : R token = none) {text password : String}
    {expires : Option Instant} {r : Except VaultError Unit}
    (h : (v.store token text password expires).Ends (v.manner now).answers s r s') :
    ∃ R', R.Puts v token text password (fun locked => .fresh text password locked expires now) r
      R' ∧ Mirrors v R' s' := by
  obtain ⟨st, hst, hsound, hrel⟩ := hs.store
  rcases lockText_bind h with ⟨error, hfault, rfl, rfl⟩ | ⟨head, hfits, h₁⟩
  · exact ⟨R, Register.puts_of_fault hfault, hs⟩
  obtain ⟨id, hid, h₂⟩ := freshId_bind (now_bind h₁)
  obtain ⟨y, hy, rfl⟩ := Job.ends_call.1 h₂
  obtain ⟨rfl, rfl⟩ := Manner.eq_of_call (fun h => h) hy
  have hnone : st.findToken token = none := by
    have hr := hrel token
    rw [hfree] at hr
    cases hf : st.findToken token with
    | none => rfl
    | some e => rw [hf] at hr; cases hr
  have hlacks : st.row? id = none := by
    rwa [hst] at hid
  let e := Entry.fresh id token (v.lock.lock text password head) expires now
  have ha : s.store.answer (.create e) = (.ok (), .indexed
      ⟨Store.Indexed.insertRow e st.rows, (e.token, e.id) :: st.index⟩) := by
    simp only [hst, Backing.answer, Store.Indexed.answer,
      Store.Indexed.create_eq (e := e) hsound hnone hlacks]
  have hr : Except.mapError VaultError.store (s.store.answer (.create e)).1 = .ok () := by
    rw [ha]
    rfl
  refine ⟨_, hr ▸ Register.puts_of_fits hfits, hs.quiet, _, by rw [Scene.after, ha],
    hsound.create (e := e) hnone hlacks, fun u => ?_⟩
  rw [Store.Indexed.findToken_create (e := e) hsound hnone hlacks, Register.set]
  by_cases hu : u = token
  · rw [if_pos hu, if_pos (show u = e.token from hu)]
    exact .some ⟨rfl, locks_of_fits hfits, rfl, rfl, rfl, rfl⟩
  · rw [if_neg hu, if_neg (show u ≠ e.token from hu)]
    exact hrel u

/-! ### Drawing a token -/

/-- A token that is free, or none because the length is out of bounds or each one drawn was
taken. -/
theorem freeToken_ends (hs : Mirrors v R s) {length left : Nat} {r : Except VaultError String}
    (h : (v.freeToken length left).Ends (v.manner now).answers s r s') :
    s' = s ∧
      ((∃ token, v.Makes length token ∧ R token = none ∧ r = .ok token) ∨
        (¬ (v.settings.tokens.least ≤ length ∧ length ≤ v.settings.tokens.most) ∧
          r = .error (.token ⟨length, v.settings.tokens.least, v.settings.tokens.most⟩)) ∨
        ∃ drawn : List String, drawn.length = left ∧
          (∀ token ∈ drawn, v.Makes length token ∧ (R token).isSome) ∧
          r = .error (.tokenCollision v.settings.tokens.attempts)) := by
  -- with each draw that is taken, one token more stands in the list of those drawn
  induction left with
  | zero =>
      obtain ⟨rfl, rfl⟩ := Job.ends_throw.1 h
      exact ⟨rfl, .inr (.inr ⟨[], rfl, nofun, rfl⟩)⟩
  | succ left ih =>
      obtain ⟨candidate, t, ⟨⟨millis, supply, rfl⟩, rfl⟩, h₁⟩ := Job.ends_reply_bind.1 h
      rcases v.make_cases length millis supply with ⟨-, -, token, hmake, he⟩ | ⟨hno, he⟩
      · rw [he] at h₁
        rcases hs.findToken_bind (Job.ends_ofExcept_bind.1 h₁) with
          ⟨hfree, h₂⟩ | ⟨e, x, hfound, h₂⟩
        · obtain ⟨rfl, rfl⟩ := Job.ends_pure.1 h₂
          exact ⟨rfl, .inl ⟨token, hmake, hfree, rfl⟩⟩
        · obtain ⟨rfl, hfreed | hbounds | ⟨drawn, hlen, htaken, rfl⟩⟩ := ih h₂
          · exact ⟨rfl, .inl hfreed⟩
          · exact ⟨rfl, .inr (.inl hbounds)⟩
          · refine ⟨rfl, .inr (.inr ⟨token :: drawn, by rw [List.length_cons, hlen], ?_, rfl⟩)⟩
            intro u hu
            rcases List.mem_cons.1 hu with rfl | hu
            · exact ⟨hmake, by rw [hfound.secret]; rfl⟩
            · exact htaken u hu
      · rw [he] at h₁
        obtain ⟨rfl, rfl⟩ := Job.ends_ofExcept_bind.1 h₁
        exact ⟨rfl, .inr (.inl ⟨hno, rfl⟩)⟩

/-! ### Refusals -/

/-- The call goes on as `f`, once the token has been looked at and the caller. -/
theorem gives_token (hs : Mirrors v R s) {c : Call} (ht : c.token? = some token)
    (hp : c.password? = none) {f : Unit → Job c.Answer} {r : Except VaultError c.Answer}
    (h : Job.Ends (v.manner now).answers
      (requireToken token >>= fun _ => Job.checkpoint 0 >>= f) s r s')
    (hf : (f ()).Ends (v.manner now).answers s r s' →
      ∃ R', R.Answers v now c r R' ∧ Mirrors v R' s') :
    ∃ R', R.Gives v now c r R' ∧ Mirrors v R' s' := by
  rcases requireToken_bind h with ⟨rfl, rfl, rfl⟩ | ⟨hne, h₁⟩
  · exact ⟨R, Register.gives_of_refusal (by simp [Call.refusal?, ht]), hs⟩
  · obtain ⟨R', ha, hs'⟩ := hf (hs.checkpoint_bind h₁)
    exact ⟨R', Register.gives_of_answers (by simp [Call.refusal?, ht, hp, hne]) ha, hs'⟩

/-- The call goes on as `f`, once the password has been looked at and the caller. -/
theorem gives_password (hs : Mirrors v R s) {c : Call} {password : String} (ht : c.token? = none)
    (hp : c.password? = some password) {f : Unit → Job c.Answer} {r : Except VaultError c.Answer}
    (h : Job.Ends (v.manner now).answers
      (requirePassword password >>= fun _ => Job.checkpoint 0 >>= f) s r s')
    (hf : (f ()).Ends (v.manner now).answers s r s' →
      ∃ R', R.Answers v now c r R' ∧ Mirrors v R' s') :
    ∃ R', R.Gives v now c r R' ∧ Mirrors v R' s' := by
  rcases requirePassword_bind h with ⟨rfl, rfl, rfl⟩ | ⟨hne, h₁⟩
  · exact ⟨R, Register.gives_of_refusal (by simp [Call.refusal?, ht, hp]), hs⟩
  · obtain ⟨R', ha, hs'⟩ := hf (hs.checkpoint_bind h₁)
    exact ⟨R', Register.gives_of_answers (by simp [Call.refusal?, ht, hp, hne]) ha, hs'⟩

/-- The call goes on as `f`, once token and password have been looked at and the caller. -/
theorem gives_both (hs : Mirrors v R s) {c : Call} {password : String}
    (ht : c.token? = some token) (hp : c.password? = some password) {f : Unit → Job c.Answer}
    {r : Except VaultError c.Answer}
    (h : Job.Ends (v.manner now).answers
      (requireToken token >>= fun _ => requirePassword password >>= fun _ =>
        Job.checkpoint 0 >>= f) s r s')
    (hf : (f ()).Ends (v.manner now).answers s r s' →
      ∃ R', R.Answers v now c r R' ∧ Mirrors v R' s') :
    ∃ R', R.Gives v now c r R' ∧ Mirrors v R' s' := by
  rcases requireToken_bind h with ⟨rfl, rfl, rfl⟩ | ⟨hne, h₁⟩
  · exact ⟨R, Register.gives_of_refusal (by simp [Call.refusal?, ht]), hs⟩
  · rcases requirePassword_bind h₁ with ⟨rfl, rfl, rfl⟩ | ⟨hne', h₂⟩
    · exact ⟨R, Register.gives_of_refusal (by simp [Call.refusal?, ht, hp, hne]), hs⟩
    · obtain ⟨R', ha, hs'⟩ := hf (hs.checkpoint_bind h₂)
      exact ⟨R', Register.gives_of_answers (by simp [Call.refusal?, ht, hp, hne, hne']) ha, hs'⟩

/-! ### One call -/

theorem create_gives (hs : Mirrors v R s) {text password : String} {length : Nat}
    {expires : Option Instant} {r : Except VaultError String}
    (h : Job.Ends (v.manner now).answers (v.freeToken length v.settings.tokens.attempts >>=
      fun token => v.store token text password expires >>= fun _ => pure token) s r s') :
    ∃ R', R.Creates v now text password length expires r R' ∧ Mirrors v R' s' := by
  rcases Job.ends_bind.1 h with ⟨token, t, ht, h₁⟩ | ⟨error, ht, rfl⟩
  · obtain ⟨rfl, ⟨token', hmake, hfree, heq⟩ | ⟨-, heq⟩ | ⟨-, -, -, heq⟩⟩ := hs.freeToken_ends ht
    · obtain rfl := Except.ok.inj heq
      have hbounds := v.bounds_of_makes hmake
      rcases Job.ends_bind.1 h₁ with ⟨_, t', hstore, h₂⟩ | ⟨error, hstore, rfl⟩
      · obtain ⟨rfl, rfl⟩ := Job.ends_pure.1 h₂
        obtain ⟨R', hput, hs'⟩ := hs.store_ends hfree hstore
        exact ⟨R', Register.creates_of_puts hbounds hmake hfree hput, hs'⟩
      · obtain ⟨R', hput, hs'⟩ := hs.store_ends hfree hstore
        exact ⟨R', Register.creates_of_puts hbounds hmake hfree hput, hs'⟩
    · cases heq
    · cases heq
  · obtain ⟨rfl, ⟨token', -, -, heq⟩ | ⟨hno, heq⟩ | ⟨drawn, hlen, htaken, heq⟩⟩ :=
      hs.freeToken_ends ht
    · cases heq
    · refine ⟨R, ?_, hs⟩
      rw [Register.Creates, if_neg hno]
      exact ⟨heq, rfl⟩
    · refine ⟨R, ?_, hs⟩
      -- a token was drawn at all, so the length is one that the generator takes
      obtain ⟨token, hmem⟩ := List.exists_mem_of_length_pos
        (hlen ▸ (Settings.tokens_sound v.sound).2.2.2)
      rw [Register.Creates, if_pos (v.bounds_of_makes (htaken token hmem).1)]
      exact .inr ⟨drawn, hlen, htaken, heq, rfl⟩

theorem createCustom_gives (hs : Mirrors v R s) {text password : String}
    {expires : Option Instant} {r : Except VaultError Unit}
    (h : (v.createCustom token text password expires).Ends (v.manner now).answers s r s') :
    ∃ R', R.Gives v now (.createCustom token text password expires) r R' ∧ Mirrors v R' s' := by
  refine hs.gives_both rfl rfl h fun h₁ => ?_
  rcases hs.findToken_bind h₁ with ⟨hfree, h₂⟩ | ⟨e, x, hf, h₂⟩
  · simp only [Register.Answers, hfree]
    exact hs.store_ends hfree h₂
  · obtain ⟨rfl, rfl⟩ := Job.ends_throw.1 h₂
    refine ⟨R, ?_, hs⟩
    simp only [Register.Answers, hf.secret, and_self]

theorem read_gives (hs : Mirrors v R s) {password : String} {r : Except VaultError String}
    (h : (v.read token password).Ends (v.manner now).answers s r s') :
    ∃ R', R.Gives v now (.read token password) r R' ∧ Mirrors v R' s' := by
  refine hs.gives_both rfl rfl h fun h₁ => ?_
  rcases hs.activeEntry_bind h₁ with ⟨hno, rfl, rfl⟩ | ⟨e, x, hf, hact, h₂⟩
  · refine ⟨R, ?_, hs⟩
    simp only [Register.Answers, Register.Reads, hno, and_self]
  · have h₃ := now_bind h₂
    have he : e.expires = x.expires := hf.keeps.expires
    cases hx : x.expires with
    | none =>
        simp only [he, hx] at h₃
        obtain ⟨rfl, rfl⟩ := Job.ends_ofExcept.1 h₃
        refine ⟨R, ⟨?_, rfl⟩, hs⟩
        simp only [Register.Reads, hact, hx, Option.filter_none]
        exact hf.keeps.opens password
    | some moment =>
        simp only [he, hx] at h₃
        by_cases hm : moment < now
        · rw [if_pos hm] at h₃
          obtain ⟨rfl, rfl⟩ := Job.ends_throw.1 h₃
          have hexpired : x.expires.filter (· < now) = some moment := by simp [hx, hm]
          refine ⟨R, ⟨?_, rfl⟩, hs⟩
          simp only [Register.Reads, hact, hexpired]
        · rw [if_neg hm] at h₃
          obtain ⟨rfl, rfl⟩ := Job.ends_ofExcept.1 h₃
          have hgood : x.expires.filter (· < now) = none := by simp [hx, hm]
          refine ⟨R, ⟨?_, rfl⟩, hs⟩
          simp only [Register.Reads, hact, hgood]
          exact hf.keeps.opens password

theorem update_gives (hs : Mirrors v R s) {text password : String} {r : Except VaultError Unit}
    (h : (v.update token text password).Ends (v.manner now).answers s r s') :
    ∃ R', R.Gives v now (.update token text password) r R' ∧ Mirrors v R' s' := by
  refine hs.gives_both rfl rfl h fun h₁ => ?_
  rcases hs.activeEntry_bind h₁ with ⟨hno, rfl, rfl⟩ | ⟨e, x, hf, hact, h₂⟩
  · refine ⟨R, ?_, hs⟩
    simp only [Register.Answers, hno, and_self]
  · simp only [Register.Answers, hact]
    rcases lockText_bind h₂ with ⟨error, hfault, rfl, rfl⟩ | ⟨head, hfits, h₃⟩
    · exact ⟨R, Register.puts_of_fault hfault, hs⟩
    · have hk : v.Keeps (e.setFields { e with
          locked := v.lock.lock text password head, updated := now } [.locked, .updated])
          { x with text, password, locked := v.lock.lock text password head, updated := now } :=
        ⟨rfl, locks_of_fits hfits, hf.keeps.created, rfl, hf.keeps.expires, hf.keeps.hidden⟩
      obtain ⟨rfl, hs'⟩ := hs.update_ends hf hk rfl (now_bind h₃)
      exact ⟨_, Register.puts_of_fits hfits, hs'⟩

theorem delete_gives (hs : Mirrors v R s) {r : Except VaultError Unit}
    (h : (Vault.delete token).Ends (v.manner now).answers s r s') :
    ∃ R', R.Gives v now (.delete token) r R' ∧ Mirrors v R' s' := by
  refine hs.gives_token rfl rfl h fun h₁ => ?_
  rcases hs.anyEntry_bind h₁ with ⟨hno, rfl, rfl⟩ | ⟨e, x, hf, h₂⟩
  · exact ⟨R, Register.changes_none hno, hs⟩
  · obtain ⟨rfl, hs'⟩ := hs.erase_ends hf h₂
    exact ⟨_, Register.changes_some hf.secret, hs'⟩

theorem hide_gives (hs : Mirrors v R s) {r : Except VaultError Unit}
    (h : (Vault.hide token).Ends (v.manner now).answers s r s') :
    ∃ R', R.Gives v now (.hide token) r R' ∧ Mirrors v R' s' := by
  have hk : ∀ e x, v.Keeps e x →
      v.Keeps (e.setFields { e with hidden := some now, updated := now } [.hidden, .updated])
        { x with hidden := some now, updated := now } :=
    fun _ _ h => ⟨h.locked, h.made, h.created, rfl, h.expires, rfl⟩
  exact hs.gives_token rfl rfl h fun h₁ =>
    hs.active_changes (fun e t => { e with hidden := some t, updated := t }) hk (fun _ _ => rfl) h₁

theorem restore_gives (hs : Mirrors v R s) {r : Except VaultError Unit}
    (h : (Vault.restore token).Ends (v.manner now).answers s r s') :
    ∃ R', R.Gives v now (.restore token) r R' ∧ Mirrors v R' s' := by
  refine hs.gives_token rfl rfl h fun h₁ => ?_
  rcases hs.anyEntry_bind h₁ with ⟨hno, rfl, rfl⟩ | ⟨e, x, hf, h₂⟩
  · exact ⟨R, Register.changes_none (by simp [Register.hidden?, hno]), hs⟩
  · have hx := hf.keeps.isHidden
    have hh := Register.hidden?_eq hf.secret
    cases he : e.isHidden with
    | false =>
        rw [← hx, he] at hh
        simp only [he, Bool.false_eq_true, if_false] at h₂
        obtain ⟨rfl, rfl⟩ := Job.ends_throw.1 h₂
        exact ⟨R, Register.changes_none hh, hs⟩
    | true =>
        rw [← hx, he] at hh
        simp only [he, if_true] at h₂
        have hk : v.Keeps
            (e.setFields { e with hidden := none, updated := now } [.hidden, .updated])
            { x with hidden := none, updated := now } :=
          ⟨hf.keeps.locked, hf.keeps.made, hf.keeps.created, rfl, hf.keeps.expires, rfl⟩
        obtain ⟨rfl, hs'⟩ := hs.update_ends hf hk rfl (now_bind h₂)
        exact ⟨_, Register.changes_some hh, hs'⟩

theorem renew_gives (hs : Mirrors v R s) {expires : Option Instant} {r : Except VaultError Unit}
    (h : (Vault.renew token expires).Ends (v.manner now).answers s r s') :
    ∃ R', R.Gives v now (.renew token expires) r R' ∧ Mirrors v R' s' := by
  have hk : ∀ e x, v.Keeps e x →
      v.Keeps (e.setFields { e with expires, updated := now } [.expires, .updated])
        { x with expires, updated := now } :=
    fun _ _ h => ⟨h.locked, h.made, h.created, rfl, rfl, h.hidden⟩
  exact hs.gives_token rfl rfl h fun h₁ =>
    hs.active_changes (fun e t => { e with expires, updated := t }) hk (fun _ _ => rfl) h₁

theorem inspect_gives (hs : Mirrors v R s) {r : Except VaultError EntryInfo}
    (h : (Vault.inspect token).Ends (v.manner now).answers s r s') :
    ∃ R', R.Gives v now (.inspect token) r R' ∧ Mirrors v R' s' := by
  refine hs.gives_token rfl rfl h fun h₁ => ?_
  rcases hs.anyEntry_bind h₁ with ⟨hno, rfl, rfl⟩ | ⟨e, x, hf, h₂⟩
  · refine ⟨R, ?_, hs⟩
    simp only [Register.Answers, hno, and_self]
  · obtain ⟨rfl, rfl⟩ := Job.ends_pure.1 h₂
    obtain ⟨-, -, -, -, -, ht⟩ := hs.row hf
    refine ⟨R, ?_, hs⟩
    simp only [Register.Answers, hf.secret, hf.keeps.info, ht, and_self]

/-- **A call answers as the register does.**  The scene after the call mirrors the register after
it. -/
theorem perform (hs : Mirrors v R s) {c : Call} {r : Except VaultError c.Answer}
    (h : (v.perform c).Ends (v.manner now).answers s r s') :
    ∃ R', R.Gives v now c r R' ∧ Mirrors v R' s' := by
  cases c with
  | create text password length expires =>
      exact hs.gives_password rfl rfl h fun h₁ => hs.create_gives h₁
  | createDefault text password expires =>
      exact hs.gives_password rfl rfl h fun h₁ => hs.create_gives h₁
  | createCustom token text password expires => exact hs.createCustom_gives h
  | read token password => exact hs.read_gives h
  | update token text password => exact hs.update_gives h
  | delete token => exact hs.delete_gives h
  | hide token => exact hs.hide_gives h
  | restore token => exact hs.restore_gives h
  | renew token expires => exact hs.renew_gives h
  | inspect token => exact hs.inspect_gives h

end Mirrors

end

/-! ### Sessions -/

variable {v : Vault} {R : Register} {s s' : Scene} {events : List Event}

/-- An empty store mirrors a register without secrets. -/
theorem mirrors_empty (v : Vault) : v.Mirrors .empty { store := .indexed .empty } :=
  ⟨rfl, .empty, rfl, Store.Indexed.sound_empty, fun _ => .none⟩

/-- A session keeps the scene and the register in step. -/
theorem Mirrors.session (hs : v.Mirrors R s) (h : Session v s events s') :
    ∃ R', Register.Follows v R events R' ∧ v.Mirrors R' s' := by
  induction h generalizing R with
  | nil => exact ⟨R, .nil, hs⟩
  | cons h _ ih =>
      obtain ⟨R₁, hgives, hs₁⟩ := hs.perform h
      obtain ⟨R', hfollows, hs'⟩ := ih hs₁
      exact ⟨R', .cons hgives hfollows, hs'⟩

/-- **Whatever is done to a vault, it answers like a register.**  From an empty store on, each call
of a session gets the answer of the register of secrets, which the store goes on to mirror. -/
theorem session_follows (v : Vault)
    (h : Session v { store := .indexed .empty } events s') :
    ∃ R', Register.Follows v .empty events R' ∧ v.Mirrors R' s' :=
  v.mirrors_empty.session h

/-- A secret is kept, and then read. -/
def sampleEvents : List Event :=
  [⟨default, .createCustom "token" "text" "password" none, .ok ()⟩,
    ⟨default, .read "token" "password", .ok "text"⟩]

/-- The usual vault has the session. -/
theorem session_sampleEvents :
    ∃ s', Session usual { store := .indexed .empty } sampleEvents s' := by
  let head : Bytes := List.replicate usual.lock.headLength 0
  have hl : head.length = usual.lock.headLength := List.length_replicate
  let e := Entry.fresh (.ofNat 0) "token" (usual.lock.lock "text" "password" head) none default
  let t : Scene := { store := .indexed ⟨[e], [("token", .ofNat 0)]⟩ }
  refine ⟨t, .cons (t := t) ?_ (.cons (t := t) ?_ .nil)⟩
  · refine Exists.intro _ ⟨_, ⟨.inl rfl, rfl⟩, ?_⟩
    refine Exists.intro _ ⟨_, .inl ⟨rfl, rfl⟩, ?_⟩
    refine Exists.intro head ⟨_, ⟨hl, rfl⟩, ?_⟩
    refine Exists.intro default ⟨_, ⟨rfl, rfl⟩, ?_⟩
    refine Exists.intro (.ofNat 0) ⟨_, ⟨rfl, rfl⟩, ?_⟩
    exact Exists.intro _ ⟨_, .inl ⟨rfl, rfl⟩, rfl, rfl⟩
  · refine Exists.intro _ ⟨_, ⟨.inl rfl, rfl⟩, ?_⟩
    refine Exists.intro _ ⟨_, .inl ⟨rfl, rfl⟩, ?_⟩
    refine Exists.intro default ⟨_, ⟨rfl, rfl⟩, ?_⟩
    have hu : usual.lock.unlock e.locked "password" = .ok "text" := Lock.unlock_lock ⟨hl, rfl⟩
    exact Job.ends_ofExcept.2 ⟨by rw [hu]; rfl, rfl⟩

theorem session_follows_sampleEvents :
    ∃ s' R', Session usual { store := .indexed .empty } sampleEvents s' ∧
      Register.Follows usual .empty sampleEvents R' ∧ usual.Mirrors R' s' := by
  obtain ⟨s', h⟩ := session_sampleEvents
  obtain ⟨R', hfollows, hs'⟩ := session_follows usual h
  exact ⟨s', R', h, hfollows, hs'⟩

/-- Under a password that is too long, a new secret in an empty store is refused, once a token has
been drawn. -/
theorem create_empty_of_long {password : String} (hne : password ≠ "")
    (hlong : Argon2id.mostBytes < password.utf8ByteSize) :
    (usual.create "text" password 32 none).Ends (usual.manner default).answers
      { store := .indexed .empty }
      (.error (.encoding (.keyDerivation "Argon2 failed: password is too long")))
      { store := .indexed .empty } := by
  let zeros : Supply := ⟨fun _ => 0, 0, fun i => ⟨i, Nat.le_refl i, by decide⟩⟩
  obtain ⟨-, -, token, -, hmake⟩ | ⟨hno, -⟩ := usual.make_cases 32 0 zeros
  · refine requirePassword_pass hne (Job.ends_checkpoint_bind.2
      ⟨.idle, { store := .indexed .empty }, ⟨.inl rfl, rfl⟩, ?_⟩)
    have hdrawn : (usual.freeToken 32 usual.settings.tokens.attempts).Ends
        (usual.manner default).answers { store := .indexed .empty } (.ok token)
        { store := .indexed .empty } := by
      refine Job.ends_reply_bind.2 ⟨.ok token, _, ⟨⟨0, zeros, hmake.symm⟩, rfl⟩, ?_⟩
      refine Job.ends_ofExcept_bind.2 (Job.ends_call_bind.2 ⟨_, _, .inl ⟨rfl, rfl⟩, ?_⟩)
      exact Job.ends_pure.2 ⟨rfl, rfl⟩
    refine Job.ends_bind.2 (.inl ⟨token, _, hdrawn, Job.ends_bind.2 (.inr ⟨_, ?_, rfl⟩)⟩)
    refine ends_lockText_bind.2
      ⟨List.replicate usual.lock.headLength 0, _, ⟨List.length_replicate, rfl⟩, ?_⟩
    rw [Lock.lockFault?_of_long hlong]
    exact ⟨rfl, rfl⟩
  · exact absurd ⟨by decide, by decide⟩ hno

/-- A session with two calls that fail in an empty store, though not for want of a secret or of a
free token: reading without a token, and a new secret under a password of four gibibytes. -/
theorem session_refused :
    (usual.settings.tokens.least ≤ 32 ∧ 32 ≤ usual.settings.tokens.most) ∧
      (∀ token, Register.empty token = none) ∧
      Session usual { store := .indexed .empty }
        [⟨default, .read "" "password", .error .emptyToken⟩,
          ⟨default, .create "text" (Bytes.letters 4294967296) 32 none,
            .error (.encoding (.keyDerivation "Argon2 failed: password is too long"))⟩]
        { store := .indexed .empty } := by
  have hne : Bytes.letters 4294967296 ≠ "" := Bytes.letters_ne (by decide)
  have hread : (usual.read "" "password").Ends (usual.manner default).answers
      { store := .indexed .empty } (.error .emptyToken) { store := .indexed .empty } :=
    Job.ends_ofExcept_bind.2 ⟨rfl, rfl⟩
  exact ⟨⟨by decide, by decide⟩, fun _ => rfl,
    .cons hread (.cons (create_empty_of_long hne Lock.mostBytes_lt_letters) .nil)⟩

end Strongbox.Vault
