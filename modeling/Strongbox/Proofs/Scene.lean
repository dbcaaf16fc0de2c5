import Strongbox.Proofs.Lock.Spelling
import Strongbox.Proofs.Program.Ends
import Strongbox.Vault.Basic
import Strongbox.World

/-!
# Scenes

The surroundings of a program as far as the store and the caller's cancellation go.  A scene holds
the store, the state of the cancellation, and the list of the updates that the store has carried
out.  A manner says what else may happen: whether calls to the store may fail, whether the caller
may cancel, and which replies the clock and the sources of ids and tokens may give.

* `Manner.answers`: the surroundings of a manner.  Where they may answer in several ways, a program
  has several runs: one for every moment of a cancellation, every pattern of failing calls, every
  order of the turns of a pool and all random bytes.
* `Backing.answer_error`: a call that the store refuses leaves it as it was.
* `Manner.exists_ends`: every program has a run.
* `Vault.requireToken_bind`, `Vault.requirePassword_bind`, `Manner.checkpoint_bind`: how calls
  begin.
* `Vault.findToken_bind`, `Vault.anyEntry_bind`, `Vault.activeEntry_bind`: how they go on from what
  is found under a token.
-/

namespace Strongbox

/-! ### The caller -/

/-- The caller has done no more than cancel: a raised flag stays up, and a reason stays. -/
def Cancellation.Onward (c c' : Cancellation) : Prop :=
  (c.raised = true → c'.raised = true) ∧ ∀ reason, c.reason = some reason → c'.reason = some reason

theorem Cancellation.onward_refl (c : Cancellation) : c.Onward c :=
  ⟨id, fun _ => id⟩

/-- Cancelling with a reason is a step onward. -/
theorem Cancellation.onward_cancelWith (c : Cancellation) (reason : String) :
    c.Onward (c.cancelWith reason) :=
  ⟨fun _ => rfl, fun r h => by simp [cancelWith, setReason, raise, h]⟩

/-! ### The store -/

/-- The entries that a call, once carried out, has written over others. -/
def Store.Call.updates : Store.Call → List Entry
  | .update e _ => [e]
  | _ => []

namespace Backing

/-- No entry of the store has the id. -/
def Lacks (b : Backing) (id : Uuid) : Prop :=
  match b with
  | .indexed s => s.row? id = none
  | .table t => ∀ r ∈ t.rows, r.id ≠ some id.text

theorem indexed_answer_error {s : Store.Indexed} {c : Store.Call} {e : StoreError} :
    (s.answer c).1 = .error e → (s.answer c).2 = s := by
  cases c with
  | findId | findToken | list | count => exact fun _ => rfl
  | create =>
      simp only [Store.Indexed.answer, Store.Indexed.create]
      split
      · exact fun _ => rfl
      · nofun
  | update =>
      simp only [Store.Indexed.answer, Store.Indexed.update]
      split
      · nofun
      · exact fun _ => rfl
  | erase =>
      simp only [Store.Indexed.answer, Store.Indexed.erase]
      split
      · nofun
      · exact fun _ => rfl

theorem table_answer_error {t : Store.Table} {c : Store.Call} {e : StoreError} :
    (t.answer c).1 = .error e → (t.answer c).2 = t := by
  cases c with
  | findId | findToken | list | count => exact fun _ => rfl
  | create =>
      simp only [Store.Table.answer, Store.Table.create]
      split
      · nofun
      · exact fun _ => rfl
  | update =>
      simp only [Store.Table.answer, Store.Table.update]
      split
      · nofun
      · split
        · nofun
        · exact fun _ => rfl
  | erase =>
      simp only [Store.Table.answer, Store.Table.erase]
      split
      · nofun
      · exact fun _ => rfl

/-- A call that the store refuses leaves it as it was. -/
theorem answer_error {b : Backing} {c : Store.Call} {e : StoreError}
    (h : (b.answer c).1 = .error e) : (b.answer c).2 = b := by
  cases b with
  | indexed s => exact congrArg Backing.indexed (indexed_answer_error h)
  | table t => exact congrArg Backing.table (table_answer_error h)

end Backing

/-! ### Scenes -/

/-- What a program meets: the store, the caller's cancellation, and the updates that the store has
carried out, the latest first. -/
structure Scene where
  store : Backing
  caller : Cancellation := .idle
  written : List Entry := []

/-- The scene after the store has answered a call. -/
def Scene.after (s : Scene) (c : Store.Call) : Scene where
  store := (s.store.answer c).2
  caller := s.caller
  written :=
    match (s.store.answer c).1 with
    | .ok _ => c.updates ++ s.written
    | .error _ => s.written

theorem Scene.written_after {s : Scene} {c : Store.Call} {a : c.Answer}
    (h : (s.store.answer c).1 = .ok a) : (s.after c).written = c.updates ++ s.written := by
  simp only [after, h]

/-- A call that the store refuses leaves the scene as it was. -/
theorem Scene.after_of_error {s : Scene} {c : Store.Call} {e : StoreError}
    (h : (s.store.answer c).1 = .error e) : s.after c = s := by
  simp only [after, h, Backing.answer_error h]

/-- What surroundings may do. -/
structure Manner where
  /-- A call to the store may fail, which leaves the store as it was. -/
  failing : Prop
  /-- The caller may cancel. -/
  cancelling : Prop
  /-- What the clock may show. -/
  shows : Instant → Prop
  /-- What may be given as the id of a new entry. -/
  gives : Backing → Uuid → Prop
  /-- What may be drawn as a token of a given length. -/
  draws : Nat → Except LengthError String → Prop

/-- The surroundings of a manner. -/
def Manner.answers (m : Manner) : (r : Request) → Scene → r.Reply → Scene → Prop
  | .store c, s, x, s' =>
    (x = (s.store.answer c).1 ∧ s' = s.after c) ∨ (m.failing ∧ (∃ e, x = .error e) ∧ s' = s)
  | .cancellation, s, c, s' =>
    (c = s.caller ∨ m.cancelling ∧ s.caller.Onward c) ∧ s' = { s with caller := c }
  | .random n, s, bytes, s' => bytes.length = n ∧ s' = s
  | .now, s, t, s' => m.shows t ∧ s' = s
  | .freshId, s, id, s' => m.gives s.store id ∧ s' = s
  | .token n, s, token, s' => m.draws n token ∧ s' = s
  | .turns, s, _, s' => s' = s
  | .extent, s, n, s' => s.store.size ≤ n ∧ s' = s

namespace Manner

/-- Nobody cancels and no call fails. -/
def calm (shows : Instant → Prop) : Manner :=
  ⟨False, False, shows, fun _ _ => True, fun _ _ => True⟩

/-- Anybody may cancel and any call may fail, at any moment. -/
def rough (shows : Instant → Prop) : Manner :=
  ⟨True, True, shows, fun _ _ => True, fun _ _ => True⟩

variable {m : Manner} {s s' : Scene}

/-- Where the clock and the sources give something, every program has a run. -/
theorem exists_ends {α : Type} (hs : ∃ t, m.shows t) (hg : ∀ b, ∃ id, m.gives b id)
    (hd : ∀ n, ∃ token, m.draws n token) (p : Program α) (s : Scene) :
    ∃ a s', p.Ends m.answers s a s' := by
  refine Program.exists_ends (fun r s => ?_) p s
  cases r with
  | store c => exact ⟨_, _, .inl ⟨rfl, rfl⟩⟩
  | cancellation => exact ⟨_, _, .inl rfl, rfl⟩
  | random n => exact ⟨List.replicate n 0, s, List.length_replicate, rfl⟩
  | now => exact hs.imp fun t h => ⟨s, h, rfl⟩
  | freshId => exact (hg s.store).imp fun id h => ⟨s, h, rfl⟩
  | token n => exact (hd n).imp fun token h => ⟨s, h, rfl⟩
  | turns => exact ⟨[], s, rfl⟩
  | extent => exact ⟨_, s, Nat.le_refl _, rfl⟩

/-- Where the caller may not cancel, a look finds what was known. -/
theorem eq_of_look (hc : ¬ m.cancelling) {c : Cancellation}
    (h : m.answers .cancellation s c s') : c = s.caller ∧ s' = s := by
  obtain ⟨rfl | ⟨hm, -⟩, rfl⟩ := h
  · exact ⟨rfl, rfl⟩
  · exact absurd hm hc

/-- Where calls do not fail, the store answers. -/
theorem eq_of_call (hf : ¬ m.failing) {c : Store.Call} {x : c.Reply}
    (h : m.answers (.store c) s x s') : x = (s.store.answer c).1 ∧ s' = s.after c := by
  rcases h with h | ⟨hm, -⟩
  · exact h
  · exact absurd hm hf

/-- Where calls do not fail, one that reads is answered and changes nothing. -/
theorem eq_of_query (hf : ¬ m.failing) {c : Store.Call} {a : c.Answer}
    (hq : s.store.answer c = (.ok a, s.store)) (hu : c.updates = []) {x : c.Reply}
    (h : m.answers (.store c) s x s') : x = .ok a ∧ s' = s := by
  obtain ⟨rfl, rfl⟩ := eq_of_call hf h
  exact ⟨by rw [hq], by simp only [Scene.after, hq, hu, List.nil_append]⟩

/-- Where the caller has not cancelled and may not, work goes on. -/
theorem checkpoint_bind {α : Type} (hc : ¬ m.cancelling) (hq : s.caller.raised = false) {n : Nat}
    {f : Unit → Job α} {r : Except VaultError α}
    (h : Job.Ends m.answers (Job.checkpoint n >>= f) s r s') : (f ()).Ends m.answers s r s' := by
  obtain ⟨c, t, hlook, ⟨hraised, -⟩ | ⟨-, hwork⟩⟩ := Job.ends_checkpoint_cases h
  · obtain ⟨rfl, -⟩ := eq_of_look hc hlook
    exact absurd (hq.symm.trans hraised) Bool.false_ne_true
  · obtain ⟨-, rfl⟩ := eq_of_look hc hlook
    exact hwork

/-- The caller's cancellation goes onward only. -/
theorem answers_onward {r : Request} {x : r.Reply} (h : m.answers r s x s') :
    s.caller.Onward s'.caller := by
  cases r with
  | store c =>
      rcases h with ⟨-, rfl⟩ | ⟨-, -, rfl⟩
      · exact Cancellation.onward_refl s.caller
      · exact Cancellation.onward_refl _
  | cancellation =>
      obtain ⟨rfl | ⟨-, h⟩, rfl⟩ := h
      · exact Cancellation.onward_refl _
      · exact h
  | turns =>
      obtain rfl := h
      exact Cancellation.onward_refl _
  | random | now | freshId | token | extent =>
      obtain ⟨-, rfl⟩ := h
      exact Cancellation.onward_refl _

/-- A reply leaves the store as it was, or as a call to it does. -/
theorem answers_store {r : Request} {x : r.Reply} (h : m.answers r s x s') :
    s'.store = s.store ∨ ∃ c, s'.store = (s.store.answer c).2 := by
  cases r with
  | store c =>
      rcases h with ⟨-, rfl⟩ | ⟨-, -, rfl⟩
      · exact .inr ⟨c, rfl⟩
      · exact .inl rfl
  | turns => exact .inl (congrArg Scene.store h)
  | cancellation | random | now | freshId | token | extent =>
      obtain ⟨-, rfl⟩ := h
      exact .inl rfl

/-- Whoever looks for a cancellation finds out whether there is one. -/
theorem watched (m : Manner) : Watched m.answers fun s => s.caller.raised = true where
  keeps _ _ _ _ h hs := (answers_onward h).1 hs
  tells _ _ _ h := by
    obtain ⟨-, rfl⟩ := h
    exact Iff.rfl

end Manner

/-! ### First steps of a call -/

namespace Vault

section

variable {α σ : Type} {S : Surroundings σ} {s s' : σ}

/-- Without a token a call is refused, which changes nothing. -/
theorem requireToken_bind {token : String} {f : Unit → Job α} {r : Except VaultError α}
    (h : Job.Ends S (requireToken token >>= f) s r s') :
    (token = "" ∧ r = .error .emptyToken ∧ s' = s) ∨ (token ≠ "" ∧ (f ()).Ends S s r s') := by
  have h₁ := Job.ends_ofExcept_bind.1 h
  by_cases ht : token = ""
  · rw [if_pos (by rw [ht]; rfl)] at h₁
    exact .inl ⟨ht, h₁⟩
  · rw [if_neg (by simpa using ht)] at h₁
    exact .inr ⟨ht, h₁⟩

/-- With a token a call goes on. -/
theorem requireToken_pass {token : String} (ht : token ≠ "") {f : Unit → Job α}
    {r : Except VaultError α} (h : (f ()).Ends S s r s') :
    Job.Ends S (requireToken token >>= f) s r s' := by
  refine Job.ends_ofExcept_bind.2 ?_
  rw [if_neg (by simpa using ht)]
  exact h

/-- With a password a call goes on. -/
theorem requirePassword_pass {password : String} (hp : password ≠ "") {f : Unit → Job α}
    {r : Except VaultError α} (h : (f ()).Ends S s r s') :
    Job.Ends S (requirePassword password >>= f) s r s' := by
  refine Job.ends_ofExcept_bind.2 ?_
  rw [if_neg (by simpa using hp)]
  exact h

/-- Without a password a call is refused, which changes nothing. -/
theorem requirePassword_bind {password : String} {f : Unit → Job α} {r : Except VaultError α}
    (h : Job.Ends S (requirePassword password >>= f) s r s') :
    (password = "" ∧ r = .error .emptyPassword ∧ s' = s) ∨
      (password ≠ "" ∧ (f ()).Ends S s r s') := by
  have h₁ := Job.ends_ofExcept_bind.1 h
  by_cases hp : password = ""
  · rw [if_pos (by rw [hp]; rfl)] at h₁
    exact .inl ⟨hp, h₁⟩
  · rw [if_neg (by simpa using hp)] at h₁
    exact .inr ⟨hp, h₁⟩

/-- Random bytes are drawn before it shows whether the text can be locked. -/
theorem ends_lockText_bind {v : Vault} {text password : String} {f : String → Job α}
    {r : Except VaultError α} :
    Job.Ends S (v.lockText text password >>= f) s r s' ↔
      ∃ (head : Bytes) (t : σ), S (.random v.lock.headLength) s head t ∧
        match v.lock.lockFault? text password with
        | none => (f (v.lock.lock text password head)).Ends S t r s'
        | some error => r = .error (.encoding error) ∧ s' = t := by
  refine Job.ends_reply_bind.trans (exists_congr fun head => exists_congr fun t =>
    and_congr_right fun _ => Job.ends_ofExcept_bind.trans ?_)
  rw [Lock.tryLock]
  cases v.lock.lockFault? text password <;> exact Iff.rfl

end

variable {m : Manner} {v : Vault} {s s' : Scene}

theorem lockText_ends {text password : String} {r : Except VaultError String} :
    (v.lockText text password).Ends m.answers s r s' ↔
      ∃ head : Bytes, head.length = v.lock.headLength ∧
        r = (v.lock.tryLock text password head).mapError .encoding ∧ s' = s := by
  refine Job.ends_reply_bind.trans ⟨?_, ?_⟩
  · rintro ⟨head, t, ⟨hl, rfl⟩, hr⟩
    exact ⟨head, hl, Job.ends_ofExcept.1 hr⟩
  · rintro ⟨head, hl, hr⟩
    exact ⟨head, s, ⟨hl, rfl⟩, Job.ends_ofExcept.2 hr⟩

/-- Where locking goes through, the text could be locked. -/
theorem lockText_ok {text password locked : String}
    (h : (v.lockText text password).Ends m.answers s (.ok locked) s') :
    ∃ head : Bytes, v.lock.Fits text password head ∧ locked = v.lock.lock text password head ∧
      s' = s := by
  obtain ⟨head, hlen, heq, rfl⟩ := lockText_ends.1 h
  obtain ⟨hfault, rfl⟩ := Lock.tryLock_eq_ok_iff.1 (Job.eq_ok_of_mapError heq.symm)
  exact ⟨head, ⟨hlen, hfault⟩, rfl, rfl⟩

/-- The work of locking comes before what follows it, and ends it if the text cannot be locked. -/
theorem lockText_bind {α : Type} {text password : String} {f : String → Job α}
    {r : Except VaultError α} (h : Job.Ends m.answers (v.lockText text password >>= f) s r s') :
    (∃ error, v.lock.lockFault? text password = some error ∧ r = .error (.encoding error) ∧
        s' = s) ∨
      ∃ head : Bytes, v.lock.Fits text password head ∧
        (f (v.lock.lock text password head)).Ends m.answers s r s' := by
  obtain ⟨head, t, ⟨hlen, rfl⟩, hnext⟩ := ends_lockText_bind.1 h
  cases hfault : v.lock.lockFault? text password with
  | some error => exact .inl ⟨error, rfl, by rwa [hfault] at hnext⟩
  | none => exact .inr ⟨head, ⟨hlen, hfault⟩, by rwa [hfault] at hnext⟩

/-! ### Look-ups -/

section

variable {α : Type} {token : String} {found : Option Entry} {r : Except VaultError α}

/-- A search that is answered changes nothing, and what follows goes on with what was found. -/
theorem findToken_bind (hm : ¬ m.failing)
    (hfind : s.store.answer (.findToken token) = (.ok found, s.store)) {f : Option Entry → Job α}
    (h : Job.Ends m.answers (Job.call (.findToken token) >>= f) s r s') :
    (f found).Ends m.answers s r s' := by
  obtain ⟨y, t, hy, h₁⟩ := Job.ends_call_bind.1 h
  obtain ⟨rfl, rfl⟩ := Manner.eq_of_query hm hfind rfl hy
  exact h₁

/-- A call on any entry goes on with the one that is found, hidden or not. -/
theorem anyEntry_bind (hm : ¬ m.failing)
    (hfind : s.store.answer (.findToken token) = (.ok found, s.store)) {f : Entry → Job α}
    (h : Job.Ends m.answers (anyEntry token >>= f) s r s') :
    (found = none ∧ r = .error (.notFound token) ∧ s' = s) ∨
      ∃ e, found = some e ∧ (f e).Ends m.answers s r s' := by
  rcases Job.ends_bind.1 h with ⟨e, t, ha, hf⟩ | ⟨error, ha, rfl⟩
  · have hentry := findToken_bind hm hfind ha
    cases found with
    | none => cases (Job.ends_throw.1 hentry).1
    | some a =>
        obtain ⟨heq, rfl⟩ := Job.ends_pure.1 hentry
        obtain rfl := Except.ok.inj heq
        exact .inr ⟨e, rfl, hf⟩
  · have hentry := findToken_bind hm hfind ha
    cases found with
    | none =>
        obtain ⟨heq, rfl⟩ := Job.ends_throw.1 hentry
        exact .inl ⟨rfl, by rw [Except.error.inj heq], rfl⟩
    | some a => cases (Job.ends_pure.1 hentry).1

/-- A call on an active entry goes on with the one that is found, unless it is hidden. -/
theorem activeEntry_bind (hm : ¬ m.failing)
    (hfind : s.store.answer (.findToken token) = (.ok found, s.store)) {f : Entry → Job α}
    (h : Job.Ends m.answers (activeEntry token >>= f) s r s') :
    ((∀ e ∈ found, e.isHidden = true) ∧ r = .error (.notFound token) ∧ s' = s) ∨
      ∃ e, found = some e ∧ e.isHidden = false ∧ (f e).Ends m.answers s r s' := by
  -- a hidden entry and none at all are told alike
  have hentry : ∀ {x : Except VaultError Entry} {t : Scene},
      (activeEntry token).Ends m.answers s x t →
      t = s ∧ ((∃ e, found = some e ∧ e.isHidden = false ∧ x = .ok e) ∨
        (∀ e ∈ found, e.isHidden = true) ∧ x = .error (.notFound token)) := by
    intro x t ha
    have hx := findToken_bind hm hfind ha
    cases found with
    | none =>
        obtain ⟨rfl, rfl⟩ := Job.ends_throw.1 hx
        exact ⟨rfl, .inr ⟨nofun, rfl⟩⟩
    | some e =>
        cases hhidden : e.isHidden with
        | true =>
            simp only [hhidden, if_true] at hx
            obtain ⟨rfl, rfl⟩ := Job.ends_throw.1 hx
            exact ⟨rfl, .inr ⟨fun a ha => Option.some.inj ha ▸ hhidden, rfl⟩⟩
        | false =>
            simp only [hhidden, Bool.false_eq_true, if_false] at hx
            obtain ⟨rfl, rfl⟩ := Job.ends_pure.1 hx
            exact ⟨rfl, .inl ⟨e, rfl, hhidden, rfl⟩⟩
  rcases Job.ends_bind.1 h with ⟨e, t, ha, hf⟩ | ⟨error, ha, rfl⟩
  · obtain ⟨rfl, ⟨a, hfound, hactive, heq⟩ | ⟨-, heq⟩⟩ := hentry ha
    · obtain rfl := Except.ok.inj heq
      exact .inr ⟨e, hfound, hactive, hf⟩
    · cases heq
  · obtain ⟨rfl, ⟨a, -, -, heq⟩ | ⟨hhidden, heq⟩⟩ := hentry ha
    · cases heq
    · exact .inl ⟨hhidden, by rw [Except.error.inj heq], rfl⟩

end

end Vault

end Strongbox
