import Strongbox.Proofs.Lock.Spelling
import Strongbox.Proofs.Program.Log
import Strongbox.Proofs.Store.Placed
import Strongbox.Proofs.Vault.Atomic

/-!
# Vault — drawing a token

A new secret gets the first token drawn that no record has.  The source of tokens gives one
candidate after another, or an error in place of one, and the vault stops at the first that is not
a taken token, or when it has drawn as many as its settings allow.

* `Manner.drawing`: surroundings whose tokens come from a source, with the number of those drawn.
* `Backing.Taken`, `Backing.FirstOpen`: a candidate that some record has, and the first that is not
  one.
* `Vault.freeToken_drawing`: the loop goes on over taken candidates.
* `Vault.store_places`: a new entry under a free token is put in a place of its own, if its text can
  be locked.
* `Vault.Created`: the four ways in which a new secret comes out.
* `Vault.create_drawing`: what a new secret does for each source.
* `Vault.create_lengthy`: a free token is not enough.
-/

namespace Strongbox

open Store (Record)

/-! ### Sources of tokens -/

/-- The surroundings of a manner, but tokens come from a source, one after another.  The number of
those drawn goes with the scene. -/
def Manner.drawing (m : Manner) (source : Nat → Except LengthError String) :
    Surroundings (Scene × Nat)
  | .token _, w, x, w' => x = source w.2 ∧ w' = (w.1, w.2 + 1)
  | r, w, x, w' => m.answers r w.1 x w'.1 ∧ w'.2 = w.2

section

variable {α : Type} {m : Manner} {source : Nat → Except LengthError String} {w w' : Scene × Nat}

theorem Manner.drawing_iff {r : Request} (hr : ∀ n, r ≠ .token n) {x : r.Reply} :
    m.drawing source r w x w' ↔ m.answers r w.1 x w'.1 ∧ w'.2 = w.2 := by
  cases r with
  | token n => exact absurd rfl (hr n)
  | _ => exact Iff.rfl

/-- A program that draws no token runs as it does without a source. -/
theorem Program.Ends.undrawn {p : Program α} (hp : p.Asks fun r => ∀ n, r ≠ .token n) {a : α}
    (h : p.Ends (m.drawing source) w a w') : p.Ends m.answers w.1 a w'.1 ∧ w'.2 = w.2 := by
  induction p generalizing w with
  | done b =>
      obtain ⟨rfl, rfl⟩ := h
      exact ⟨⟨rfl, rfl⟩, rfl⟩
  | ask r next ih =>
      obtain ⟨x, t, hx, h⟩ := h
      obtain ⟨hm, ht⟩ := (Manner.drawing_iff hp.1).1 hx
      obtain ⟨hends, hw⟩ := ih x (hp.2 x) h
      exact ⟨⟨x, t.1, hm, hends⟩, hw.trans ht⟩

/-- With a source, every program has a run if the clock and the source of ids give something. -/
theorem Manner.exists_drawing (hs : ∃ t, m.shows t) (hg : ∀ b, ∃ id, m.gives b id) (p : Program α)
    (w : Scene × Nat) : ∃ a w', p.Ends (m.drawing source) w a w' := by
  refine Program.exists_ends (fun r w => ?_) p w
  cases r with
  | token n => exact ⟨_, _, rfl, rfl⟩
  | store c => exact ⟨_, (_, w.2), .inl ⟨rfl, rfl⟩, rfl⟩
  | cancellation => exact ⟨_, (_, w.2), ⟨.inl rfl, rfl⟩, rfl⟩
  | random n => exact ⟨List.replicate n 0, w, ⟨List.length_replicate, rfl⟩, rfl⟩
  | now => exact hs.imp fun t h => ⟨w, ⟨h, rfl⟩, rfl⟩
  | freshId => exact (hg w.1.store).imp fun id h => ⟨w, ⟨h, rfl⟩, rfl⟩
  | turns => exact ⟨[], w, rfl, rfl⟩
  | extent => exact ⟨_, w, ⟨Nat.le_refl _, rfl⟩, rfl⟩

end

namespace Backing

/-- The candidate is a token that some record has, hidden or not. -/
def Taken (b : Backing) (candidate : Except LengthError String) : Prop :=
  ∃ token, candidate = .ok token ∧ ∃ x ∈ b.records, x.token? = some token

/-- From the candidate numbered `n` on, the one numbered `i` is the first that is not a taken
token. -/
structure FirstOpen (b : Backing) (source : Nat → Except LengthError String) (n i : Nat) :
    Prop where
  reached : n ≤ i
  before : ∀ j, n ≤ j → j < i → b.Taken (source j)
  here : ¬ b.Taken (source i)

theorem FirstOpen.unique {b : Backing} {source : Nat → Except LengthError String} {n i j : Nat}
    (hi : b.FirstOpen source n i) (hj : b.FirstOpen source n j) : i = j := by
  rcases Nat.lt_trichotomy i j with hlt | heq | hlt
  · exact absurd (hj.before i hi.reached hlt) hi.here
  · exact heq
  · exact absurd (hi.before j hj.reached hlt) hj.here

/-- A candidate that is not taken is the first such from itself on. -/
theorem FirstOpen.self {b : Backing} {source : Nat → Except LengthError String} {n : Nat}
    (hn : ¬ b.Taken (source n)) : b.FirstOpen source n n :=
  ⟨Nat.le_refl n, fun _ hnj hjn => absurd hjn (Nat.not_lt.2 hnj), hn⟩

/-- After a taken candidate, the first that is not taken is that of those that follow. -/
theorem FirstOpen.of_taken {b : Backing} {source : Nat → Except LengthError String} {n i : Nat}
    (hn : b.Taken (source n)) (hi : b.FirstOpen source (n + 1) i) : b.FirstOpen source n i where
  reached := Nat.le_of_succ_le hi.reached
  before j hnj hji := by
    rcases Nat.eq_or_lt_of_le hnj with rfl | hlt
    · exact hn
    · exact hi.before j hlt hji
  here := hi.here

/-- What holds of the first open candidate holds of some first open one, and there is no other. -/
theorem FirstOpen.exists_iff {b : Backing} {source : Nat → Except LengthError String} {n i k : Nat}
    (hi : b.FirstOpen source n i) (hlt : i < k) (P : Except LengthError String → Prop) :
    (∃ j < k, b.FirstOpen source n j ∧ P (source j)) ↔ P (source i) := by
  constructor
  · rintro ⟨j, -, hj, hp⟩
    rwa [hi.unique hj]
  · intro hp
    exact ⟨i, hlt, hi, hp⟩

/-- Where all candidates are taken, none is open. -/
theorem not_firstOpen {b : Backing} {source : Nat → Except LengthError String} {n k : Nat}
    (hall : ∀ j < k, b.Taken (source j)) (P : Except LengthError String → Prop) :
    ¬ ∃ j < k, b.FirstOpen source n j ∧ P (source j) := by
  rintro ⟨j, hj, hopen, -⟩
  exact hopen.here (hall j hj)

end Backing

/-- A search changes nothing. -/
theorem Scene.after_findToken {s : Scene} (hb : s.store.InStep) (token : String) :
    s.after (.findToken token) = s := by
  have ha := hb.answer_findToken token
  cases hl : s.store.lookUp token with
  | error error => exact Scene.after_of_error (by rw [ha, hl])
  | ok found =>
      rw [hl] at ha
      simp only [Scene.after, ha, Store.Call.updates, List.nil_append]

namespace Vault

variable {v : Vault} {m : Manner} {source : Nat → Except LengthError String} {s s' : Scene}
  {token text password : String} {expires : Option Instant} {length : Nat}

/-! ### The loop -/

/-- What comes of looking a candidate up where that does not fail: it is taken, or nothing has
it. -/
theorem lookUp_cases (hlook : ∃ found, s.store.lookUp token = .ok found) :
    (s.store.Taken (.ok token) ∧ ∃ e, s.store.lookUp token = .ok (some e)) ∨
      (¬ s.store.Taken (.ok token) ∧ s.store.lookUp token = .ok none) := by
  obtain ⟨found, hfound⟩ := hlook
  cases hfind : s.store.records.find? (·.token? == some token) with
  | none =>
      refine .inr ⟨?_, by rw [Backing.lookUp, hfind]⟩
      rintro ⟨_, heq, x, hx, htoken⟩
      obtain rfl := Except.ok.inj heq
      exact List.find?_eq_none.1 hfind x hx (beq_iff_eq.2 htoken)
  | some x =>
      have hx := List.mem_of_find?_eq_some hfind
      have htoken := List.find?_some hfind
      refine .inl ⟨⟨token, rfl, x, hx, beq_iff_eq.1 htoken⟩, ?_⟩
      simp only [Backing.lookUp, hfind] at hfound ⊢
      cases hread : x.read with
      | ok e => exact ⟨e, rfl⟩
      | error error => rw [hread] at hfound; cases hfound

/-- **The loop goes on over taken candidates.**  It ends at the first that is not taken, which is
its answer or its error, or after `left` candidates that all are. -/
theorem freeToken_drawing (hb : s.store.InStep) (hf : ¬ m.failing)
    (hlook : ∀ i token, source i = .ok token → ∃ found, s.store.lookUp token = .ok found)
    {left n : Nat}
    {r : Except VaultError String} {w' : Scene × Nat}
    (h : (v.freeToken length left).Ends (m.drawing source) (s, n) r w') :
    w'.1 = s ∧
      ((∃ i, s.store.FirstOpen source n i ∧ i < n + left ∧ r = (source i).mapError .token ∧
          w'.2 = i + 1) ∨
        ((∀ j, n ≤ j → j < n + left → s.store.Taken (source j)) ∧
          r = .error (.tokenCollision v.settings.tokens.attempts) ∧ w'.2 = n + left)) := by
  -- the scene stays what it was, so the candidates to come are held against the same records
  induction left generalizing n with
  | zero =>
      obtain ⟨rfl, rfl⟩ := Job.ends_throw.1 h
      exact ⟨rfl, .inr ⟨fun j hnj hj => absurd hj (Nat.not_lt.2 hnj), rfl, rfl⟩⟩
  | succ left ih =>
      obtain ⟨_, _, ⟨rfl, rfl⟩, h₁⟩ := Job.ends_reply_bind.1 h
      cases hsource : source n with
      | error error =>
          rw [hsource] at h₁
          obtain ⟨rfl, rfl⟩ := Job.ends_ofExcept_bind.1 h₁
          have hopen : ¬ s.store.Taken (source n) := by
            rintro ⟨token, heq, -⟩
            exact nomatch hsource.symm.trans heq
          exact ⟨rfl, .inl ⟨n, .self hopen, by omega, by rw [hsource]; rfl, rfl⟩⟩
      | ok token =>
          rw [hsource] at h₁
          obtain ⟨x, t, ⟨hx, ht⟩, h₂⟩ := Job.ends_call_bind.1 (Job.ends_ofExcept_bind.1 h₁)
          obtain ⟨rfl, hstay⟩ := Manner.eq_of_call hf hx
          rw [Scene.after_findToken hb] at hstay
          obtain rfl : t = (s, n + 1) := Prod.ext hstay ht
          rw [hb.answer_findToken] at h₂
          rcases lookUp_cases (hlook n token hsource) with ⟨htaken, e, hfound⟩ | ⟨hfree, hnone⟩
          · rw [← hsource] at htaken
            simp only [hfound] at h₂
            obtain ⟨hs, ⟨i, hopen, hi, hr, hw⟩ | ⟨hall, hr, hw⟩⟩ := ih h₂
            · exact ⟨hs, .inl ⟨i, hopen.of_taken htaken, by omega, hr, hw⟩⟩
            · refine ⟨hs, .inr ⟨fun j hnj hj => ?_, hr, by omega⟩⟩
              rcases Nat.eq_or_lt_of_le hnj with rfl | hlt
              · exact htaken
              · exact hall j hlt (by omega)
          · rw [← hsource] at hfree
            simp only [hnone] at h₂
            obtain ⟨rfl, rfl⟩ := Job.ends_pure.1 h₂
            exact ⟨rfl, .inl ⟨n, .self hfree, by omega, by rw [hsource]; rfl, rfl⟩⟩

/-! ### The new record -/

/-- **A new entry under a free token**, with an id that the store lacks, is put in a place of its
own.  If its text cannot be locked, nothing is put anywhere. -/
theorem store_places (hb : s.store.InStep) (hf : ¬ m.failing)
    (hg : ∀ id, m.gives s.store id → s.store.Lacks id)
    (htoken : ∀ x ∈ s.store.records, x.token? ≠ some token) {r : Except VaultError Unit}
    (h : (v.store token text password expires).Ends m.answers s r s') :
    (∃ error, v.lock.lockFault? text password = some error ∧ r = .error (.encoding error) ∧
        s' = s) ∨
      r = .ok () ∧ s'.caller = s.caller ∧
      ∃ (head : Bytes) (now : Instant) (id : Uuid) (front back : List Record),
        v.lock.Fits text password head ∧ m.shows now ∧ m.gives s.store id ∧
        s.store.records = front ++ back ∧
        s'.store.Places front
          (s.store.record (.fresh id token (v.lock.lock text password head) expires now)) back token
          id := by
  rcases lockText_bind h with hrefused | ⟨head, hfits, h₁⟩
  · exact .inl hrefused
  obtain ⟨now, _, ⟨hnow, rfl⟩, h₂⟩ := Job.ends_reply_bind.1 h₁
  obtain ⟨id, _, ⟨hid, rfl⟩, h₃⟩ := Job.ends_reply_bind.1 h₂
  obtain ⟨x, hx, rfl⟩ := Job.ends_call.1 h₃
  obtain ⟨rfl, rfl⟩ := Manner.eq_of_call hf hx
  let e := Entry.fresh id token (v.lock.lock text password head) expires now
  obtain ⟨hok, front, back, hr, hplaced⟩ :=
    Backing.places_create (e := e) hb (hg id hid) htoken
  exact .inr ⟨by rw [hok]; rfl, rfl, head, now, id, front, back, hfits, hnow, hid, hr, hplaced⟩

/-- Putting an entry into the store draws no token. -/
theorem asks_store : (v.store token text password expires).Asks fun r => ∀ n, r ≠ .token n := by
  refine Job.Asks.bind (Job.Asks.bind (Job.asks_reply fun _ => nofun) fun _ => ?_) fun _ => ?_
  · exact trivial
  · exact (Job.asks_reply fun _ => nofun).bind fun _ =>
      (Job.asks_reply fun _ => nofun).bind fun _ => Job.asks_call fun _ => nofun

/-- A new active entry under the token, whose text opens under the password.  The store reads back
what it keeps of the entry, if it takes the instants. -/
structure Keepsake (v : Vault) (b : Backing) (token text password : String)
    (expires : Option Instant) (e : Entry) : Prop where
  named : e.token = token
  active : e.isHidden = false
  expiry : e.expires = expires
  opens : v.lock.unlock e.locked password = .ok text
  reads : b.Takes e.created → (∀ t ∈ expires, b.Takes t) →
    (b.record e).read = .ok (b.keepEntry e)

theorem keepsake_fresh {b : Backing} {head : Bytes} {id : Uuid} {now : Instant}
    (hfits : v.lock.Fits text password head) :
    v.Keepsake b token text password expires
      (.fresh id token (v.lock.lock text password head) expires now) where
  named := rfl
  active := rfl
  expiry := rfl
  opens := Lock.unlock_lock hfits
  reads := Backing.read_record_fresh

/-! ### A new secret -/

/-- Calm surroundings at an instant, in which a new entry gets the id. -/
def givenId (now : Instant) (id : Uuid) : Manner :=
  { Manner.calm (· = now) with gives := fun _ a => a = id }

/-- What comes of a new secret, and the number of candidates drawn: the first open candidate is a
token, and the secret is kept under it or cannot be locked, or that candidate is an error, or all
candidates allowed are taken. -/
inductive Created (v : Vault) (source : Nat → Except LengthError String) (now : Instant) (id : Uuid)
    (s : Scene) (text password : String) (expires : Option Instant) :
    Except VaultError String → Scene × Nat → Prop where
  | kept {i : Nat} {token : String} {e : Entry} {s' : Scene}
      (hopen : s.store.FirstOpen source 0 i) (hi : i < v.settings.tokens.attempts)
      (hsource : source i = .ok token) (hfault : v.lock.lockFault? text password = none)
      (hkept : e.id = id ∧ e.created = now ∧
        v.Keepsake s.store token text password expires e ∧ s.store.Gains e s'.store) :
      Created v source now id s text password expires (.ok token) (s', i + 1)
  | refused {i : Nat} {token : String} {error : LockError}
      (hopen : s.store.FirstOpen source 0 i) (hi : i < v.settings.tokens.attempts)
      (hsource : source i = .ok token) (hfault : v.lock.lockFault? text password = some error) :
      Created v source now id s text password expires (.error (.encoding error)) (s, i + 1)
  | failed {i : Nat} {error : LengthError}
      (hopen : s.store.FirstOpen source 0 i) (hi : i < v.settings.tokens.attempts)
      (hsource : source i = .error error) :
      Created v source now id s text password expires (.error (.token error)) (s, i + 1)
  | exhausted (hall : ∀ i < v.settings.tokens.attempts, s.store.Taken (source i)) :
      Created v source now id s text password expires
        (.error (.tokenCollision v.settings.tokens.attempts)) (s, v.settings.tokens.attempts)

namespace Created

variable {now : Instant} {id : Uuid} {r : Except VaultError String} {w : Scene × Nat}
  (h : v.Created source now id s text password expires r w)

include h

/-- No more candidates are drawn than the settings allow. -/
theorem drawn_le : w.2 ≤ v.settings.tokens.attempts := by
  cases h with
  | kept _ hi | refused _ hi | failed _ hi => exact hi
  | exhausted => exact Nat.le_refl _

/-- The candidates drawn end with the first open one. -/
theorem drawn_eq {i : Nat} (hi : i < v.settings.tokens.attempts)
    (hopen : s.store.FirstOpen source 0 i) : w.2 = i + 1 := by
  cases h with
  | kept hopen' | refused hopen' | failed hopen' => exact congrArg (· + 1) (hopen'.unique hopen)
  | exhausted hall => exact absurd (hall i hi) hopen.here

theorem ok_iff (token : String) : r = .ok token ↔ v.lock.lockFault? text password = none ∧
    ∃ i < v.settings.tokens.attempts, s.store.FirstOpen source 0 i ∧ source i = .ok token := by
  cases h with
  | kept hopen hi hsource hfault =>
      rw [hopen.exists_iff hi (· = .ok token), hsource, Except.ok.injEq, Except.ok.injEq]
      exact ⟨fun heq => ⟨hfault, heq⟩, And.right⟩
  | refused _ _ _ hfault =>
      rw [hfault]
      exact ⟨nofun, nofun⟩
  | failed hopen hi hsource =>
      rw [hopen.exists_iff hi (· = .ok token), hsource]
      exact ⟨nofun, nofun⟩
  | exhausted hall =>
      exact ⟨nofun, fun hopen => absurd hopen.2 (Backing.not_firstOpen hall (· = .ok token))⟩

theorem encoding_iff (error : LockError) :
    r = .error (.encoding error) ↔ v.lock.lockFault? text password = some error ∧
      ∃ i < v.settings.tokens.attempts, s.store.FirstOpen source 0 i ∧
        ∃ token, source i = .ok token := by
  cases h with
  | kept _ _ _ hfault =>
      rw [hfault]
      exact ⟨nofun, nofun⟩
  | @refused _ token _ hopen hi hsource hfault =>
      rw [hopen.exists_iff hi (∃ token, · = .ok token), hfault, Except.error.injEq,
        VaultError.encoding.injEq, Option.some.injEq]
      exact ⟨fun heq => ⟨heq, token, hsource⟩, And.left⟩
  | failed hopen hi hsource =>
      rw [hopen.exists_iff hi (∃ token, · = .ok token), hsource]
      exact ⟨nofun, nofun⟩
  | exhausted hall =>
      exact ⟨nofun, fun hopen =>
        absurd hopen.2 (Backing.not_firstOpen hall (∃ token, · = .ok token))⟩

theorem token_iff (error : LengthError) : r = .error (.token error) ↔
    ∃ i < v.settings.tokens.attempts, s.store.FirstOpen source 0 i ∧ source i = .error error := by
  cases h with
  | kept hopen hi hsource | refused hopen hi hsource =>
      rw [hopen.exists_iff hi (· = .error error), hsource]
      exact ⟨nofun, nofun⟩
  | failed hopen hi hsource =>
      rw [hopen.exists_iff hi (· = .error error), hsource, Except.error.injEq, Except.error.injEq,
        VaultError.token.injEq]
  | exhausted hall =>
      exact ⟨nofun, fun hopen => absurd hopen (Backing.not_firstOpen hall (· = .error error))⟩

theorem collision_iff : r = .error (.tokenCollision v.settings.tokens.attempts) ↔
    ∀ i < v.settings.tokens.attempts, s.store.Taken (source i) := by
  cases h with
  | @kept i _ _ _ hopen hi | @refused i _ _ hopen hi | @failed i _ hopen hi =>
      exact ⟨nofun, fun hall => absurd (hall i hi) hopen.here⟩
  | exhausted hall => exact ⟨fun _ => hall, fun _ => rfl⟩

/-- What goes wrong, and that nothing has changed then. -/
theorem failure {error : VaultError} (hr : r = .error error) : w.1 = s ∧
    ((∃ e, error = .encoding e) ∨ (∃ e, error = .token e) ∨
      error = .tokenCollision v.settings.tokens.attempts) := by
  cases h with
  | kept => cases hr
  | @refused _ _ fault => exact ⟨rfl, .inl ⟨fault, (Except.error.inj hr).symm⟩⟩
  | @failed _ fault => exact ⟨rfl, .inr (.inl ⟨fault, (Except.error.inj hr).symm⟩)⟩
  | exhausted => exact ⟨rfl, .inr (.inr (Except.error.inj hr).symm)⟩

theorem keepsake {token : String} (hr : r = .ok token) : ∃ e, e.id = id ∧ e.created = now ∧
    v.Keepsake s.store token text password expires e ∧ s.store.Gains e w.1.store := by
  cases h with
  | kept _ _ _ _ hkept =>
      obtain rfl := Except.ok.inj hr
      exact ⟨_, hkept⟩
  | refused | failed | exhausted => cases hr

end Created

/-- Once a free token is drawn, the secret is kept under it or cannot be locked. -/
theorem store_created {now : Instant} {id : Uuid} (hb : s.store.InStep) (hid : s.store.Lacks id)
    {i : Nat} (hopen : s.store.FirstOpen source 0 i) (hi : i < v.settings.tokens.attempts)
    (hsource : source i = .ok token) {r : Except VaultError String} {w' : Scene × Nat}
    (h : Job.Ends ((givenId now id).drawing source)
      (v.store token text password expires >>= fun _ => pure token) (s, i + 1) r w') :
    v.Created source now id s text password expires r w' := by
  have hf : ¬ (givenId now id).failing := fun h => h
  have hfree : ∀ x ∈ s.store.records, x.token? ≠ some token := fun x hx htoken =>
    hopen.here ⟨token, hsource, x, hx, htoken⟩
  obtain ⟨u, k⟩ := w'
  rcases Job.ends_bind.1 h with ⟨_, ⟨t, n⟩, hstore, hend⟩ | ⟨error, hstore, rfl⟩
  · obtain ⟨hends, rfl⟩ := Program.Ends.undrawn asks_store hstore
    obtain ⟨rfl, heq⟩ := Job.ends_pure.1 hend
    obtain ⟨rfl, rfl⟩ := Prod.mk.inj heq
    rcases store_places hb hf (fun a ha => ha ▸ hid) hfree hends with ⟨_, -, hr, -⟩ |
      ⟨-, -, head, _, _, front, back, hfits, rfl, rfl, hrecords, hplaced⟩
    · cases hr
    · exact .kept hopen hi hsource hfits.fault
        ⟨rfl, rfl, keepsake_fresh hfits, front, back, hrecords, hplaced.records⟩
  · obtain ⟨hends, rfl⟩ := Program.Ends.undrawn asks_store hstore
    rcases store_places hb hf (fun a ha => ha ▸ hid) hfree hends with
      ⟨fault, hfault, hr, hstay⟩ | ⟨hr, -⟩
    · obtain rfl : u = s := hstay
      obtain rfl := Except.error.inj hr
      exact .refused hopen hi hsource hfault
    · cases hr

theorem create_created {now : Instant} {id : Uuid} (hb : s.store.InStep)
    (hlook : ∀ i token, source i = .ok token → ∃ found, s.store.lookUp token = .ok found)
    (hq : s.caller.raised = false) (hp : password ≠ "") (hid : s.store.Lacks id)
    {r : Except VaultError String} {w' : Scene × Nat}
    (h : (v.create text password length expires).Ends ((givenId now id).drawing source) (s, 0) r
      w') :
    v.Created source now id s text password expires r w' := by
  have hf : ¬ (givenId now id).failing := fun h => h
  rcases requirePassword_bind h with ⟨hempty, -⟩ | ⟨-, h₁⟩
  · exact absurd hempty hp
  obtain ⟨c, t, ⟨hknown, ht⟩, h₂⟩ := Job.ends_checkpoint_bind.1 h₁
  obtain ⟨rfl, hstay⟩ := Manner.eq_of_look (fun h => h) hknown
  obtain rfl : t = (s, 0) := Prod.ext hstay ht
  simp only [Cancellation.check_of_not_raised hq] at h₂
  rcases Job.ends_bind.1 h₂ with ⟨token, ⟨t, n⟩, hloop, h₃⟩ | ⟨error, hloop, rfl⟩
  · obtain ⟨rfl, ⟨i, hopen, hi, hr, rfl⟩ | ⟨-, hr, -⟩⟩ := freeToken_drawing hb hf hlook hloop
    · rw [Nat.zero_add] at hi
      cases hsource : source i with
      | error error => rw [hsource] at hr; cases hr
      | ok token' =>
          rw [hsource] at hr
          obtain rfl := Except.ok.inj hr
          exact store_created hb hid hopen hi hsource h₃
    · cases hr
  · obtain ⟨t, n⟩ := w'
    obtain ⟨rfl, ⟨i, hopen, hi, hr, rfl⟩ | ⟨hall, hr, rfl⟩⟩ := freeToken_drawing hb hf hlook hloop
    · rw [Nat.zero_add] at hi
      cases hsource : source i with
      | ok token' => rw [hsource] at hr; cases hr
      | error error' =>
          rw [hsource] at hr
          obtain rfl := Except.error.inj hr
          exact .failed hopen hi hsource
    · obtain rfl := Except.error.inj hr
      rw [Nat.zero_add] at hall ⊢
      exact .exhausted fun j hj => hall j (Nat.zero_le j) hj

/-- **A new secret gets the first token drawn that no record has**, if its text can be locked.
Whatever the store holds, as long as an index is in step with its rows and no look-up of a candidate
fails, and whatever the source gives: no more candidates are drawn than the settings allow.  The
answer is a token if the first candidate that is not a taken one is a token and nothing is too long
to be locked, and the secret is then kept under it in one record more.  It is the error of locking
if that candidate is a token but the text cannot be locked, that of the source if that comes first,
and a collision if all candidates allowed are taken; nothing else goes wrong, and then the scene is
what it was. -/
theorem create_drawing (v : Vault) (source : Nat → Except LengthError String) (now : Instant)
    (id : Uuid) {s : Scene} {text password : String} {length : Nat} {expires : Option Instant}
    (hb : s.store.InStep)
    (hlook : ∀ i token, source i = .ok token → ∃ found, s.store.lookUp token = .ok found)
    (hq : s.caller.raised = false) (hp : password ≠ "") (hid : s.store.Lacks id) :
    (∃ r w', (v.create text password length expires).Ends ((givenId now id).drawing source) (s, 0)
        r w') ∧
      ∀ (r : Except VaultError String) (s' : Scene) (drawn : Nat),
        (v.create text password length expires).Ends ((givenId now id).drawing source) (s, 0) r
          (s', drawn) →
        drawn ≤ v.settings.tokens.attempts ∧
        (∀ i < v.settings.tokens.attempts, s.store.FirstOpen source 0 i → drawn = i + 1) ∧
        (∀ token, r = .ok token ↔ v.lock.lockFault? text password = none ∧
          ∃ i < v.settings.tokens.attempts, s.store.FirstOpen source 0 i ∧
            source i = .ok token) ∧
        (∀ error, r = .error (.encoding error) ↔ v.lock.lockFault? text password = some error ∧
          ∃ i < v.settings.tokens.attempts, s.store.FirstOpen source 0 i ∧
            ∃ token, source i = .ok token) ∧
        (∀ error, r = .error (.token error) ↔
          ∃ i < v.settings.tokens.attempts, s.store.FirstOpen source 0 i ∧
            source i = .error error) ∧
        (r = .error (.tokenCollision v.settings.tokens.attempts) ↔
          ∀ i < v.settings.tokens.attempts, s.store.Taken (source i)) ∧
        (∀ error, r = .error error → s' = s ∧
          ((∃ e, error = .encoding e) ∨ (∃ e, error = .token e) ∨
            error = .tokenCollision v.settings.tokens.attempts)) ∧
        ∀ token, r = .ok token → ∃ e, e.id = id ∧ e.created = now ∧
          v.Keepsake s.store token text password expires e ∧ s.store.Gains e s'.store := by
  refine ⟨Manner.exists_drawing ⟨now, rfl⟩ (fun _ => ⟨id, rfl⟩) _ _, fun r s' drawn h => ?_⟩
  have hcase := create_created hb hlook hq hp hid h
  exact ⟨hcase.drawn_le, fun i hi hopen => hcase.drawn_eq hi hopen, hcase.ok_iff,
    hcase.encoding_iff, hcase.token_iff, hcase.collision_iff, fun error => hcase.failure,
    fun token => hcase.keepsake⟩

/-- A source that gives the token of the sample first, and then one that is free. -/
def twoCandidates (i : Nat) : Except LengthError String :=
  .ok (if i = 0 then "token" else "free")

/-- The first candidate is taken in the scene, and the second is not. -/
theorem firstOpen_twoCandidates : hideScene.store.FirstOpen twoCandidates 0 1 where
  reached := Nat.zero_le 1
  before j _ hj := by
    obtain rfl : j = 0 := by omega
    exact ⟨"token", rfl, .entry hideSample, List.mem_singleton_self _, rfl⟩
  here := by
    rintro ⟨token, heq, x, hx, htoken⟩
    obtain rfl := Except.ok.inj heq
    obtain rfl := List.mem_singleton.1 hx
    exact absurd htoken (by decide)

theorem exists_lookUp_hideScene (token : String) :
    ∃ found, hideScene.store.lookUp token = .ok found :=
  Backing.exists_lookUp (fun _ hx => ⟨hideSample, by rw [List.mem_singleton.1 hx]; rfl⟩) token

/-- The vault draws both and keeps the secret under the second. -/
theorem create_drawing_twoCandidates :
    ∃ s' e, (usual.create "text" "password" 32 none).Ends
        ((givenId default (.ofNat 1)).drawing twoCandidates) (hideScene, 0) (.ok "free") (s', 2) ∧
      usual.Keepsake hideScene.store "free" "text" "password" none e ∧
      hideScene.store.Gains e s'.store := by
  have hid : hideScene.store.Lacks (.ofNat 1) := rfl
  obtain ⟨⟨r, ⟨s', drawn⟩, h⟩, hall⟩ := @create_drawing usual twoCandidates default (.ofNat 1)
    hideScene "text" "password" 32 none apart_hideScene.inStep
    (fun _ token _ => exists_lookUp_hideScene token) rfl (by decide) hid
  obtain ⟨-, hdrawn, hok, -, -, -, -, hkept⟩ := hall r s' drawn h
  have hr := (hok "free").2 ⟨rfl, 1, by decide, firstOpen_twoCandidates, rfl⟩
  obtain rfl := hdrawn 1 (by decide) firstOpen_twoCandidates
  obtain ⟨e, -, -, hsecret, hgains⟩ := hkept "free" hr
  exact ⟨s', e, hr ▸ h, hsecret, hgains⟩

/-- Under a password that is too long the vault draws both as well, but cannot lock the text. -/
theorem create_twoCandidates_of_long {password : String} (hne : password ≠ "")
    (hlong : Argon2id.mostBytes < password.utf8ByteSize) :
    (usual.create "text" password 32 none).Ends ((givenId default (.ofNat 1)).drawing twoCandidates)
      (hideScene, 0) (.error (.encoding (.keyDerivation "Argon2 failed: password is too long")))
      (hideScene, 2) := by
  have hid : hideScene.store.Lacks (.ofNat 1) := rfl
  obtain ⟨r, w', h⟩ := Manner.exists_drawing (m := givenId default (.ofNat 1)) ⟨default, rfl⟩
    (fun _ => ⟨.ofNat 1, rfl⟩) (usual.create "text" password 32 none) (hideScene, 0)
  cases create_created apart_hideScene.inStep (fun _ token _ => exists_lookUp_hideScene token) rfl
    hne hid h with
  | kept _ _ _ hfault =>
      rw [Lock.lockFault?_of_long hlong] at hfault
      cases hfault
  | refused hopen _ _ hfault =>
      rw [Lock.lockFault?_of_long hlong] at hfault
      obtain rfl := Option.some.inj hfault
      rw [hopen.unique firstOpen_twoCandidates] at h
      exact h
  | failed hopen _ hsource =>
      rw [hopen.unique firstOpen_twoCandidates] at hsource
      cases hsource
  | exhausted hall => exact absurd (hall 1 (by decide)) firstOpen_twoCandidates.here

/-- Under a password of four gibibytes there is no secret, though the second candidate is free. -/
theorem create_lengthy :
    hideScene.store.FirstOpen twoCandidates 0 1 ∧ 1 < usual.settings.tokens.attempts ∧
      twoCandidates 1 = .ok "free" ∧ Bytes.letters 4294967296 ≠ "" ∧
      (usual.create "text" (Bytes.letters 4294967296) 32 none).Ends
        ((givenId default (.ofNat 1)).drawing twoCandidates) (hideScene, 0)
        (.error (.encoding (.keyDerivation "Argon2 failed: password is too long")))
        (hideScene, 2) := by
  have hne : Bytes.letters 4294967296 ≠ "" := Bytes.letters_ne (by decide)
  exact ⟨firstOpen_twoCandidates, by decide, rfl, hne,
    create_twoCandidates_of_long hne Lock.mostBytes_lt_letters⟩

end Vault

end Strongbox
