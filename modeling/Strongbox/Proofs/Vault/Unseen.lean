import Strongbox.Proofs.Program.Alike
import Strongbox.Proofs.Settings
import Strongbox.Proofs.Vault.Rounds

/-!
# Vault — hidden entries are unseen

Calls that work on active entries leave hidden ones out of account.  Two runs of such a call, one
beside a store and one beside the same store without a hidden record, put the same questions to
everything around the store, get one answer, and leave two stores that differ by that record again.

* `Unseen`: a job that cannot tell the two stores apart.
* `ActiveCall`: the calls that work on active entries.
* `hidden_unseen`: none of them tells a hidden record.
-/

namespace Strongbox

open Store (Record)

/-- The stores differ by the hidden record, and all else is the same. -/
def Veiled {ε : Type} (x : Record) (s s' : Backing × ε) : Prop :=
  x.Veils s.1 s'.1 ∧ s.2 = s'.2

/-- The job cannot tell whether the hidden record is there, and `P` holds of its result. -/
abbrev Unseen {α ε : Type} (o : Outside ε) (x : Record) (j : Job α) (P : α → Prop) : Prop :=
  Job.Alike o.beside (Veiled x) j P

namespace Vault

section

variable {α ε : Type} {o : Outside ε} {x : Record}

/-! ### Questions -/

/-- Whatever is around the store answers the same. -/
theorem alike_outside {r : Request}
    (hr : ∀ s : Backing × ε, o.beside r s = ((o r s.2).1, s.1, (o r s.2).2)) :
    (Program.reply r).Alike o.beside (Veiled x) fun _ => True := by
  refine Program.alike_reply fun s s' ⟨hv, hw⟩ => ?_
  rw [hr, hr, hw]
  exact ⟨rfl, trivial, hv, rfl⟩

theorem unseen_checkpoint {n : Nat} : Unseen o x (Job.checkpoint n) fun _ => True :=
  (Job.alike_reply (alike_outside fun _ => rfl)).bind fun _ _ =>
    Job.alike_ofExcept fun _ _ => trivial

theorem unseen_now : Unseen o x (Job.reply .now) fun _ => True :=
  Job.alike_reply (alike_outside fun _ => rfl)

theorem unseen_lockText {v : Vault} {text password : String} :
    Unseen o x (v.lockText text password) fun _ => True :=
  (Job.alike_reply (alike_outside fun _ => rfl)).bind fun _ _ =>
    Job.alike_ofExcept fun _ _ => trivial

/-- An update of another entry. -/
theorem unseen_write (source : Entry) {fields : List Field} (hne : fields ≠ [])
    (hid : x.id? ≠ some source.id) :
    Unseen o x (Job.call (.update source fields)) fun _ => True :=
  Job.alike_call <| Program.alike_reply fun _ _ ⟨hv, hw⟩ =>
    ⟨hv.reply_update hne hid, fun _ _ => trivial, hv.update hid, hw⟩

/-- A list of active entries, none of which has the id of the hidden record. -/
theorem unseen_list {q : Query} (hq : q.filter.withHidden = false) :
    Unseen o x (Job.call (.list q)) fun es => ∀ e ∈ es, x.id? ≠ some e.id := by
  refine Job.alike_call <| Program.alike_reply fun s s' ⟨hv, hw⟩ => ?_
  have hreply := hv.reply_list hq
  refine ⟨hreply, fun es hes e he => ?_, ?_, hw⟩
  · obtain ⟨y, hy, -, hread⟩ := Backing.exists_of_mem_list hv.tidy_without.small (hreply ▸ hes) he
    exact hv.ne_of_read hy hread
  · change x.Veils (s.1.answer (.list q)).2 (s'.1.answer (.list q)).2
    rwa [Backing.store_list, Backing.store_list]

/-- What is made of what was found under a token: an active entry, or why there is none. -/
def activeOf (token : String) : Except StoreError (Option Entry) → Except VaultError Entry
  | .ok (some e) => if e.isHidden then .error (.notFound token) else .ok e
  | .ok none => .error (.notFound token)
  | .error e => .error (.store e)

theorem eq_of_activeOf {token : String} {found : Except StoreError (Option Entry)} {e : Entry}
    (h : activeOf token found = .ok e) : found = .ok (some e) := by
  rcases found with error | _ | a
  · cases h
  · cases h
  · by_cases ha : a.isHidden = true
    · rw [activeOf, if_pos ha] at h
      cases h
    · rw [activeOf, if_neg ha] at h
      obtain rfl := Except.ok.inj h
      rfl

theorem activeEntry_ends {s s' : Backing × ε} {token : String} {r : Except VaultError Entry}
    (hs : s.1.Apart) (h : (activeEntry token).Ends o.answers s r s') :
    r = activeOf token (s.1.lookUp token) ∧ s' = s := by
  obtain ⟨found, t, hcall, h₁⟩ := Job.ends_call_bind.1 h
  have hcall : ((s.1.answer (.findToken token)).1, (s.1.answer (.findToken token)).2, s.2)
      = (found, t) := hcall
  rw [Backing.answer_findToken hs] at hcall
  obtain ⟨rfl, rfl⟩ := Prod.mk.inj hcall
  cases hl : s.1.lookUp token with
  | error e =>
      simp only [hl] at h₁
      exact h₁
  | ok found =>
      simp only [hl] at h₁
      cases found with
      | none => exact Job.ends_throw.1 h₁
      | some e =>
          by_cases he : e.isHidden = true
          · rw [activeOf, if_pos he]
            simp only [if_pos he] at h₁
            exact Job.ends_throw.1 h₁
          · rw [activeOf, if_neg he]
            simp only [if_neg he] at h₁
            exact Job.ends_pure.1 h₁

/-- **The active entry with a token** is the same: a hidden record is passed over where it is, and
no other has its token. -/
theorem unseen_activeEntry {token : String} :
    Unseen o x (activeEntry token) fun e => x.id? ≠ some e.id := by
  intro s s' ⟨hv, hw⟩
  -- not step by step: the two answers of the store differ under the hidden record's token
  obtain ⟨hr, hs⟩ := activeEntry_ends hv.tidy.apart (o.ends_run _ s)
  obtain ⟨hr', hs'⟩ := activeEntry_ends hv.tidy_without.apart (o.ends_run _ s')
  have hsame : activeOf token (s.1.lookUp token) = activeOf token (s'.1.lookUp token) := by
    rcases hv.lookUp token with ⟨e, hl, he, hl'⟩ | hl
    · simp only [hl, hl', activeOf, he, if_true]
    · rw [hl]
  rw [hr, hs, hr', hs', hsame]
  refine ⟨rfl, fun e he => ?_, hv, hw⟩
  obtain ⟨y, hy, -, hread⟩ := Backing.has_of_lookUp (eq_of_activeOf he)
  exact hv.ne_of_read hy hread

/-! ### Calls on one secret -/

theorem unseen_requireToken {token : String} :
    Unseen o x (requireToken token) fun _ => True :=
  Job.alike_ofExcept fun _ _ => trivial

theorem unseen_requirePassword {password : String} :
    Unseen o x (requirePassword password) fun _ => True :=
  Job.alike_ofExcept fun _ _ => trivial

theorem unseen_read (v : Vault) (token password : String) :
    Unseen o x (v.read token password) fun _ => True := by
  refine unseen_requireToken.bind fun _ _ => unseen_requirePassword.bind fun _ _ =>
    unseen_checkpoint.bind fun _ _ => unseen_activeEntry.bind fun e _ =>
    unseen_now.bind fun now _ => ?_
  cases e.expires with
  | none => exact Job.alike_ofExcept fun _ _ => trivial
  | some moment =>
      by_cases hm : moment < now
      · simp only [if_pos hm]
        exact Job.alike_throw
      · simp only [if_neg hm]
        exact Job.alike_ofExcept fun _ _ => trivial

theorem unseen_update (v : Vault) (token text password : String) :
    Unseen o x (v.update token text password) fun _ => True :=
  unseen_requireToken.bind fun _ _ => unseen_requirePassword.bind fun _ _ =>
    unseen_checkpoint.bind fun _ _ => unseen_activeEntry.bind fun _ he =>
    unseen_lockText.bind fun _ _ => unseen_now.bind fun _ _ =>
    unseen_write _ (List.cons_ne_nil _ _) he

theorem unseen_hide (token : String) : Unseen o x (Vault.hide token) fun _ => True :=
  unseen_requireToken.bind fun _ _ => unseen_checkpoint.bind fun _ _ =>
    unseen_activeEntry.bind fun _ he => unseen_now.bind fun _ _ =>
    unseen_write _ (List.cons_ne_nil _ _) he

theorem unseen_renew (token : String) (expires : Option Instant) :
    Unseen o x (Vault.renew token expires) fun _ => True :=
  unseen_requireToken.bind fun _ _ => unseen_checkpoint.bind fun _ _ =>
    unseen_activeEntry.bind fun _ he => unseen_now.bind fun _ _ =>
    unseen_write _ (List.cons_ne_nil _ _) he

/-! ### Calls on many secrets -/

theorem unseen_readBatches (v : Vault) (password : String) (now : Instant)
    (found : List (String × String)) (groups : List (List String)) :
    Unseen o x (v.readBatches password now found groups) fun _ => True := by
  induction groups generalizing found with
  | nil => exact Job.alike_pure trivial
  | cons tokens groups ih =>
      refine unseen_checkpoint.bind fun _ _ => (unseen_list rfl).bind fun _ _ => ?_
      exact (Job.alike_ofExcept fun _ _ => trivial).bind fun found _ => ih found

theorem unseen_readMany (v : Vault) (tokens : List String) (password : String) :
    Unseen o x (v.readMany tokens password) fun _ => True :=
  unseen_requirePassword.bind fun _ _ => unseen_checkpoint.bind fun _ _ =>
    unseen_now.bind fun _ _ => unseen_readBatches v password _ _ _

theorem unseen_purgeEntry {now : Instant} {e : Entry} (he : x.id? ≠ some e.id) :
    Unseen o x (purgeEntry .soft now e) fun _ => True :=
  (unseen_write (e.hide now) (List.cons_ne_nil _ _) he).bind fun _ _ =>
    Job.alike_pure trivial

theorem alike_eachEntry {now : Instant} {es : List Entry} (hes : ∀ e ∈ es, x.id? ≠ some e.id)
    (n : Nat) :
    (eachEntry (purgeEntry .soft now) n es).Alike o.beside (Veiled x) fun _ => True := by
  induction es generalizing n with
  | nil => exact Program.alike_done trivial
  | cons e es ih =>
      obtain ⟨he, hes⟩ := List.forall_mem_cons.1 hes
      have hstep : Unseen o x (do Job.checkpoint n; purgeEntry .soft now e : Job Bool)
          fun _ => True := unseen_checkpoint.bind fun _ _ => unseen_purgeEntry he
      refine Program.Alike.bind hstep fun r _ => ?_
      cases r with
      | error error => exact Program.alike_done trivial
      | ok counts => exact ih hes _

theorem alike_softPages {size : Nat} {now : Instant} (rounds offset n : Nat) :
    (softPages size now rounds offset n).Alike o.beside (Veiled x) fun _ => True := by
  induction rounds generalizing offset n with
  | zero => exact Program.alike_done trivial
  | succ rounds ih =>
      have hpage : Unseen o x (do
          Job.checkpoint n
          Job.call (.list (Query.page .active offset size)) : Job (List Entry))
          fun page => ∀ e ∈ page, x.id? ≠ some e.id :=
        unseen_checkpoint.bind fun _ _ => unseen_list rfl
      refine Program.Alike.bind hpage fun r hr => ?_
      cases r with
      | error error => exact Program.alike_done trivial
      | ok page =>
          have hes : ∀ e ∈ page.filter (·.isExpired now), x.id? ≠ some e.id :=
            fun e he => hr page rfl e (List.mem_filter.1 he).1
          refine Program.Alike.bind (alike_eachEntry hes n) fun p _ => ?_
          by_cases hlast : p.failure.isSome ∨ page.length < size
          · simp only [if_pos hlast]
            exact Program.alike_done trivial
          · simp only [if_neg hlast]
            exact ih _ _

/-- **A soft purge.**  It is given a round more beside the store with the record, which comes to the
same. -/
theorem unseen_purge (v : Vault) : Unseen o x (v.purge .soft) fun _ => True := by
  refine unseen_checkpoint.bind fun _ _ => Job.Alike.bind (P := fun _ => True)
    (Job.alike_lift ?_) fun _ _ => Job.alike_ofExcept fun _ _ => trivial
  refine Program.Alike.bind (alike_outside fun _ => rfl) fun now _ => ?_
  intro s s' hs
  let pages (extent : Nat) : Program Progress :=
    softPages v.settings.rotation.pageSize now (extent + 1) 0 0
  -- the sizes of the stores differ by one, and so do the bounds on the rounds
  have hlen := hs.1.sublist.length_le
  rw [Backing.length_records, Backing.length_records] at hlen
  have hshown := s'.1.shown_le_size
  have hrounds : (pages s'.1.size).run o.beside s' = (pages s.1.size).run o.beside s' :=
    run_softPages (Settings.rotation_pos v.sound).1 hs.1.tidy_without (by omega) (by omega)
  have hsame : (pages s.1.size).Alike o.beside (Veiled x) fun _ => True := alike_softPages _ _ _
  have hboth := hsame hs
  rw [← hrounds] at hboth
  exact hboth

end

/-! ### Calls on active entries -/

/-- A call that works on active entries. -/
inductive ActiveCall where
  | read (token password : String)
  | update (token text password : String)
  | hide (token : String)
  | renew (token : String) (expires : Option Instant)
  | readMany (tokens : List String) (password : String)
  | purge

/-- The type of a call's answer. -/
@[reducible] def ActiveCall.Answer : ActiveCall → Type
  | read _ _ => String
  | update _ _ _ | hide _ | renew _ _ => Unit
  | readMany _ _ => List (String × String)
  | purge => Nat

/-- The program of a call; a purge is a soft one. -/
def performActive (v : Vault) : (c : ActiveCall) → Job c.Answer
  | .read token password => v.read token password
  | .update token text password => v.update token text password
  | .hide token => Vault.hide token
  | .renew token expires => Vault.renew token expires
  | .readMany tokens password => v.readMany tokens password
  | .purge => v.purge .soft

theorem unseen_performActive {ε : Type} {o : Outside ε} {x : Record} (v : Vault) (c : ActiveCall) :
    Unseen o x (v.performActive c) fun _ => True := by
  cases c with
  | read token password => exact unseen_read v token password
  | update token text password => exact unseen_update v token text password
  | hide token => exact unseen_hide token
  | renew token expires => exact unseen_renew token expires
  | readMany tokens password => exact unseen_readMany v tokens password
  | purge => exact unseen_purge v

/-- **A hidden record is unseen.**  Take a store of either kind whose records are apart, and the
same store without one hidden record, whatever that record is: expired or not, locked under any
password, and under the very token that is asked for.  Beside both stores, let everything else
answer alike: the clock, the random bytes, the caller's cancellation.  Then every call on active
entries has one answer or error, puts the same questions to what is around the store, and leaves two
stores that differ by that record again. -/
theorem hidden_unseen {ε : Type} (v : Vault) (o : Outside ε) (c : ActiveCall) {x : Record}
    {b b' : Backing} (h : x.Veils b b') (w : ε) :
    let run := (v.performActive c).run.run o.beside
    (run (b, w)).1 = (run (b', w)).1 ∧ (run (b, w)).2.2 = (run (b', w)).2.2 ∧
      x.Veils (run (b, w)).2.1 (run (b', w)).2.1 := by
  have hstart : Veiled x (b, w) (b', w) := ⟨h, rfl⟩
  obtain ⟨hanswer, -, hveils, houtside⟩ := unseen_performActive v c hstart
  exact ⟨hanswer, houtside, hveils⟩

/-- Two expired entries, of which the first is hidden. -/
def veilSamples : Entry × Entry :=
  (⟨.ofNat 0, "first", "locked", default, default, some (.ofSecond 1), some (.ofSecond 2)⟩,
    ⟨.ofNat 1, "second", "locked", default, default, some (.ofSecond 1), none⟩)

/-- A store with both entries. -/
def veilStore : Store.Indexed :=
  ⟨[veilSamples.1, veilSamples.2], [("first", .ofNat 0), ("second", .ofNat 1)]⟩

/-- The store without the hidden entry. -/
def veilRest : Store.Indexed :=
  ⟨[veilSamples.2], [("second", .ofNat 1)]⟩

/-- Nothing happens outside, and it is the third second. -/
def stillOutside : Outside Unit
  | .store _, _ => (.error .io, ())
  | .cancellation, _ => (.idle, ())
  | .random n, _ => (List.replicate n 0, ())
  | .now, _ => (.ofSecond 3, ())
  | .freshId, _ => (.ofNat 2, ())
  | .token _, _ => (.ok "third", ())
  | .turns, _ => ([], ())
  | .extent, _ => (0, ())

theorem sound_veilStore : veilStore.Sound where
  ascending := List.pairwise_pair.2 (by decide)
  tokens := by decide
  keys := by decide
  index token id := by
    simp [veilStore, veilSamples, eq_comm]

theorem sound_veilRest : veilRest.Sound where
  ascending := List.pairwise_singleton _ _
  tokens := by decide
  keys := by decide
  index token id := by simp [veilRest, veilSamples, eq_comm]

theorem veils_veilSamples :
    (Record.entry veilSamples.1).Veils (.indexed veilStore) (.indexed veilRest) where
  reads := ⟨_, rfl⟩
  hidden := rfl
  tidy := ⟨sound_veilStore, trivial⟩
  kind := .indexed sound_veilRest
  records := ⟨[], [.entry veilSamples.2], rfl, rfl⟩

/-- A soft purge hides the active entry, and the hidden one makes no difference. -/
theorem hidden_unseen_veilSamples :
    let run := (usual.performActive .purge).run.run stillOutside.beside
    (run (.indexed veilStore, ())).1 = .ok 1 ∧ (run (.indexed veilRest, ())).1 = .ok 1 ∧
      (Record.entry veilSamples.1).Veils (run (.indexed veilStore, ())).2.1
        (run (.indexed veilRest, ())).2.1 := by
  intro run
  obtain ⟨hanswer, -, hveils⟩ := hidden_unseen usual stillOutside .purge veils_veilSamples ()
  have hfirst : (run (.indexed veilStore, ())).1 = .ok 1 := by decide +kernel
  exact ⟨hfirst, hanswer.symm.trans hfirst, hveils⟩

end Vault

end Strongbox
