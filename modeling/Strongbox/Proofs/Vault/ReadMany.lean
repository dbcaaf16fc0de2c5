import Strongbox.Proofs.Lock.Spelling
import Strongbox.Proofs.Scene
import Strongbox.Proofs.Store.Holds
import Strongbox.Vault.Bulk

/-!
# Vault — many secrets read at once

A read of many secrets agrees with reads of each of them.  It goes by its own way to the entries:
the tokens without repetitions, in batches, a list for each batch, and the entries of the list that
have not expired.  All of this comes to the live entries that have one of the tokens.

* `Yields`: what the live entry with a token unlocks to.
* `read_ends`, `read_iff`: what the read of one secret comes to.
* `mem_wanted`, `mem_putText`: the tokens that are looked for, and the texts that are found.
* `Gathers`, `readBatches_gathers`: what a read of many secrets comes to, batch by batch.
* `readMany_agrees`: it agrees with the reads of each.
-/

namespace Strongbox

/-- The entry is active and has not expired. -/
def Entry.isLive (e : Entry) (now : Instant) : Bool :=
  !e.isHidden && !e.isExpired now

namespace Vault

/-- The live entry with the token unlocks to a text, or fails to. -/
def Yields (v : Vault) (password : String) (now : Instant) (es : List Entry) (token : String)
    (x : Except LockError String) : Prop :=
  ∃ e ∈ es, e.token = token ∧ e.isLive now = true ∧ v.lock.unlock e.locked password = x

section

variable {v : Vault} {password token text : String} {now : Instant} {s s' : Scene}
  {es : List Entry}

/-- No two entries have one token, so there is one outcome under it. -/
theorem Yields.unique (htokens : (es.map (·.token)).Nodup) {x y : Except LockError String}
    (hx : Yields v password now es token x) (hy : Yields v password now es token y) : x = y := by
  obtain ⟨e, he, htoken, -, rfl⟩ := hx
  obtain ⟨e', he', htoken', -, rfl⟩ := hy
  rw [List.inj_on_of_nodup_map htokens he he' (htoken.trans htoken'.symm)]

/-! ### The read of one secret -/

/-- What comes of unlocking an entry, unless it has expired. -/
theorem unexpired_ends {e : Entry} {r : Except VaultError String}
    (h : Job.Ends (Manner.calm (· = now)).answers (do
      let now ← Job.reply .now
      match e.expires with
      | some moment =>
        if moment < now then throw (.expired token moment)
        else Job.ofExcept ((v.lock.unlock e.locked password).mapError .decryption)
      | none => Job.ofExcept ((v.lock.unlock e.locked password).mapError .decryption)) s r s') :
    s' = s ∧ (e.isExpired now = false ∧ r = (v.lock.unlock e.locked password).mapError .decryption ∨
      e.isExpired now = true ∧ ∃ moment, r = .error (.expired token moment)) := by
  obtain ⟨now', t, ⟨rfl, rfl⟩, h₁⟩ := Job.ends_reply_bind.1 h
  rw [Entry.isExpired]
  cases hexp : e.expires with
  | none =>
      simp only [hexp] at h₁
      obtain ⟨rfl, rfl⟩ := Job.ends_ofExcept.1 h₁
      exact ⟨rfl, .inl ⟨rfl, rfl⟩⟩
  | some moment =>
      simp only [hexp] at h₁
      by_cases hm : moment < now'
      · rw [if_pos hm] at h₁
        obtain ⟨rfl, rfl⟩ := Job.ends_throw.1 h₁
        exact ⟨rfl, .inr ⟨hm, moment, rfl⟩⟩
      · rw [if_neg hm] at h₁
        obtain ⟨rfl, rfl⟩ := Job.ends_ofExcept.1 h₁
        exact ⟨rfl, .inl ⟨eq_false_of_ne_true hm, rfl⟩⟩

/-- **What a read comes to**: what the live entry with the token unlocks to, and if there is none an
error of another kind. -/
theorem read_ends (hp : password ≠ "") (ht : token ≠ "") (hs : s.store.Holds es)
    (hq : s.caller.raised = false) {r : Except VaultError String}
    (h : (v.read token password).Ends (Manner.calm (· = now)).answers s r s') :
    s' = s ∧ ((∃ x, Yields v password now es token x ∧ r = x.mapError .decryption) ∨
      (∀ x, ¬ Yields v password now es token x) ∧
        ∃ error, r = .error error ∧ ∀ cause, error ≠ .decryption cause) := by
  obtain ⟨he, -⟩ | ⟨-, h₁⟩ := requireToken_bind h
  · exact absurd he ht
  obtain ⟨he, -⟩ | ⟨-, h₂⟩ := requirePassword_bind h₁
  · exact absurd he hp
  have h₃ := Manner.checkpoint_bind id hq h₂
  obtain ⟨found, hf, hfound⟩ := hs.find token
  -- whichever entry is live under the token has been found
  have hyields : ∀ {x}, Yields v password now es token x → ∃ e, found = some e ∧
      e.isHidden = false ∧ e.isExpired now = false := by
    rintro x ⟨e, he, htoken, hlive, -⟩
    rw [Entry.isLive, Bool.and_eq_true, Bool.not_eq_true', Bool.not_eq_true'] at hlive
    exact ⟨e, (hfound e).2 ⟨he, htoken⟩, hlive⟩
  rcases activeEntry_bind id hf h₃ with ⟨hhidden, rfl, rfl⟩ | ⟨e, hsome, hhidden, h₄⟩
  · refine ⟨rfl, .inr ⟨fun x hx => ?_, _, rfl, nofun⟩⟩
    obtain ⟨e, hsome, hshown, -⟩ := hyields hx
    rw [hhidden e hsome] at hshown
    cases hshown
  · obtain ⟨he, htoken⟩ := (hfound e).1 hsome
    obtain ⟨rfl, ⟨hexp, rfl⟩ | ⟨hexp, moment, rfl⟩⟩ := unexpired_ends h₄
    · have hlive : e.isLive now = true := by rw [Entry.isLive, hhidden, hexp]; rfl
      exact ⟨rfl, .inl ⟨_, ⟨e, he, htoken, hlive, rfl⟩, rfl⟩⟩
    · refine ⟨rfl, .inr ⟨fun x hx => ?_, _, rfl, nofun⟩⟩
      obtain ⟨e', hsome', -, hnot⟩ := hyields hx
      obtain rfl := Option.some.inj (hsome.symm.trans hsome')
      exact Bool.false_ne_true (hnot.symm.trans hexp)

/-- **A read comes to a text or to a failure of the lock** exactly if the live entry with the token
unlocks so. -/
theorem read_iff (hp : password ≠ "") (hs : s.store.Holds es) (hq : s.caller.raised = false)
    {x : Except LockError String} :
    (∃ s', (v.read token password).Ends (Manner.calm (· = now)).answers s
      (x.mapError .decryption) s') ↔ token ≠ "" ∧ Yields v password now es token x := by
  have hinj : ∀ {y : Except LockError String},
      x.mapError VaultError.decryption = y.mapError .decryption → x = y := by
    intro y h
    cases x <;> cases y <;> cases h <;> rfl
  constructor
  · rintro ⟨s', h⟩
    by_cases ht : token = ""
    · obtain ⟨-, he, -⟩ | ⟨he, -⟩ := requireToken_bind h
      · cases x <;> cases he
      · exact absurd ht he
    · obtain ⟨-, ⟨y, hy, he⟩ | ⟨-, error, he, hother⟩⟩ := read_ends hp ht hs hq h
      · exact ⟨ht, hinj he ▸ hy⟩
      · cases x with
        | ok text => cases he
        | error cause => exact absurd (Except.error.inj he).symm (hother cause)
  · rintro ⟨ht, hx⟩
    obtain ⟨r, s', h⟩ := Manner.exists_ends (m := .calm (· = now)) ⟨now, rfl⟩
      (fun _ => ⟨.ofNat 0, trivial⟩) (fun _ => ⟨.ok "", trivial⟩) (v.read token password).run s
    obtain ⟨-, ⟨y, hy, rfl⟩ | ⟨hno, -⟩⟩ := read_ends hp ht hs hq h
    · exact ⟨s', hx.unique hs.tokens hy ▸ h⟩
    · exact absurd hx (hno x)

/-! ### The tokens that are looked for -/

/-- One token more, if it is not empty and was not seen before, beside the set of those seen. -/
def seenWith (seen : Std.HashSet String × List String) (token : String) :
    Std.HashSet String × List String :=
  if token.isEmpty || seen.1.contains token then seen
  else (seen.1.insert token, token :: seen.2)

theorem wanted_eq (tokens : List String) :
    wanted tokens = (tokens.foldl seenWith (∅, [])).2.reverse := rfl

/-- The set of the tokens seen and their list keep the same members. -/
theorem contains_seenWith {seen : Std.HashSet String × List String}
    (hseen : ∀ t, seen.1.contains t = true ↔ t ∈ seen.2) (token t : String) :
    (seenWith seen token).1.contains t = true ↔ t ∈ (seenWith seen token).2 := by
  rw [seenWith]
  split
  · exact hseen t
  · rw [Std.HashSet.contains_insert, Bool.or_eq_true, beq_iff_eq, List.mem_cons, hseen t,
      eq_comm (a := token)]

theorem mem_seenWith {seen : Std.HashSet String × List String}
    (hseen : ∀ t, seen.1.contains t = true ↔ t ∈ seen.2) {t : String} :
    token ∈ (seenWith seen t).2 ↔ token ∈ seen.2 ∨ token = t ∧ token ≠ "" := by
  rw [seenWith]
  split
  · rename_i hskip
    rw [Bool.or_eq_true, String.isEmpty_iff, hseen t] at hskip
    constructor
    · exact .inl
    · rintro (h | ⟨rfl, hne⟩)
      · exact h
      · exact hskip.resolve_left hne
  · rename_i hnew
    rw [Bool.or_eq_true, String.isEmpty_iff, not_or] at hnew
    rw [List.mem_cons]
    constructor
    · rintro (rfl | h)
      · exact .inr ⟨rfl, hnew.1⟩
      · exact .inl h
    · rintro (h | ⟨h, -⟩)
      · exact .inr h
      · exact .inl h

theorem mem_foldl_seenWith {tokens : List String} {seen : Std.HashSet String × List String}
    (hseen : ∀ t, seen.1.contains t = true ↔ t ∈ seen.2) :
    token ∈ (tokens.foldl seenWith seen).2 ↔ token ∈ seen.2 ∨ token ∈ tokens ∧ token ≠ "" := by
  induction tokens generalizing seen with
  | nil => simp
  | cons t tokens ih =>
      rw [List.foldl_cons, ih (contains_seenWith hseen t), mem_seenWith hseen, List.mem_cons]
      tauto

/-- The tokens that are looked for are those that are not empty. -/
theorem mem_wanted {tokens : List String} :
    token ∈ wanted tokens ↔ token ∈ tokens ∧ token ≠ "" := by
  have hnone : ∀ t, (∅ : Std.HashSet String).contains t = true ↔ t ∈ ([] : List String) := by
    simp
  rw [wanted_eq, List.mem_reverse, mem_foldl_seenWith hnone]
  simp

/-! ### The texts that are found -/

/-- A text that is put in takes the place of the one under its token, and of no other. -/
theorem mem_putText {found : List (String × String)} {p : String × String} :
    p ∈ putText found token text ↔ p = (token, text) ∨ p ∈ found ∧ p.1 ≠ token := by
  rw [putText]
  split
  · rename_i hany
    obtain ⟨q, hq, hkey⟩ := List.any_eq_true.1 hany
    rw [List.mem_map]
    constructor
    · rintro ⟨x, hx, rfl⟩
      split
      · exact .inl rfl
      · rename_i hne
        exact .inr ⟨hx, hne⟩
    · rintro (rfl | ⟨hp, hne⟩)
      · exact ⟨q, hq, if_pos (beq_iff_eq.1 hkey)⟩
      · exact ⟨p, hp, if_neg hne⟩
  · rename_i hany
    have hnone : ∀ q ∈ found, q.1 ≠ token := fun q hq he =>
      hany (List.any_eq_true.2 ⟨q, hq, beq_iff_eq.2 he⟩)
    rw [List.mem_append, List.mem_singleton]
    constructor
    · rintro (hp | rfl)
      · exact .inr ⟨hp, hnone p hp⟩
      · exact .inl rfl
    · rintro (rfl | ⟨hp, -⟩)
      · exact .inr rfl
      · exact .inl hp

/-- Texts stay under tokens that are apart. -/
theorem nodup_putText {found : List (String × String)} (h : (found.map (·.1)).Nodup) :
    ((putText found token text).map (·.1)).Nodup := by
  rw [putText]
  split
  · have hkeys : (found.map fun p => if p.1 = token then (token, text) else p).map (·.1)
        = found.map (·.1) := by
      rw [List.map_map]
      refine List.map_congr_left fun p _ => ?_
      rw [Function.comp_apply]
      split
      · exact ‹p.1 = token›.symm
      · rfl
    rwa [hkeys]
  · rename_i hany
    have hnone : token ∉ found.map (·.1) := by simpa using hany
    rw [List.map_append]
    exact List.nodup_append'.2 ⟨h, List.nodup_singleton token, by simpa using hnone⟩

/-! ### Batches -/

/-- What comes of unlocking the live entries with some tokens: their texts beside those found
before, or the failure of one of them. -/
inductive Gathers (v : Vault) (password : String) (now : Instant) (es : List Entry)
    (tokens : List String) (found : List (String × String)) :
    Except VaultError (List (String × String)) → Prop where
  | texts {found' : List (String × String)} (hkeys : (found'.map (·.1)).Nodup)
      (hmem : ∀ token text, (token, text) ∈ found' ↔ (token, text) ∈ found ∨
        token ∈ tokens ∧ Yields v password now es token (.ok text))
      (hall : ∀ token ∈ tokens, ∀ cause, ¬ Yields v password now es token (.error cause)) :
      Gathers v password now es tokens found (.ok found')
  | fails {token : String} {cause : LockError} (ht : token ∈ tokens)
      (h : Yields v password now es token (.error cause)) :
      Gathers v password now es tokens found (.error (.decryption cause))

/-- The texts found are those that the entries unlock to, each once. -/
structure Faithful (v : Vault) (password : String) (now : Instant) (es : List Entry)
    (found : List (String × String)) : Prop where
  keys : (found.map (·.1)).Nodup
  yields : ∀ token text, (token, text) ∈ found → Yields v password now es token (.ok text)

namespace Gathers

variable {tokens tokens' : List String} {found found' : List (String × String)}
  {r : Except VaultError (List (String × String))}

theorem nil (hf : Faithful v password now es found) :
    Gathers v password now es [] found (.ok found) :=
  .texts hf.keys (fun _ _ => by simp) (by simp)

/-- Texts that are gathered are faithful too. -/
theorem faithful (h : Gathers v password now es tokens found (.ok found'))
    (hf : Faithful v password now es found) : Faithful v password now es found' := by
  cases h with
  | texts hkeys hmem hall =>
      exact ⟨hkeys, fun token text hp => ((hmem token text).1 hp).elim (hf.yields token text) (·.2)⟩

/-- More tokens after the first have gone through. -/
theorem append (h : Gathers v password now es tokens found (.ok found'))
    (h' : Gathers v password now es tokens' found' r) :
    Gathers v password now es (tokens ++ tokens') found r := by
  cases h with
  | texts hkeys hmem hall =>
      cases h' with
      | texts hkeys' hmem' hall' =>
          refine .texts hkeys' (fun token text => ?_) (List.forall_mem_append.2 ⟨hall, hall'⟩)
          rw [hmem', hmem, List.mem_append]
          tauto
      | fails ht h => exact .fails (List.mem_append_right _ ht) h

/-- Where the first tokens fail, no others are looked for. -/
theorem append_left {error : VaultError}
    (h : Gathers v password now es tokens found (.error error)) (tokens' : List String) :
    Gathers v password now es (tokens ++ tokens') found (.error error) := by
  cases h with
  | fails ht h => exact .fails (List.mem_append_left _ ht) h

/-- Only the tokens of live entries matter. -/
theorem congr (h : Gathers v password now es tokens found r)
    (ht : ∀ token x, Yields v password now es token x → (token ∈ tokens ↔ token ∈ tokens')) :
    Gathers v password now es tokens' found r := by
  cases h with
  | texts hkeys hmem hall =>
      refine .texts hkeys (fun token text => ?_) fun token hm cause hx =>
        hall token ((ht token _ hx).2 hm) cause hx
      rw [hmem]
      exact or_congr_right (and_congr_left fun hx => ht token _ hx)
  | fails hm hx => exact .fails ((ht _ _ hx).1 hm) hx

/-- It goes through unless one of the tokens fails. -/
theorem ok_iff (h : Gathers v password now es tokens found r) : (∃ found', r = .ok found') ↔
    ∀ token ∈ tokens, ∀ cause, ¬ Yields v password now es token (.error cause) := by
  cases h with
  | texts hkeys hmem hall => exact ⟨fun _ => hall, fun _ => ⟨_, rfl⟩⟩
  | fails ht hx => exact ⟨nofun, fun hall => absurd hx (hall _ ht _)⟩

/-- The lock alone decides what comes of it. -/
theorem of_lock {v' : Vault} (hv : v'.lock = v.lock)
    (h : Gathers v' password now es tokens found r) :
    Gathers v password now es tokens found r := by
  have hsame : Yields v' password now es = Yields v password now es := by
    funext token x
    rw [Yields, Yields, hv]
  cases h with
  | texts hkeys hmem hall =>
      rw [hsame] at hmem hall
      exact .texts hkeys hmem hall
  | fails ht hx => exact .fails ht (hsame ▸ hx)

/-- Two ways to gather come to the same texts. -/
theorem perm {found₁ found₂ : List (String × String)}
    (h₁ : Gathers v password now es tokens found (.ok found₁))
    (h₂ : Gathers v password now es tokens found (.ok found₂)) : found₂.Perm found₁ := by
  cases h₁ with
  | texts hkeys₁ hmem₁ _ =>
      cases h₂ with
      | texts hkeys₂ hmem₂ _ =>
          exact (List.perm_ext_iff_of_nodup hkeys₂.of_map hkeys₁.of_map).2 fun ⟨token, text⟩ =>
            (hmem₂ token text).trans (hmem₁ token text).symm

end Gathers

/-- A text that is put in is gathered. -/
theorem gathers_putText (htokens : (es.map (·.token)).Nodup) {found : List (String × String)}
    (hf : Faithful v password now es found) {e : Entry}
    (h : Yields v password now es e.token (.ok text)) :
    Gathers v password now es [e.token] found (.ok (putText found e.token text)) := by
  have huniq : ∀ {x}, Yields v password now es e.token x → x = .ok text := fun hx =>
    hx.unique htokens h
  refine .texts (nodup_putText hf.keys) (fun token text' => ?_) ?_
  · rw [mem_putText, List.mem_singleton, Prod.mk.injEq]
    constructor
    · rintro (⟨rfl, rfl⟩ | ⟨hp, -⟩)
      · exact .inr ⟨rfl, h⟩
      · exact .inl hp
    · rintro (hp | ⟨rfl, hx⟩)
      · by_cases ht : token = e.token
        · subst ht
          exact .inl ⟨rfl, Except.ok.inj (huniq (hf.yields _ _ hp))⟩
        · exact .inr ⟨hp, ht⟩
      · exact .inl ⟨rfl, Except.ok.inj (huniq hx)⟩
  · rw [List.forall_mem_singleton]
    intro cause hx
    cases huniq hx

/-- **Live entries are unlocked one after another.** -/
theorem unlockAll_gathers (htokens : (es.map (·.token)).Nodup) {entries : List Entry}
    (hlive : ∀ e ∈ entries, e ∈ es ∧ e.isLive now = true) {found : List (String × String)}
    (hf : Faithful v password now es found) :
    Gathers v password now es (entries.map (·.token)) found
      (v.unlockAll password found entries) := by
  induction entries generalizing found with
  | nil => exact .nil hf
  | cons e entries ih =>
      obtain ⟨⟨he, hl⟩, hlive⟩ := List.forall_mem_cons.1 hlive
      have hyields : Yields v password now es e.token (v.lock.unlock e.locked password) :=
        ⟨e, he, rfl, hl, rfl⟩
      rw [unlockAll]
      split
      · rename_i cause hu
        exact .fails List.mem_cons_self (hu ▸ hyields)
      · rename_i text hu
        have hput := gathers_putText htokens hf (hu ▸ hyields)
        exact hput.append (ih hlive (hput.faithful hf))

/-- The entries of a batch as a read lists them: the active ones with one of its tokens, without
those that expired. -/
def batch (es : List Entry) (now : Instant) (tokens : List String) : List Entry :=
  (es.filter ({ Filter.active with tokens := some tokens } : Filter).admits).filter
    (!·.isExpired now)

theorem mem_batch {tokens : List String} {e : Entry} :
    e ∈ batch es now tokens ↔ e ∈ es ∧ e.isLive now = true ∧ e.token ∈ tokens := by
  have hadmits : ({ Filter.active with tokens := some tokens } : Filter).admits e = true ↔
      e.isHidden = false ∧ e.token ∈ tokens := by
    simp [Filter.admits, Filter.active]
  rw [batch, List.mem_filter, List.mem_filter, hadmits, Entry.isLive, Bool.and_eq_true,
    Bool.not_eq_true', Bool.not_eq_true']
  tauto

/-- A batch is unlocked. -/
theorem unlockAll_batch (htokens : (es.map (·.token)).Nodup) (tokens : List String)
    {found : List (String × String)} (hf : Faithful v password now es found) :
    Gathers v password now es tokens found
      (v.unlockAll password found (batch es now tokens)) := by
  refine (unlockAll_gathers htokens (fun e he => ?_) hf).congr fun token x hx => ?_
  · exact ⟨(mem_batch.1 he).1, (mem_batch.1 he).2.1⟩
  · obtain ⟨e, he, rfl, hl, -⟩ := hx
    rw [List.mem_map]
    constructor
    · rintro ⟨e', he', htoken⟩
      exact htoken ▸ (mem_batch.1 he').2.2
    · exact fun hm => ⟨e, mem_batch.2 ⟨he, hl, hm⟩, rfl⟩

/-- **A read of batches.** -/
theorem readBatches_gathers (hs : s.store.Holds es) (hq : s.caller.raised = false)
    {groups : List (List String)} {found : List (String × String)}
    (hf : Faithful v password now es found) {r : Except VaultError (List (String × String))}
    (h : (v.readBatches password now found groups).Ends (Manner.calm (· = now)).answers s r s') :
    s' = s ∧ Gathers v password now es groups.flatten found r := by
  induction groups generalizing found with
  | nil =>
      obtain ⟨rfl, rfl⟩ := Job.ends_pure.1 h
      exact ⟨rfl, .nil hf⟩
  | cons tokens groups ih =>
      have h₁ := Manner.checkpoint_bind id hq h
      obtain ⟨x, t, hx, h₂⟩ := Job.ends_call_bind.1 h₁
      obtain ⟨rfl, rfl⟩ := Manner.eq_of_query id (hs.lists.list _ none 0) rfl hx
      have hbatch : Gathers v password now es tokens found
          (v.unlockAll password found (batch es now tokens)) := unlockAll_batch hs.tokens tokens hf
      have h₃ : Job.Ends (Manner.calm (· = now)).answers (do
          let found ← Job.ofExcept (v.unlockAll password found (batch es now tokens))
          v.readBatches password now found groups) _ r s' := h₂
      have h₄ := Job.ends_ofExcept_bind.1 h₃
      rw [List.flatten_cons]
      cases hu : v.unlockAll password found (batch es now tokens) with
      | ok found' =>
          rw [hu] at hbatch h₄
          obtain ⟨rfl, hrest⟩ := ih (hbatch.faithful hf) h₄
          exact ⟨rfl, hbatch.append hrest⟩
      | error error =>
          rw [hu] at hbatch h₄
          obtain ⟨rfl, rfl⟩ := h₄
          exact ⟨rfl, hbatch.append_left _⟩

/-- **A read of many secrets** gathers the texts under the tokens that are not empty. -/
theorem readMany_gathers (hp : password ≠ "") (hs : s.store.Holds es)
    (hq : s.caller.raised = false) {tokens : List String}
    {r : Except VaultError (List (String × String))}
    (h : (v.readMany tokens password).Ends (Manner.calm (· = now)).answers s r s') :
    s' = s ∧ Gathers v password now es (tokens.filter (· ≠ "")) [] r := by
  obtain ⟨he, -⟩ | ⟨-, h₁⟩ := requirePassword_bind h
  · exact absurd he hp
  have h₂ := Manner.checkpoint_bind id hq h₁
  obtain ⟨now', u, ⟨rfl, rfl⟩, h₃⟩ := Job.ends_reply_bind.1 h₂
  have hnone : Faithful v password now' es [] :=
    ⟨List.nodup_nil, fun _ _ hm => absurd hm List.not_mem_nil⟩
  obtain ⟨rfl, hr⟩ := readBatches_gathers hs hq hnone h₃
  rw [flatten_batches] at hr
  exact ⟨rfl, hr.congr fun token x _ => by simp [mem_wanted]⟩

/-- **Many secrets read at once.**  In calm surroundings a read of many tokens ends and changes
nothing.  It agrees with the reads of each token at the same instant: it goes through unless the
live entry with one of the tokens, which is active and has not expired, fails to unlock; then its
texts are those that the reads of the non-empty tokens give, each once; otherwise it fails
as the read of one of them does.  Another vault with the same lock comes to the same texts or
fails too, whatever its pages, and in whatever order and however often the tokens are given. -/
theorem readMany_agrees (v : Vault) {password : String} (hp : password ≠ "") (now : Instant)
    {s : Scene} {es : List Entry} (hs : s.store.Holds es) (hq : s.caller.raised = false)
    (tokens : List String) :
    (∃ r s', (v.readMany tokens password).Ends (Manner.calm (· = now)).answers s r s') ∧
    ∀ r s', (v.readMany tokens password).Ends (Manner.calm (· = now)).answers s r s' → s' = s ∧
      ((∃ found, r = .ok found) ↔ ∀ token ∈ tokens, token ≠ "" →
        ∀ cause, ¬ Yields v password now es token (.error cause)) ∧
      (∀ found, r = .ok found → (found.map (·.1)).Nodup ∧
        ∀ token text, (token, text) ∈ found ↔ token ∈ tokens ∧ token ≠ "" ∧
          ∃ s', (v.read token password).Ends (Manner.calm (· = now)).answers s (.ok text) s') ∧
      (∀ error, r = .error error → ∃ cause, error = .decryption cause ∧
        ∃ token ∈ tokens, token ≠ "" ∧
          ∃ s', (v.read token password).Ends (Manner.calm (· = now)).answers s (.error error) s') ∧
      ∀ (v' : Vault) (tokens' : List String), v'.lock = v.lock →
        (∀ token, token ∈ tokens' ↔ token ∈ tokens) →
          ∀ r₂ s₂, (v'.readMany tokens' password).Ends (Manner.calm (· = now)).answers s r₂ s₂ →
            (∀ found, r = .ok found → ∃ found₂, r₂ = .ok found₂ ∧ found₂.Perm found) ∧
            ∀ error, r = .error error → ∃ error₂, r₂ = .error error₂ := by
  refine ⟨Manner.exists_ends ⟨now, rfl⟩ (fun _ => ⟨.ofNat 0, trivial⟩)
    (fun _ => ⟨.ok "", trivial⟩) _ s, fun r s' h => ?_⟩
  obtain ⟨rfl, hr⟩ := readMany_gathers hp hs hq h
  have hasked : ∀ {token}, token ∈ tokens.filter (· ≠ "") ↔ token ∈ tokens ∧ token ≠ "" := by
    simp
  refine ⟨rfl, ?_, ?_, ?_, ?_⟩
  · rw [hr.ok_iff]
    simp only [hasked, and_imp]
  · rintro found rfl
    cases hr with
    | texts hkeys hmem hall =>
        refine ⟨hkeys, fun token text => ?_⟩
        have hread : (∃ s₂, (v.read token password).Ends (Manner.calm (· = now)).answers s'
            (.ok text) s₂) ↔ token ≠ "" ∧ Yields v password now es token (.ok text) :=
          read_iff hp hs hq (x := .ok text)
        rw [hmem, hasked, hread]
        simp only [List.not_mem_nil, false_or]
        tauto
  · rintro error rfl
    cases hr with
    | @fails token cause ht hx =>
        obtain ⟨hm, hne⟩ := hasked.1 ht
        exact ⟨cause, rfl, token, hm, hne, (read_iff hp hs hq (x := .error cause)).2 ⟨hne, hx⟩⟩
  · intro v' tokens' hv htokens r₂ s₂ h₂
    have hr₂ : Gathers v password now es (tokens.filter (· ≠ "")) [] r₂ :=
      ((readMany_gathers hp hs hq h₂).2.of_lock hv).congr fun token x _ => by simp [htokens]
    constructor
    · rintro found rfl
      obtain ⟨found₂, rfl⟩ := hr₂.ok_iff.2 (hr.ok_iff.1 ⟨found, rfl⟩)
      exact ⟨found₂, rfl, hr.perm hr₂⟩
    · rintro error rfl
      cases r₂ with
      | error error₂ => exact ⟨error₂, rfl⟩
      | ok found₂ =>
          obtain ⟨found, heq⟩ := hr.ok_iff.2 (hr₂.ok_iff.1 ⟨found₂, rfl⟩)
          cases heq

end

/-- Two entries: one that unlocks, and one that has expired after the first second. -/
def readSamples : List Entry :=
  [⟨.ofNat 0, "first", Vault.usual.lock.lock "text" "password" (List.replicate 28 0), default,
      default, none, none⟩,
    ⟨.ofNat 1, "second", "plain", default, default, some (.ofSecond 1), none⟩]

/-- A store with the two entries. -/
def readScene : Scene :=
  ⟨.indexed ⟨readSamples, [("first", .ofNat 0), ("second", .ofNat 1)]⟩, .idle, []⟩

theorem holds_readSamples : readScene.store.Holds readSamples := by
  refine ⟨⟨?_, ?_, by decide, fun token id => ?_⟩, rfl⟩
  · exact List.pairwise_pair.2 (by decide)
  · decide
  · simp [readSamples, eq_comm]

/-- Of two entries, one is found. -/
theorem readMany_agrees_readSamples :
    ∃ found s', (Vault.usual.readMany ["second", "first", "", "third", "first"] "password").Ends
        (Manner.calm (· = .ofSecond 2)).answers readScene (.ok found) s' ∧
      ("first", "text") ∈ found := by
  have hp : "password" ≠ "" := by decide
  have hunlock : Vault.usual.lock.unlock
      (Vault.usual.lock.lock "text" "password" (List.replicate 28 0)) "password" = .ok "text" :=
    Lock.unlock_lock ⟨by decide, by decide⟩
  have hlive : ∀ token x, Yields Vault.usual "password" (.ofSecond 2) readSamples token x →
      x = .ok "text" := by
    rintro token x ⟨e, he, -, hl, rfl⟩
    simp only [readSamples, List.mem_cons, List.not_mem_nil, or_false] at he
    rcases he with rfl | rfl
    · exact hunlock
    · exact absurd hl (by decide)
  obtain ⟨⟨r, s', h⟩, hall⟩ := readMany_agrees Vault.usual hp (.ofSecond 2) holds_readSamples rfl
    ["second", "first", "", "third", "first"]
  obtain ⟨-, hok, hfound, -⟩ := hall r s' h
  obtain ⟨found, rfl⟩ := hok.2 fun token _ _ cause hx => by cases hlive token _ hx
  refine ⟨found, s', h, ((hfound found rfl).2 "first" "text").2 ⟨by simp, by decide, ?_⟩⟩
  exact (read_iff hp holds_readSamples rfl (x := .ok "text")).2
    ⟨by decide, _, List.mem_cons_self, rfl, rfl, hunlock⟩

end Vault

end Strongbox
