import Strongbox.Proofs.Rotation.Questions
import Strongbox.Proofs.Rotation.Rotate
import Strongbox.Proofs.Store.Tokens
import Strongbox.Proofs.Vault.Pages
import Strongbox.Proofs.Vault.Purge
import Strongbox.Proofs.Vault.Register

/-!
# What sound settings keep within bounds

Settings that break no rule divide all work.  Work page by page over a store with a number of
admitted entries reads one page more than these fill, and no page begins after the last entry that
is then admitted; no share of a pool is empty, and no pool without workers; and a token of any
length that is drawn at all has room for its parts.

* `PagesWithin`, `PagesFit`: the pages in the log of a run.
* `Vault.purge_fits`, `Rotation.rotate_fits`: the pages of a purge and of a rotation.
* `Vault.createDefault_sparesLengths`: a secret under a token of the usual length does not fail by
  it.
* `sound_settings_fit`: what sound settings ensure.
-/

namespace Strongbox

/-- The pages that a run has read, where `total` entries were admitted at its start: at most one
more than these fill, each where the one before has left the list, and none after the last entry
that is still admitted. -/
structure PagesWithin (filter : Filter) (size : Nat) (leaves : Bool) (total : Nat)
    (log : List (Exchange Scene)) : Prop where
  number : (pages log).length ≤ total / size + 1
  follow : Follow filter size leaves 0 (pages log).reverse
  within : ∀ p ∈ pages log, ∃ left, (p.store.answer (.count filter)).1 = .ok left ∧
    p.query.offset ≤ left ∧ left ≤ total

/-- The pages that a run has read which goes through: just one more than the entries fill. -/
structure PagesFit (filter : Filter) (size : Nat) (leaves : Bool) (total : Nat)
    (log : List (Exchange Scene)) : Prop extends PagesWithin filter size leaves total log where
  all : (pages log).length = total / size + 1

/-- Where a run walks through the list, its pages fit, unless it halts. -/
theorem Walks.fits {m : Manner} {filter : Filter} {size total : Nat} {leaves : Bool}
    {work : Nat → List Entry → Program Progress} {I : Scene → Nat → List Entry → Prop}
    {halts : Prop} (hw : Walks m filter size leaves work I halts) (hsize : 0 < size)
    (hleft : ∀ {s offset todo}, I s offset todo → ∃ left,
      (s.store.answer (.count filter)).1 = .ok left ∧ offset ≤ left ∧ left ≤ total)
    {rounds n : Nat} {todo : List Entry} {s s' : Logged Scene} {p : Progress}
    (ht : todo.length = total) (hr : total < rounds) (hi : I s.state 0 todo)
    (hlog : pages s.log = [])
    (h : (Strongbox.eachPage filter size leaves work rounds 0 n).Ends (logged m.answers) s p s') :
    PagesWithin filter size leaves total s'.log ∧
      (¬ halts → PagesFit filter size leaves total s'.log) := by
  obtain ⟨met, hmet, hlen, hall, hfollow, hscenes⟩ := hw.eachPage hsize (ht ▸ hr) hi h
  rw [hlog, List.append_nil] at hmet
  rw [ht] at hlen hall
  have hwithin : PagesWithin filter size leaves total s'.log := by
    refine ⟨by rwa [hmet, List.length_reverse], by rwa [hmet, List.reverse_reverse], fun p hp => ?_⟩
    rw [hmet, List.mem_reverse] at hp
    obtain ⟨t, todo', hit, hstore⟩ := hscenes p hp
    rw [hstore]
    exact hleft hit
  exact ⟨hwithin, fun hno => ⟨hwithin, by rw [hmet, List.length_reverse, hall hno]⟩⟩

/-! ### The pages of a purge -/

namespace Vault

section

variable {σ : Type} {S : Surroundings σ} {s s' : Logged σ} {mode : PurgeMode} {now : Instant}
  {n : Nat}

/-- An expired entry at its turn: one write, or none and an error. -/
theorem purgeEntry_log {e : Entry} {r : Except VaultError Bool}
    (h : Job.Ends (logged S) (do Job.checkpoint n; purgeEntry mode now e) s r s') :
    ∃ new, s'.log = new ++ s.log ∧ (∀ x ∈ new, x.request.query? = none) ∧
      (r = .ok true ∧ new.countP Exchange.writes = 1 ∨
        (∃ error, r = .error error) ∧ new.countP Exchange.writes = 0) := by
  obtain ⟨c, u, ⟨-, hlook⟩, ⟨-, rfl, rfl⟩ | ⟨-, h₁⟩⟩ := Job.ends_checkpoint_cases h
  · exact ⟨[_], hlook, List.forall_mem_singleton.2 rfl, .inr ⟨⟨_, rfl⟩, rfl⟩⟩
  · cases mode with
    | soft | hard =>
        obtain ⟨x, t, ⟨-, hlog⟩, h₂⟩ := Job.ends_call_bind.1 h₁
        rw [hlook] at hlog
        cases x with
        | ok a =>
            obtain ⟨rfl, rfl⟩ := Job.ends_pure.1 h₂
            exact ⟨[_, _], hlog, List.forall_mem_cons.2 ⟨rfl, List.forall_mem_singleton.2 rfl⟩,
              .inl ⟨rfl, rfl⟩⟩
        | error error =>
            obtain ⟨rfl, rfl⟩ := h₂
            exact ⟨[_, _], hlog, List.forall_mem_cons.2 ⟨rfl, List.forall_mem_singleton.2 rfl⟩,
              .inr ⟨⟨_, rfl⟩, rfl⟩⟩

/-- Work on expired entries lists nothing, and counts the entries that the store has rewritten or
taken out. -/
theorem purged_log {entries : List Entry} {p : Progress}
    (h : (eachEntry (purgeEntry mode now) n entries).Ends (logged S) s p s') :
    ∃ new, s'.log = new ++ s.log ∧ (∀ x ∈ new, x.request.query? = none) ∧
      p.finished = n + new.countP Exchange.writes := by
  induction entries generalizing n s with
  | nil =>
      obtain ⟨rfl, rfl⟩ := h
      exact ⟨[], rfl, fun _ hx => absurd hx List.not_mem_nil, rfl⟩
  | cons e entries ih =>
      obtain ⟨r, t, hr, hp⟩ := Program.ends_bind.1 h
      obtain ⟨first, hlog, hnone, ⟨rfl, hone⟩ | ⟨⟨error, rfl⟩, hzero⟩⟩ :=
        purgeEntry_log (Job.ends_def.1 hr)
      · obtain ⟨rest, hlog', hnone', hcount⟩ := ih hp
        refine ⟨rest ++ first, by rw [hlog', hlog, List.append_assoc], ?_, ?_⟩
        · exact List.forall_mem_append.2 ⟨hnone', hnone⟩
        · simp only [if_true] at hcount
          rw [List.countP_append, hone, hcount]
          omega
      · obtain ⟨rfl, rfl⟩ := hp
        exact ⟨first, hlog, hnone, by rw [hzero]; rfl⟩

end

section

variable {m : Manner} {b : Backing} {es : List Entry} {mode : PurgeMode} {now : Instant}

/-- The scene of a purge of the store `b` between two pages: `offset` of the entries still listed
were looked at, and `todo` are those after them. -/
def BetweenPages (b : Backing) (es : List Entry) (mode : PurgeMode) (now : Instant) (s : Scene)
    (offset : Nat) (todo : List Entry) : Prop :=
  ∃ done front, done.Nodup ∧ es.filter (mode.lists done) = front ++ todo ∧ front.length = offset ∧
    Purging b mode now done s

/-- A purge walks through the entries that its filter admits. -/
theorem walks_purge (hf : ¬ m.failing) (hc : ¬ m.cancelling) (hb : b.Lists es) (size : Nat) :
    Walks m (purgeFilter mode) size true
      (fun n page => eachEntry (purgeEntry mode now) n (page.filter (·.isExpired now)))
      (BetweenPages b es mode now) False where
  quiet := hc
  looks := fun ⟨_, _, _, _, _, hs⟩ => hs.quiet
  reads := by
    rintro s offset todo s' x ⟨done, front, -, hl, ho, hs⟩ h
    refine Manner.eq_of_query hf ?_ rfl h
    rw [hs.store]
    exact Purging.answer_page hb hl ho size
  works := by
    rintro s s' offset n todo p ⟨done, front, hnd, hl, ho, hs⟩ h
    obtain ⟨hes, hnd'⟩ := Purging.fresh_page hb.ids hnd hl size (·.isExpired now)
    obtain ⟨rfl, hs'⟩ := hs.eachEntry hf hc hb hes hnd' h.forget
    obtain ⟨new, hlog, hnone, hcount⟩ := purged_log h
    obtain ⟨hl', ho'⟩ := Purging.next_page size hb.ids hl ho (·.isExpired now)
    refine ⟨⟨new, hlog, hnone, fun _ => hcount⟩, fun _ => ?_, .inl ⟨rfl, _, _, hnd', hl', ?_, hs'⟩⟩
    · have hle := List.length_filter_le (·.isExpired now) (todo.take size)
      dsimp only
      omega
    · -- the page leaves as many entries before the offset as were not purged
      simp only [if_true, Nat.add_sub_cancel_left]
      exact ho'

/-- Between two pages no more entries were passed than are still admitted. -/
theorem BetweenPages.left (hb : b.Lists es) {s : Scene} {offset : Nat} {todo : List Entry}
    (h : BetweenPages b es mode now s offset todo) :
    ∃ left, (s.store.answer (.count (purgeFilter mode))).1 = .ok left ∧ offset ≤ left ∧
      left ≤ es.countP (purgeFilter mode).admits := by
  obtain ⟨done, front, -, hl, rfl, hs⟩ := h
  refine ⟨_, by rw [hs.store, (hb.listing_purged mode now done).count], ?_, ?_⟩
  · rw [hl, List.length_append]
    exact Nat.le_add_right _ _
  · rw [← List.countP_eq_length_filter]
    exact List.countP_mono_left fun e _ he => (PurgeMode.lists_iff.1 he).1

/-- **The pages of a purge** fit the entries that its filter admits. -/
theorem purge_fits {v : Vault} (hf : ¬ m.failing) (hc : ¬ m.cancelling) {s : Scene}
    (hb : s.store.Lists es) (hq : s.caller.raised = false) {r : Except VaultError Nat}
    {s' : Logged Scene} (h : (v.purge mode).Ends (logged m.answers) ⟨s, []⟩ r s') :
    PagesFit (purgeFilter mode) v.settings.rotation.pageSize true
      (es.countP (purgeFilter mode).admits) s'.log := by
  obtain ⟨c, t, ⟨hlook, hlog⟩, h₁⟩ := Job.ends_checkpoint_bind.1 h
  obtain ⟨rfl, ht⟩ := Manner.eq_of_look hc hlook
  simp only [Cancellation.check_of_not_raised hq] at h₁
  obtain ⟨p, u, hwork, h₂⟩ := Job.ends_lift_bind.1 h₁
  obtain ⟨-, rfl⟩ := Job.ends_ofExcept.1 h₂
  obtain ⟨now, w, ⟨⟨-, hw⟩, hlog'⟩, hpages⟩ := Program.ends_reply_bind.1 hwork
  obtain ⟨extent, y, ⟨⟨hext, hy⟩, hlog''⟩, hp⟩ := Program.ends_reply_bind.1 hpages
  have hstate : y.state = s := hy.trans (hw.trans ht)
  have hlisted : es.filter (mode.lists []) = es.filter (purgeFilter mode).admits :=
    List.filter_congr fun e _ => by
      rw [PurgeMode.lists, List.contains_nil, Bool.not_false, Bool.and_true]
  have hstart : BetweenPages s.store es mode now y.state 0 (es.filter (purgeFilter mode).admits) :=
    ⟨[], [], List.nodup_nil, hlisted, rfl, by rw [hstate]; exact hq,
      by rw [hstate, Backing.purged_nil]⟩
  have hbound : es.countP (purgeFilter mode).admits < extent + 1 := by
    rw [hw, ht] at hext
    rw [List.countP_eq_length_filter]
    exact Nat.lt_succ_of_le (Nat.le_trans (hb.listing (purgeFilter mode)).length_le hext)
  have hempty : pages y.log = [] := by
    rw [hlog'', hlog', hlog]
    rfl
  exact ((walks_purge hf hc hb _).fits (Settings.rotation_pos v.sound).1 (BetweenPages.left hb)
    List.countP_eq_length_filter.symm hbound hstart hempty hp).2 not_false

end

end Vault

/-! ### The pages of a rotation -/

namespace Rotation

variable {m : Manner} {v : Vault} {old new : String} {b : Backing} {es : List Entry}

/-- The scene of a rotation of the store `b` between two pages: the entries before the offset were
worked on, and `todo` are the others. -/
def BetweenPages (v : Vault) (old new : String) (m : Manner) (b : Backing) (es : List Entry)
    (s : Scene) (offset : Nat) (todo : List Entry) : Prop :=
  es.drop offset = todo ∧ offset ≤ es.length ∧
    Midway v old new m b es ((es.take offset).map (·.id)) s

/-- A rotation in pages walks through all entries. -/
theorem walks_relockAll (hf : ¬ m.failing) (hc : ¬ m.cancelling) (ht : ∀ t, m.shows t → b.Takes t)
    (hids : (es.map (·.id)).Nodup) (hw : 0 < v.settings.rotation.workers) (mode : Mode)
    (size : Nat) :
    Walks m .all size false (relockAll v old new mode) (BetweenPages v old new m b es)
      (∃ e ∈ es, ∃ error, Refused v old new e error) where
  quiet := hc
  looks := fun ⟨_, _, hs⟩ => hs.quiet
  reads := by
    rintro s offset todo s' x ⟨rfl, -, hs⟩ h
    obtain ⟨es', hh, hnow⟩ := hs.entries
    rw [← Midway.page_eq hids hnow]
    exact Manner.eq_of_query hf (hh.list_page offset size) rfl h
  works := by
    rintro s s' offset n todo p ⟨rfl, ho, hs⟩ h
    have hnd : (((es.drop offset).take size).map (·.id) ++ (es.take offset).map (·.id)).Nodup := by
      rw [List.nodup_append_comm, ← List.map_append, ← List.take_add]
      exact ((List.take_sublist _ _).map _).nodup hids
    have hsub : (es.drop offset).take size ⊆ es :=
      fun e he => List.mem_of_mem_drop (List.mem_of_mem_take he)
    obtain ⟨done, hs', -, hend⟩ :=
      Midway.works_relockAll hf hc ht hids hw mode hsub hnd hs h.forget
    obtain ⟨new, hlog, hnone⟩ := h.asked (asks_relockAll (P := (·.query? = none)) rfl rfl
      (fun _ => rfl) rfl (fun _ _ => rfl) mode n _)
    have hlen : ((es.drop offset).take size).length = min size (es.length - offset) := by
      rw [List.length_take, List.length_drop]
    have htake : es.take (offset + ((es.drop offset).take size).length)
        = es.take offset ++ (es.drop offset).take size := by
      rw [List.take_add, hlen, ← List.length_drop, ← List.take_eq_take_min]
    refine ⟨⟨new, hlog, hnone, nofun⟩, nofun, ?_⟩
    rcases hend with ⟨hgo, hmem⟩ | ⟨e, he, error, hrefused, hhalt⟩
    · simp only [Bool.false_eq_true, if_false, Nat.sub_zero]
      refine .inl ⟨hgo, ?_, by omega, hs'.congr fun id => ?_⟩
      · -- a short page is the last one, and nothing is left after it
        rw [List.drop_drop]
        rcases Nat.le_total size (es.length - offset) with hle | hle
        · rw [hlen, Nat.min_eq_left hle]
        · rw [List.drop_of_length_le (by omega), List.drop_of_length_le (by omega)]
      · rw [hmem, htake, List.map_append, List.mem_append, or_comm]
    · exact .inr ⟨by rw [hhalt]; rfl, e, he, error, hrefused⟩

/-- Between two pages no more entries were passed than there are. -/
theorem BetweenPages.left {s : Scene} {offset : Nat} {todo : List Entry}
    (h : BetweenPages v old new m b es s offset todo) :
    ∃ left, (s.store.answer (.count .all)).1 = .ok left ∧ offset ≤ left ∧ left ≤ es.length := by
  obtain ⟨-, ho, hs⟩ := h
  obtain ⟨es', hh, hnow⟩ := hs.entries
  exact ⟨es.length, by rw [hh.count_all, hnow.length_eq], ho, Nat.le_refl _⟩

/-- **The pages of a rotation** fit the entries of the store, unless there is one that the new
password cannot lock. -/
theorem rotate_fits (hf : ¬ m.failing) (hc : ¬ m.cancelling) {s : Scene} (hb : s.store.Holds es)
    (ht : ∀ t, m.shows t → s.store.Takes t) (hq : s.caller.raised = false) (ho : old ≠ "")
    (hn : new ≠ "") (hpaged : v.settings.rotation.pagingAbove < es.length)
    {r : Except VaultError Nat} {s' : Logged Scene}
    (h : (v.rotate old new).Ends (logged m.answers) ⟨s, []⟩ r s') :
    PagesWithin .all v.settings.rotation.pageSize false es.length s'.log ∧
      ((∀ e ∈ es, ∀ error, ¬ Refused v old new e error) →
        PagesFit .all v.settings.rotation.pageSize false es.length s'.log) := by
  obtain ⟨he, -⟩ | ⟨-, h₁⟩ := Vault.requirePassword_bind h
  · exact absurd he ho
  obtain ⟨he, -⟩ | ⟨-, h₂⟩ := Vault.requirePassword_bind h₁
  · exact absurd he hn
  obtain ⟨c, t, ⟨hlook, hlog⟩, h₃⟩ := Job.ends_checkpoint_bind.1 h₂
  obtain ⟨rfl, hstate⟩ := Manner.eq_of_look hc hlook
  simp only [Cancellation.check_of_not_raised hq] at h₃
  obtain ⟨x, u, ⟨hx, hlog'⟩, h₄⟩ := Job.ends_call_bind.1 h₃
  rw [hstate] at hx
  obtain ⟨rfl, hu⟩ := Manner.eq_of_query hf hb.count_all rfl hx
  simp only [Nat.ne_of_gt (Nat.zero_lt_of_lt hpaged), if_false] at h₄
  obtain ⟨p, w, hwork, h₅⟩ := Job.ends_lift_bind.1 h₄
  obtain ⟨-, rfl⟩ := Job.ends_ofExcept.1 h₅
  simp only [progress, plan, decide_eq_true hpaged, if_true] at hwork
  obtain ⟨extent, y, ⟨⟨hext, hy⟩, hlog''⟩, hp⟩ := Program.ends_reply_bind.1 hwork
  have hstart : BetweenPages v old new m s.store es y.state 0 es :=
    ⟨rfl, Nat.zero_le _, midway_start hb (congrArg Scene.store (hy.trans hu))
      (by rw [hy, hu]; exact hq)⟩
  have hbound : es.length < extent + 1 := by
    rw [hu] at hext
    exact Nat.lt_succ_of_le (hb.size_eq ▸ hext)
  have hempty : pages y.log = [] := by
    rw [hlog'', hlog', hlog]
    rfl
  obtain ⟨hsize, -, hworkers, -⟩ := Settings.rotation_pos v.sound
  refine ((walks_relockAll hf hc ht hb.ids hworkers _ _).fits hsize BetweenPages.left rfl hbound
    hstart hempty hp).imp_right fun hfit hnone => hfit ?_
  rintro ⟨e, he, error, hrefused⟩
  exact hnone e he error hrefused

end Rotation

/-! ### Tokens of the usual length -/

/-- In surroundings of the manner no run of the job fails by the length of a token. -/
def Job.SparesLengths {α : Type} (m : Manner) (j : Job α) : Prop :=
  ∀ s r s', j.Ends m.answers s r s' → ∀ e, r ≠ .error (.token e)

namespace Job

variable {α β : Type} {m : Manner}

theorem SparesLengths.bind {j : Job α} {f : α → Job β} (hj : SparesLengths m j)
    (hf : ∀ a, SparesLengths m (f a)) : SparesLengths m (j >>= f) := by
  intro s r s' h e
  rcases ends_bind.1 h with ⟨a, t, -, ha⟩ | ⟨error, hj', rfl⟩
  · exact hf a t r s' ha e
  · exact fun he => hj s _ s' hj' e (congrArg Except.error (Except.error.inj he))

theorem sparesLengths_ofExcept {x : Except VaultError α} (hx : ∀ e, x ≠ .error (.token e)) :
    SparesLengths m (ofExcept x) := by
  rintro s r s' ⟨rfl, -⟩
  exact hx

theorem sparesLengths_pure {a : α} : SparesLengths m (pure a : Job α) :=
  sparesLengths_ofExcept fun _ he => by cases he

theorem sparesLengths_reply {q : Request} : SparesLengths m (reply q) := by
  rintro s r s' ⟨x, t, -, rfl, -⟩ e he
  cases he

theorem sparesLengths_call {c : Store.Call} : SparesLengths m (call c) :=
  sparesLengths_reply.bind fun x => sparesLengths_ofExcept fun e he => by
    cases x <;> cases he

theorem sparesLengths_checkpoint {n : Nat} : SparesLengths m (checkpoint n) :=
  sparesLengths_reply.bind fun c => sparesLengths_ofExcept fun e he => by
    simp only [Cancellation.check] at he
    split at he <;> cases he

end Job

namespace Vault

variable {v : Vault} {m : Manner}

/-- A token of a length is drawn by the generator of the vault. -/
def Generates (v : Vault) (length : Nat) (x : Except LengthError String) : Prop :=
  ∃ (millis : Nat) (supply : Supply), x = (v.generator.make length millis supply).map (·.1)

/-- The usual length is one that the generator takes. -/
theorem make_usual (v : Vault) (millis : Nat) (supply : Supply) :
    ∃ got, v.generator.make v.settings.tokens.usual millis supply = .ok got := by
  obtain ⟨hleast, hmost⟩ := v.generator_bounds
  obtain ⟨-, -, husual, -⟩ := Settings.tokens_sound v.sound
  rw [Token.Generator.make, hleast, hmost, if_pos husual]
  exact ⟨_, rfl⟩

/-- Where every draw gives a token, the search for a free one does not fail by its length. -/
theorem freeToken_sparesLengths {length : Nat}
    (hd : ∀ x, m.draws length x → ∃ token, x = .ok token) (left : Nat) :
    Job.SparesLengths m (v.freeToken length left) := by
  induction left with
  | zero => exact Job.sparesLengths_ofExcept fun _ he => by cases he
  | succ left ih =>
      intro s r s' h
      obtain ⟨x, t, ⟨hx, rfl⟩, h₁⟩ := Job.ends_reply_bind.1 h
      obtain ⟨token, rfl⟩ := hd x hx
      refine Job.sparesLengths_call.bind (fun found => ?_) _ _ _ (Job.ends_ofExcept_bind.1 h₁)
      cases found with
      | none => exact Job.sparesLengths_pure
      | some _ => exact ih

/-- **A secret under a token of the usual length** never fails by the length, where the tokens come
from the generator of the vault. -/
theorem createDefault_sparesLengths (hd : ∀ n x, m.draws n x → v.Generates n x)
    (text password : String) (expires : Option Instant) :
    Job.SparesLengths m (v.createDefault text password expires) := by
  have hdraws : ∀ x, m.draws v.settings.tokens.usual x → ∃ token, x = .ok token := by
    intro x hx
    obtain ⟨millis, supply, rfl⟩ := hd _ _ hx
    obtain ⟨got, hgot⟩ := v.make_usual millis supply
    exact ⟨got.1, by rw [hgot]; rfl⟩
  have hpassword : Job.SparesLengths m (requirePassword password) :=
    Job.sparesLengths_ofExcept fun e he => by split at he <;> cases he
  have hlock : Job.SparesLengths m (v.lockText text password) :=
    Job.sparesLengths_reply.bind fun head => Job.sparesLengths_ofExcept fun e he => by
      cases htry : v.lock.tryLock text password head <;> rw [htry] at he <;> cases he
  have hstore : ∀ token, Job.SparesLengths m (v.store token text password expires) := fun token =>
    hlock.bind fun _ => Job.sparesLengths_reply.bind fun _ => Job.sparesLengths_reply.bind fun _ =>
      Job.sparesLengths_call
  exact hpassword.bind fun _ => Job.sparesLengths_checkpoint.bind fun _ =>
    (freeToken_sparesLengths hdraws _).bind fun token =>
      (hstore token).bind fun _ => Job.sparesLengths_pure

end Vault

/-! ### Sound settings -/

/-- There is room in a token of the length for its mark, its stamp and its suffix. -/
def Token.Fits (length : Nat) : Prop :=
  mark.length ≤ length ∧ leastSuffix ≤ length - mark.length ∧
    Generator.stampLength length ≤ length - mark.length ∧
    Generator.stampLength length ≤ stampWidth

/-- A token that is drawn at all has room for its parts. -/
theorem Token.Generator.fits_of_make {g : Generator} {length millis : Nat} {supply : Supply}
    {got : String × Supply} (h : g.make length millis supply = .ok got) : Fits length := by
  simp only [make] at h
  split at h
  · rename_i hlen
    have hfloor : mark.length + leastStamp + leastSuffix ≤ length :=
      Nat.le_trans g.floor_le hlen.1
    refine ⟨by omega, by omega, ?_, Nat.min_le_left _ _⟩
    have : stampLength length ≤ length - mark.length - leastSuffix := Nat.min_le_right _ _
    omega
  · cases h

/-- In calm surroundings the job ends, and the log of every run of it is one of `P`. -/
def Job.CalmLogs {α : Type} (j : Job α) (shows : Instant → Prop) (s : Scene)
    (P : List (Exchange Scene) → Prop) : Prop :=
  (∃ r s', j.Ends (logged (Manner.calm shows).answers) ⟨s, []⟩ r s') ∧
    ∀ r s', j.Ends (logged (Manner.calm shows).answers) ⟨s, []⟩ r s' → P s'.log

theorem Job.calmLogs {α : Type} {j : Job α} {shows : Instant → Prop} (hs : ∃ t, shows t)
    {s : Scene} {P : List (Exchange Scene) → Prop}
    (h : ∀ {r s'}, j.Ends (logged (Manner.calm shows).answers) ⟨s, []⟩ r s' → P s'.log) :
    j.CalmLogs shows s P := by
  obtain ⟨r, s', hr⟩ := Manner.exists_ends (m := .calm shows) hs (fun _ => ⟨.ofNat 0, trivial⟩)
    (fun _ => ⟨.ok "", trivial⟩) j.run s
  obtain ⟨log, hlog⟩ := hr.exists_log []
  exact ⟨⟨r, _, hlog⟩, fun _ _ => h⟩

/-- **What sound settings ensure.**  No size that divides work is zero, and a pool with entries has
a worker.  A token that the generator draws has room for its parts, and the generator takes the
usual length.  In calm surroundings, over any indexed store, purges of both modes and rotations in
pages end, and their pages fit the entries that their filter admits, or are fewer where a rotation
meets a text that the new password cannot lock; and no secret under a token of the usual length
fails by the length. -/
theorem sound_settings_fit {settings : Settings} (h : settings.fault? = none) :
    (0 < settings.rotation.pageSize ∧ 0 < settings.rotation.batchSize ∧
      ∀ entries : List Entry, entries ≠ [] →
        let shares := batches settings.rotation.batchSize entries
        (Rotation.Pool.start shares settings.rotation.queueDepth
          (min settings.rotation.workers shares.length)).workers ≠ []) ∧
    (∀ g, g = Token.Generator.ofBounds settings.tokens.least settings.tokens.most →
      (∀ length millis supply got, g.make length millis supply = .ok got → Token.Fits length) ∧
      ∀ millis supply, ∃ got, g.make settings.tokens.usual millis supply = .ok got) ∧
    ∀ v : Vault, v.settings = settings → ∀ s : Scene, s.caller.raised = false →
      ∀ store : Store.Indexed, store.Sound → s.store = .indexed store →
        (∀ shows : Instant → Prop, (∃ t, shows t) →
          (∀ mode : PurgeMode, (v.purge mode).CalmLogs shows s
            (PagesFit (Vault.purgeFilter mode) settings.rotation.pageSize true
              (store.rows.countP (Vault.purgeFilter mode).admits))) ∧
          ∀ old new : String, old ≠ "" → new ≠ "" →
            settings.rotation.pagingAbove < store.rows.length →
            (v.rotate old new).CalmLogs shows s fun log =>
              PagesWithin .all settings.rotation.pageSize false store.rows.length log ∧
              ((∀ e ∈ store.rows, ∀ error, ¬ Rotation.Refused v old new e error) →
                PagesFit .all settings.rotation.pageSize false store.rows.length log)) ∧
        ∀ (text password : String) (expires : Option Instant) (m : Manner),
          (∀ n x, m.draws n x → v.Generates n x) → ∀ r s',
            (v.createDefault text password expires).Ends m.answers s r s' →
              ∀ e, r ≠ .error (.token e) := by
  obtain ⟨hpage, hbatch, hworkers, -⟩ := Settings.rotation_pos h
  refine ⟨⟨hpage, hbatch, fun entries hne => ?_⟩, ?_, ?_⟩
  · have hshares : batches settings.rotation.batchSize entries ≠ [] := fun hnil =>
      hne ((flatten_batches entries).symm.trans (congrArg List.flatten hnil))
    have hpool := Nat.lt_min.2 ⟨hworkers, List.length_pos_iff.2 hshares⟩
    exact fun hnone => Nat.ne_of_gt hpool ((List.replicate_eq_nil_iff _).1 hnone)
  · rintro _ rfl
    refine ⟨fun _ _ _ _ => Token.Generator.fits_of_make, fun millis supply => ?_⟩
    obtain ⟨hfloor, hmost, husual, -⟩ := Settings.tokens_sound h
    have hadmits : max settings.tokens.least Token.floor ≤ settings.tokens.usual ∧
        settings.tokens.usual
          ≤ max settings.tokens.most (max settings.tokens.least Token.floor) := by omega
    exact ⟨_, if_pos hadmits⟩
  · rintro v rfl s hq store hsound hstore
    have hholds : s.store.Holds store.rows := by
      rw [hstore]
      exact ⟨hsound, rfl⟩
    refine ⟨fun shows hshow => ⟨fun mode => ?_, fun old new ho hn hpaged => ?_⟩, ?_⟩
    · exact Job.calmLogs hshow (Vault.purge_fits id id hholds.lists hq)
    · refine Job.calmLogs hshow (Rotation.rotate_fits id id hholds (fun t _ => ?_) hq ho hn hpaged)
      rw [hstore]
      trivial
    · intro text password expires m hd r s' hr
      exact Vault.createDefault_sparesLengths hd text password expires s r s' hr

/-- A purge of a store with two entries under the usual settings. -/
theorem sound_settings_fit_samples :
    (Vault.usual.purge .hard).CalmLogs (fun _ => True) Rotation.sampleScene
      (PagesFit .all 1000 true 2) :=
  (((sound_settings_fit (by decide : Vault.usual.settings.fault? = none)).2.2 Vault.usual rfl
    Rotation.sampleScene rfl _ Rotation.holds_samples.1 rfl).1 (fun _ => True)
    ⟨default, trivial⟩).1 .hard

end Strongbox
