import Strongbox.Proofs.Rotation.Schedule
import Strongbox.Proofs.Vault.Pages

/-!
# Vault — looks before writes

Work in order looks at the caller's cancellation before each entry, and then writes the entry or
leaves it alone.  So each write has a look of its own that found the cancellation not raised, and
once the caller has cancelled, only the entry in progress can still be written.

* `Guarded`: a log whose writes have looks of their own.
* `Heeds`: a log that heeds a cancellation; `Guarded.heeds`: a guarded log does.
* `WorksOn`: work that writes its entry at most once and does not look itself.
* `guards_eachEntry`, `guards_eachPage`: work in order and page by page is guarded.
-/

namespace Strongbox

/-- The id of the entry that the store has rewritten or taken out. -/
def Exchange.target? {σ : Type} (x : Exchange σ) : Option Uuid :=
  match x with
  | ⟨.store (.update e _), .ok _, _⟩ => some e.id
  | ⟨.store (.erase id), .ok _, _⟩ => some id
  | _ => none

/-! ### What a log tells of a cancellation -/

/-- The exchanges from `s` to `s'`, the latest first, in surroundings where a cancellation is not
taken back and every look finds out whether there is one. -/
structure Told {σ : Type} (raised : σ → Prop) (s : σ) (new : List (Exchange σ)) (s' : σ) :
    Prop where
  onward : new.Pairwise fun y x => raised x.after → raised y.after
  tells : ∀ x ∈ new, ∀ c, x.look? = some c → (c.raised = true ↔ raised x.after)
  starts : raised s → ∀ x ∈ new, raised x.after
  ends : ∀ x ∈ new, raised x.after → raised s'

/-- Each write of the log comes after a look that found the cancellation not raised, with no other
look and no other write in between. -/
def Guarded {σ : Type} (log : List (Exchange σ)) : Prop :=
  ∀ after y before, log = after ++ y :: before → y.writes = true →
    ∃ quiet x c earlier, before = quiet ++ x :: earlier ∧ x.look? = some c ∧ c.raised = false ∧
      ∀ z ∈ quiet, z.writes = false ∧ z.look? = none

/-- From a question on at which the caller has cancelled, at most one entry is written; and if one
is written after the question, then before the next look. -/
structure Heeds {σ : Type} (raised : σ → Prop) (log : List (Exchange σ)) : Prop where
  once : ∀ later x earlier, log = later ++ x :: earlier → raised x.after →
    (later ++ [x]).countP Exchange.writes ≤ 1
  soon : ∀ after y between x earlier, log = after ++ y :: (between ++ x :: earlier) →
    raised x.after → y.writes = true → ∀ z ∈ between ++ [x], z.look? = none

section

variable {α β σ : Type} {S : Surroundings σ} {raised : σ → Prop} {s s' : σ}
  {log new old : List (Exchange σ)}

/-- **The log of a run** tells of cancellations. -/
theorem Program.Ends.told (hS : Watched S raised) {p : Program α} {a : α} {s s' : Logged σ}
    (h : p.Ends (logged S) s a s') :
    ∃ new, s'.log = new ++ s.log ∧ Told raised s.state new s'.state := by
  have hkeeps : ∀ (r : Request) (s : Logged σ) (x : r.Reply) (s' : Logged σ),
      logged S r s x s' → raised s.state → raised s'.state := fun r _ x _ hx =>
    hS.keeps r _ x _ hx.1
  induction p generalizing s with
  | done b =>
      obtain ⟨-, rfl⟩ := h
      refine ⟨[], rfl, .nil, ?_, ?_, ?_⟩ <;> simp
  | ask r next ih =>
      obtain ⟨x, t, hx, h⟩ := h
      obtain ⟨new, hlog, honward, htells, hstarts, hends⟩ := ih x h
      refine ⟨new ++ [⟨r, x, t.state⟩], by rw [hlog, hx.2, List.append_assoc]; rfl, ?_, ?_, ?_, ?_⟩
      · refine List.pairwise_append.2 ⟨honward, List.pairwise_singleton _ _, fun y hy z hz => ?_⟩
        obtain rfl := List.mem_singleton.1 hz
        exact fun hr => hstarts hr y hy
      · refine List.forall_mem_append.2 ⟨htells, List.forall_mem_singleton.2 fun c hc => ?_⟩
        cases r <;> cases hc
        exact hS.tells _ _ _ hx.1
      · intro hr
        have ht := hkeeps _ _ _ _ hx hr
        exact List.forall_mem_append.2 ⟨hstarts ht, List.forall_mem_singleton.2 ht⟩
      · exact List.forall_mem_append.2 ⟨hends, List.forall_mem_singleton.2 fun ht =>
          Program.Ends.keeps (I := fun s => raised s.state) hkeeps h ht⟩

/-- Between a question at which the caller has cancelled and a write there is neither a look nor a
write. -/
theorem Guarded.quiet (hg : Guarded log) (ht : Told raised s log s')
    {after between earlier : List (Exchange σ)} {x y : Exchange σ}
    (hlog : log = after ++ y :: (between ++ x :: earlier)) (hx : raised x.after)
    (hy : y.writes = true) : ∀ z ∈ between ++ [x], z.writes = false ∧ z.look? = none := by
  obtain ⟨quiet, l, c, rest, hsplit, hl, hc, hquiet⟩ := hg _ _ _ hlog hy
  have hsince : log = after ++ y :: ((between ++ [x]) ++ earlier) := by
    rw [hlog, List.append_assoc]
    rfl
  -- the look of the write does not lie there: it would have found the cancellation raised
  have hlook : l ∉ between ++ [x] := by
    intro hmem
    have hsub : (between ++ [x]).Sublist log := by
      rw [hsince]
      exact (List.sublist_append_left _ _).trans ((List.sublist_cons_self _ _).trans
        (List.sublist_append_right _ _))
    have hraised : raised l.after := by
      rcases List.mem_append.1 hmem with hm | hm
      · exact (List.pairwise_append.1 (ht.onward.sublist hsub)).2.2 l hm x
          (List.mem_singleton_self x) hx
      · obtain rfl := List.mem_singleton.1 hm
        exact hx
    rw [(ht.tells l (hsub.subset hmem) c hl).2 hraised] at hc
    cases hc
  have hboth : (between ++ [x]) ++ earlier = quiet ++ l :: rest := by
    rw [← hsplit, List.append_assoc]
    rfl
  rcases List.append_eq_append_iff.1 hboth with ⟨more, rfl, -⟩ | ⟨more, heq, hrest⟩
  · exact fun z hz => hquiet z (List.mem_append_left _ hz)
  · cases more with
    | nil =>
        rw [heq, List.append_nil]
        exact hquiet
    | cons z more =>
        obtain ⟨rfl, -⟩ := List.cons.inj hrest
        exact absurd (heq ▸ List.mem_append_right _ List.mem_cons_self) hlook

/-- **A guarded log heeds a cancellation.** -/
theorem Guarded.heeds (hg : Guarded log) (ht : Told raised s log s') : Heeds raised log where
  soon _ _ _ _ _ hlog hx hy z hz := (hg.quiet ht hlog hx hy z hz).2
  once later x earlier hlog hx := by
    cases hfind : (later ++ [x]).find? Exchange.writes with
    | none =>
        rw [List.countP_eq_zero.2 (List.find?_eq_none.1 hfind)]
        exact Nat.zero_le 1
    | some y =>
        -- the last write: nothing is written after it, and nothing before it either
        obtain ⟨hy, after, before, hsplit, hnone⟩ := List.find?_eq_some_iff_append.1 hfind
        have hafter : after.countP Exchange.writes = 0 :=
          List.countP_eq_zero.2 fun z hz => by simpa using hnone z hz
        have hbefore : before.countP Exchange.writes = 0 := by
          rcases List.eq_nil_or_concat before with rfl | ⟨between, z, rfl⟩
          · rfl
          · rw [List.concat_eq_append] at hsplit ⊢
            have hlast : later ++ [x] = (after ++ y :: between) ++ [z] := by
              rw [hsplit, List.append_assoc]
              rfl
            obtain ⟨rfl, heq⟩ := List.append_inj' hlast rfl
            obtain rfl := List.singleton_inj.1 heq
            have hlog' : log = after ++ y :: (between ++ x :: earlier) := by
              rw [hlog, List.append_assoc]
              rfl
            exact List.countP_eq_zero.2 fun z hz => by
              simp [(hg.quiet ht hlog' hx hy z hz).1]
        have hone : (later ++ [x]).countP Exchange.writes = 1 := by
          rw [hsplit, List.countP_append, List.countP_cons_of_pos hy, hafter, hbefore]
        exact Nat.le_of_eq hone

/-! ### Guarded logs -/

/-- A write is not a look. -/
theorem look?_of_writes {x : Exchange σ} (h : x.writes = true) : x.look? = none := by
  obtain ⟨r, reply, a⟩ := x
  cases r with
  | cancellation => cases h
  | store | random | now | freshId | token | turns | extent => rfl

theorem guarded_of_reads (h : ∀ x ∈ log, x.writes = false) : Guarded log := by
  rintro after y before rfl hy
  rw [h y (List.mem_append_right _ List.mem_cons_self)] at hy
  cases hy

/-- One guarded log after another. -/
theorem Guarded.append (hn : Guarded new) (ho : Guarded old) : Guarded (new ++ old) := by
  intro after y before hlog hy
  rcases List.append_eq_append_iff.1 hlog with ⟨more, rfl, hold⟩ | ⟨more, rfl, hmore⟩
  · exact ho _ _ _ hold hy
  · cases more with
    | nil => exact ho [] y before hmore.symm hy
    | cons z more =>
        obtain ⟨rfl, rfl⟩ := List.cons.inj hmore
        obtain ⟨quiet, x, c, earlier, rfl, hx⟩ := hn _ _ _ rfl hy
        exact ⟨quiet, x, c, earlier ++ old, List.append_assoc quiet (x :: earlier) old, hx⟩

/-- At most one write after a look that found the cancellation not raised. -/
theorem guarded_of_look {x : Exchange σ} {c : Cancellation} (hx : x.look? = some c)
    (hc : c.raised = false) (hlooks : ∀ z ∈ new, z.look? = none)
    (hw : new.countP Exchange.writes ≤ 1) : Guarded (new ++ [x]) := by
  intro after y before hlog hy
  rcases List.append_eq_append_iff.1 hlog with ⟨more, -, hold⟩ | ⟨more, rfl, hmore⟩
  · -- the look is not a write
    have hmem : y ∈ [x] := hold ▸ List.mem_append_right _ List.mem_cons_self
    obtain rfl := List.mem_singleton.1 hmem
    exact absurd hx (by rw [look?_of_writes hy]; exact nofun)
  · cases more with
    | nil =>
        obtain ⟨rfl, -⟩ := List.cons.inj hmore
        exact absurd hx (by rw [look?_of_writes hy]; exact nofun)
    | cons z more =>
        obtain ⟨rfl, rfl⟩ := List.cons.inj hmore
        rw [List.countP_append, List.countP_cons_of_pos hy] at hw
        have hnone : more.countP Exchange.writes = 0 := by omega
        refine ⟨more, x, c, [], rfl, hx, hc, fun z hz => ⟨?_, ?_⟩⟩
        · exact eq_false_of_ne_true (List.countP_eq_zero.1 hnone z hz)
        · exact hlooks z (List.mem_append_right _ (List.mem_cons_of_mem _ hz))

/-! ### Guarded programs -/

/-- What the program does in any run is guarded. -/
def Program.Guards (S : Surroundings σ) (p : Program α) : Prop :=
  ∀ ⦃s a s'⦄, p.Ends (logged S) s a s' → ∃ new, s'.log = new ++ s.log ∧ Guarded new

/-- What the job does in any run is guarded. -/
def Job.Guards (S : Surroundings σ) (j : Job α) : Prop :=
  Program.Guards S j.run

/-- Whatever is replied to the question, nothing is written. -/
def Request.Reads (r : Request) : Prop :=
  ∀ ⦃σ : Type⦄ (x : r.Reply) (s : σ), (⟨r, x, s⟩ : Exchange σ).writes = false

namespace Program

theorem guards_done (a : α) : (done a).Guards S := by
  rintro s b s' ⟨-, rfl⟩
  exact ⟨[], rfl, guarded_of_reads fun _ hx => absurd hx List.not_mem_nil⟩

theorem guards_reply {r : Request} (hr : r.Reads) : (reply r).Guards S := by
  intro s x s' h
  obtain ⟨-, hlog⟩ := ends_reply.1 h
  exact ⟨[_], hlog, guarded_of_reads (List.forall_mem_singleton.2 (hr x s'.state))⟩

/-- **One program after another.** -/
theorem Guards.bind {p : Program α} {f : α → Program β} (hp : p.Guards S)
    (hf : ∀ a, (f a).Guards S) : (p.bind f).Guards S := by
  intro s b s' h
  obtain ⟨a, t, ha, hb⟩ := ends_bind.1 h
  obtain ⟨old, hold, ho⟩ := hp ha
  obtain ⟨new, hnew, hn⟩ := hf a hb
  exact ⟨new ++ old, by rw [hnew, hold, List.append_assoc], hn.append ho⟩

end Program

namespace Job

theorem guards_ofExcept (x : Except VaultError α) : Guards S (ofExcept x) :=
  Program.guards_done x

theorem guards_reply {r : Request} (hr : r.Reads) : Guards S (reply r) :=
  (Program.guards_reply hr).bind fun _ => Program.guards_done _

theorem Guards.bind {j : Job α} {f : α → Job β} (hj : Guards S j) (hf : ∀ a, Guards S (f a)) :
    Guards S (j >>= f) := by
  refine Program.Guards.bind hj fun r => ?_
  cases r with
  | ok a => exact hf a
  | error e => exact Program.guards_done _

theorem guards_call {c : Store.Call} (hc : (Request.store c).Reads) : Guards S (call c) :=
  (guards_reply hc).bind fun _ => guards_ofExcept _

theorem guards_checkpoint (n : Nat) : Guards S (checkpoint n) :=
  (guards_reply fun _ _ _ => rfl).bind fun _ => guards_ofExcept _

theorem guards_lift {p : Program α} (hp : p.Guards S) : Guards S (ExceptT.lift p) :=
  Program.Guards.bind hp fun _ => Program.guards_done _

end Job

/-! ### Work in order and page by page -/

/-- Work on an entry does not look for a cancellation, and it writes at most once and nothing but
the entry. -/
def WorksOn (S : Surroundings σ) (act : Entry → Job Bool) : Prop :=
  ∀ ⦃e s r s'⦄, (act e).Ends (logged S) s r s' → ∃ new, s'.log = new ++ s.log ∧
    (∀ x ∈ new, x.look? = none) ∧ new.countP Exchange.writes ≤ 1 ∧
      ∀ x ∈ new, x.writes = true → x.target? = some e.id

variable {act : Entry → Job Bool}

/-- Work on one entry at its turn. -/
theorem WorksOn.guards (hact : WorksOn S act) (n : Nat) (e : Entry) :
    Job.Guards S (do Job.checkpoint n; act e) := by
  intro s r s' h
  obtain ⟨c, t, ⟨-, hlook⟩, ⟨-, -, rfl⟩ | ⟨hraised, hwork⟩⟩ :=
    Job.ends_checkpoint_cases (Job.ends_def.1 h)
  · exact ⟨[_], hlook, guarded_of_reads (List.forall_mem_singleton.2 rfl)⟩
  · obtain ⟨new, hlog, hlooks, hw, -⟩ := hact hwork
    refine ⟨new ++ [⟨.cancellation, c, t.state⟩], ?_, guarded_of_look rfl hraised hlooks hw⟩
    rw [hlog, hlook, List.append_assoc]
    rfl

/-- **Work on entries in order.** -/
theorem guards_eachEntry (hact : WorksOn S act) (entries : List Entry) (n : Nat) :
    (eachEntry act n entries).Guards S := by
  induction entries generalizing n with
  | nil => exact Program.guards_done _
  | cons e entries ih =>
      refine Program.Guards.bind (hact.guards n e) fun x => ?_
      cases x with
      | ok counts => exact ih _
      | error error => exact Program.guards_done _

/-- **Work page by page.** -/
theorem guards_eachPage {filter : Filter} {size : Nat} {leaves : Bool}
    {work : Nat → List Entry → Program Progress} (hwork : ∀ n page, (work n page).Guards S)
    (rounds offset n : Nat) : (eachPage filter size leaves work rounds offset n).Guards S := by
  induction rounds generalizing offset n with
  | zero => exact Program.guards_done _
  | succ rounds ih =>
      have hpage : Job.Guards S (do
          Job.checkpoint n
          Job.call (.list (Query.page filter offset size))) :=
        (Job.guards_checkpoint n).bind fun _ => Job.guards_call fun _ _ _ => rfl
      refine Program.Guards.bind hpage fun x => ?_
      cases x with
      | error error => exact Program.guards_done _
      | ok page =>
          refine Program.Guards.bind (hwork n page) fun p => ?_
          dsimp only
          split
          · exact Program.guards_done _
          · exact ih _ _

/-- **A guarded program heeds a cancellation.** -/
theorem Program.Guards.heeds (hS : Watched S raised) {p : Program α} (hp : p.Guards S) {a : α}
    {s : σ} {s' : Logged σ} (h : p.Ends (logged S) ⟨s, []⟩ a s') : Heeds raised s'.log := by
  obtain ⟨new, hlog, hg⟩ := hp h
  obtain ⟨told, hlog', ht⟩ := h.told hS
  obtain rfl := List.append_cancel_right (hlog.symm.trans hlog')
  rw [hlog, List.append_nil]
  exact hg.heeds ht

end

end Strongbox
