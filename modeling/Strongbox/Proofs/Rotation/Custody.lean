import Strongbox.Proofs.Lock.Spelling
import Strongbox.Proofs.Rotation.Moments
import Strongbox.Proofs.Rotation.Rotate

/-!
# Rotation — no secret is lost

Several rotations follow one another, each with its own passwords and rules, and each may be cut off
at any moment, by a cancellation, by failing calls to the store or because nobody goes on with it.
As long as no locked text of theirs opens under two different passwords, every entry stays, and its
secret opens under the password that it was handed on to.

* `Kin`: what one rotation makes of an entry up to some moment.
* `Custody`: the scene at a moment of one rotation; `Custody.rotate` keeps it.
* `Rotations`: several rotations, each cut off at some moment.
* `sealed_rotate`: what a rotation writes is locked under its new password.
* `secrets_kept`: what becomes of every entry and its secret.
-/

namespace Strongbox

/-! ### Reads -/

/-- What reads leaves the store, and what was written, as they were. -/
theorem Manner.same_of_reads {m : Manner} {r : Request} {s s' : Scene} {x : r.Reply}
    (hr : r.reads = true) (h : m.answers r s x s') :
    s'.store = s.store ∧ s'.written = s.written := by
  cases r with
  | store c =>
      rcases h with ⟨-, rfl⟩ | ⟨-, -, rfl⟩
      · cases c with
        | create | update | erase => cases hr
        | findId | findToken | list | count =>
            refine ⟨by simp only [Scene.after]; cases s.store <;> rfl, ?_⟩
            simp only [Scene.after, Store.Call.updates, List.nil_append]
            split <;> rfl
      · exact ⟨rfl, rfl⟩
  | cancellation =>
      obtain ⟨-, rfl⟩ := h
      exact ⟨rfl, rfl⟩
  | turns =>
      obtain rfl := h
      exact ⟨rfl, rfl⟩
  | random | now | freshId | token | extent =>
      obtain ⟨-, rfl⟩ := h
      exact ⟨rfl, rfl⟩

/-- What was written stays written. -/
theorem Manner.written_subset {m : Manner} {r : Request} {s s' : Scene} {x : r.Reply}
    (h : m.answers r s x s') : s.written ⊆ s'.written := by
  cases r with
  | store c =>
      rcases h with ⟨-, rfl⟩ | ⟨-, -, rfl⟩
      · simp only [Scene.after]
        split
        · exact List.subset_append_right _ _
        · exact List.Subset.refl _
      · exact List.Subset.refl _
  | cancellation | turns | random | now | freshId | token | extent =>
      rw [(same_of_reads rfl h).2]
      exact List.Subset.refl _

namespace Rotation

variable {m : Manner} {l : Lock} {v : Vault} {old new : String} {s s' t : Scene}

/-! ### One entry -/

theorem lockText_passes {text password : String}
    (h : (v.lockText text password).Passes m.answers s t) : t = s := by
  rcases Job.passes_bind.1 h with h₁ | ⟨head, u, h₁, h₂⟩
  · rcases Job.passes_reply.1 h₁ with h₁ | ⟨head, -, h₁⟩ <;> exact h₁
  · obtain ⟨_, ⟨-, rfl⟩, -⟩ := Job.ends_reply.1 h₁
    exact h₂

/-- **The moments of work on one entry**: before it is written and after. -/
theorem relockEntry_passes {e : Entry} (h : (relockEntry v old new e).Passes m.answers s t) :
    t = s ∨ ∃ text head now, v.lock.unlock e.locked old = .ok text ∧
      v.lock.Fits text new head ∧ m.shows now ∧
      (s.store.answer (relocking v e text new head now)).1 = .ok () ∧
      t = s.after (relocking v e text new head now) := by
  simp only [relockEntry] at h
  cases hu : v.lock.unlock e.locked old with
  | error error =>
      rw [hu] at h
      exact .inl h
  | ok text =>
      rw [hu] at h
      rcases Job.passes_bind.1 h with h₁ | ⟨locked, u, h₁, h₂⟩
      · exact .inl (lockText_passes h₁)
      obtain ⟨head, hfits, rfl, rfl⟩ := Vault.lockText_ok h₁
      rcases Job.passes_bind.1 h₂ with h₃ | ⟨now, w, h₃, h₄⟩
      · rcases Job.passes_reply.1 h₃ with h₃ | ⟨now, -, h₃⟩ <;> exact .inl h₃
      obtain ⟨now', ⟨hnow, rfl⟩, he⟩ := Job.ends_reply.1 h₃
      obtain rfl := Except.ok.inj he
      -- the store carries the call out, refuses it, or fails
      have hcall : ∀ {x t}, m.answers (.store (relocking v e text new head now)) w x t →
          t = w ∨ (w.store.answer (relocking v e text new head now)).1 = .ok () ∧
            t = w.after (relocking v e text new head now) := by
        rintro x t (⟨-, rfl⟩ | ⟨-, -, rfl⟩)
        · cases ha : (w.store.answer (relocking v e text new head now)).1 with
          | ok a => exact .inr ⟨rfl, rfl⟩
          | error error => exact .inl (Scene.after_of_error ha)
        · exact .inl rfl
      have hend : t = w ∨ (w.store.answer (relocking v e text new head now)).1 = .ok () ∧
          t = w.after (relocking v e text new head now) := by
        rcases Job.passes_bind.1 h₄ with h₅ | ⟨a, u, h₅, rfl⟩
        · rcases Job.passes_call.1 h₅ with h₅ | ⟨x, hx⟩
          · exact .inl h₅
          · exact hcall hx
        · obtain ⟨x, hx, -⟩ := Job.ends_call.1 h₅
          exact hcall hx
      rcases hend with ht | ⟨hok, ht⟩
      · exact .inl ht
      · exact .inr ⟨text, head, now, rfl, hfits, hnow, hok, ht⟩

/-! ### Lists side by side -/

theorem exists_of_mem_right {α β : Type} {R : α → β → Prop} {xs : List α} {ys : List β}
    (h : List.Forall₂ R xs ys) {y : β} (hy : y ∈ ys) : ∃ x ∈ xs, R x y := by
  induction h with
  | nil => cases hy
  | cons hr _ ih =>
      rcases List.mem_cons.1 hy with rfl | hy
      · exact ⟨_, List.mem_cons_self, hr⟩
      · obtain ⟨x, hx, h⟩ := ih hy
        exact ⟨x, List.mem_cons_of_mem _ hx, h⟩

theorem forall₂_comp {α β γ : Type} {R : α → β → Prop} {T : β → γ → Prop} {U : α → γ → Prop}
    (hU : ∀ {x y z}, R x y → T y z → U x z) {xs : List α} {ys : List β} {zs : List γ}
    (h : List.Forall₂ R xs ys) (h' : List.Forall₂ T ys zs) : List.Forall₂ U xs zs := by
  induction h generalizing zs with
  | nil =>
      cases h'
      exact .nil
  | cons hr _ ih =>
      cases h' with
      | cons ht h' => exact .cons (hU hr ht) (ih h')

/-! ### One rotation -/

/-- No locked text among some opens under two different passwords among some. -/
def Apart (l : Lock) (P B : String → Prop) : Prop :=
  ∀ {locked p q text text'}, B locked → P p → P q →
    l.unlock locked p = .ok text → l.unlock locked q = .ok text' → p = q

/-- What a rotation makes of an entry, `ids` being those of the entries written: one of them was
unlocked and locked anew, and any other is as it was. -/
def Kin (l : Lock) (old new : String) (ids : List Uuid) (e e' : Entry) : Prop :=
  if e.id ∈ ids then
    e' = { e with locked := e'.locked, updated := e'.updated } ∧
      ∃ text, l.unlock e.locked old = .ok text ∧ l.unlock e'.locked new = .ok text
  else e' = e

theorem Kin.same {ids : List Uuid} {e e' : Entry} (h : Kin l old new ids e e') :
    e' = { e with locked := e'.locked, updated := e'.updated } := by
  simp only [Kin] at h
  split at h
  · exact h.1
  · rw [h]

theorem Kin.id_eq {ids : List Uuid} {e e' : Entry} (h : Kin l old new ids e e') :
    e'.id = e.id := by
  rw [h.same]

/-- The scene at a moment of a rotation of the store `b`, which listed the entries `es`, as long as
every locked text in it is one of `B`. -/
structure Custody (l : Lock) (old new : String) (B : String → Prop) (b : Backing)
    (es : List Entry) (s : Scene) : Prop where
  takes : s.store.Takes = b.Takes
  entries : ∃ es', s.store.Lists es' ∧
    List.Forall₂ (Kin l old new (s.written.map (·.id))) es es' ∧ ∀ e ∈ es', B e.locked

/-- Everything written is locked to a text of `B`. -/
def Within (B : String → Prop) (s : Scene) : Prop :=
  ∀ e ∈ s.written, B e.locked

/-- The entry was listed at some moment: what the old password unlocks in it, it unlocked in the
entry at first. -/
def Listed (l : Lock) (old : String) (es : List Entry) (e : Entry) : Prop :=
  ∃ e₀ ∈ es, e₀.id = e.id ∧
    ∀ text, l.unlock e.locked old = .ok text → l.unlock e₀.locked old = .ok text

variable {P B : String → Prop} {b : Backing} {es : List Entry}

/-- An entry listed in the middle of a rotation may have been written before; then both passwords
open it, so that they are one. -/
theorem Kin.listed (ha : Apart l P B) (ho : P old) (hn : P new) {ids : List Uuid} {e e' : Entry}
    (he : e ∈ es) (hB : B e'.locked) (h : Kin l old new ids e e') : Listed l old es e' := by
  refine ⟨e, he, h.id_eq.symm, fun text ht => ?_⟩
  simp only [Kin] at h
  split at h
  · obtain ⟨-, text', hold, hnew⟩ := h
    obtain rfl := ha hB ho hn ht hnew
    obtain rfl := Except.ok.inj (ht.symm.trans hnew)
    exact hold
  · rwa [← h]

/-- One more entry is written by a function that leaves all others alone. -/
theorem forall₂_kin {ids : List Uuid} {es es' : List Entry}
    (h : List.Forall₂ (Kin l old new ids) es es') (hids : (es.map (·.id)).Nodup) {e : Entry}
    (he : Listed l old es e) {text locked : String} {updated : Instant}
    (ht : l.unlock e.locked old = .ok text) (ht' : l.unlock locked new = .ok text) :
    List.Forall₂ (Kin l old new (e.id :: ids)) es
      (es'.map fun x => if x.id = e.id then { x with locked, updated } else x) := by
  obtain ⟨e₀, he₀, hid, hread⟩ := he
  rw [List.forall₂_map_right_iff, List.forall₂_iff_zip]
  refine ⟨h.length_eq, fun {x x'} hz => ?_⟩
  have hx : x ∈ es := (List.of_mem_zip hz).1
  have hkin := List.forall₂_zip h hz
  by_cases hxe : x.id = e.id
  · -- ids are apart, so this is the entry at first
    obtain rfl := List.inj_on_of_nodup_map hids hx he₀ (hxe.trans hid.symm)
    rw [if_pos (hkin.id_eq.trans hxe), Kin, if_pos (by simp [hxe])]
    refine ⟨?_, text, hread text ht, ht'⟩
    rw [hkin.same]
  · rw [if_neg (hkin.id_eq.trans_ne hxe)]
    simpa only [Kin, List.mem_cons, hxe, false_or] using hkin

namespace Custody

/-- **One entry written** stays in custody. -/
theorem relocked (hb : b.Lists es) (htakes : ∀ t, m.shows t → b.Takes t) {e : Entry}
    (he : Listed v.lock old es e) {text : String} {head : Bytes} {now : Instant}
    (hu : v.lock.unlock e.locked old = .ok text) (hfits : v.lock.Fits text new head)
    (hnow : m.shows now)
    (hok : (s.store.answer (relocking v e text new head now)).1 = .ok ())
    (hB : B (v.lock.lock text new head)) (hs : Custody v.lock old new B b es s) :
    Custody v.lock old new B b es (s.after (relocking v e text new head now)) := by
  obtain ⟨es', hl, hkin, hBs⟩ := hs.entries
  obtain ⟨e', he', hid⟩ : ∃ e' ∈ es', e'.id = e.id := by
    obtain ⟨e₀, he₀, hid, -⟩ := he
    have hback : List.Forall₂ (fun e' e => Kin v.lock old new (s.written.map (·.id)) e e') es' es :=
      List.Forall₂.flip hkin
    obtain ⟨e', he', hk⟩ := exists_of_mem_right hback he₀
    exact ⟨e', he', hk.id_eq.trans hid⟩
  obtain ⟨-, hl'⟩ := hl.relocked { e with locked := v.lock.lock text new head, updated := now }
    he' hid (by rw [hs.takes]; exact htakes now hnow)
  refine ⟨(Backing.takes_answer _ _).trans hs.takes, _, hl', ?_, fun x hx => ?_⟩
  · rw [Scene.written_after hok]
    exact forall₂_kin hkin hb.ids he hu (Lock.unlock_lock hfits)
  · obtain ⟨y, hy, rfl⟩ := List.mem_map.1 hx
    split
    · exact hB
    · exact hBs y hy

/-- **Custody is kept** by reads and by the work on listed entries, as long as everything written is
within `B`. -/
theorem guard (ha : Apart v.lock P B) (ho : P old) (hn : P new) (hb : b.Lists es)
    (htakes : ∀ t, m.shows t → b.Takes t) :
    Guard m.answers (relockEntry v old new) (fun s => Within B s → Custody v.lock old new B b es s)
      fun s e => Within B s → Listed v.lock old es e where
  lasts r s x s' e h hw hB := hw fun e he => hB e (Manner.written_subset h he)
  reads r s x s' hr h hI hB := by
    obtain ⟨hstore, hwritten⟩ := Manner.same_of_reads hr h
    have hs := hI fun e he => hB e (hwritten ▸ he)
    exact ⟨hstore ▸ hs.takes, by rw [hstore, hwritten]; exact hs.entries⟩
  lists limit offset s entries s' h hI e he hB := by
    have hs := hI fun e he => hB e (Manner.written_subset h he)
    obtain ⟨es', hl, hkin, hBs⟩ := hs.entries
    obtain ⟨hx, -⟩ | ⟨-, ⟨_, hx⟩, -⟩ := h
    · rw [hl.list] at hx
      obtain rfl := Except.ok.inj hx
      have he' := (List.mem_filter.1 (Store.Table.mem_of_mem_window he)).1
      obtain ⟨e₀, he₀, hk⟩ := exists_of_mem_right hkin he'
      exact hk.listed ha ho hn he₀ (hBs e he')
    · cases hx
  work e s t hw h hI hB := by
    rcases relockEntry_passes h with rfl | ⟨text, head, now, hu, hfits, hnow, hok, rfl⟩
    · exact hI hB
    · rw [Within, Scene.written_after hok] at hB
      obtain ⟨hB₁, hBs⟩ := List.forall_mem_cons.1 hB
      exact (hI hBs).relocked hb htakes (hw hBs) hu hfits hnow hok hB₁

/-- **Custody lasts** from the beginning of a rotation to any moment of it. -/
theorem rotate (ha : Apart v.lock P B) (ho : P old) (hn : P new) (hb : b.Lists es)
    (htakes : ∀ t, m.shows t → b.Takes t) (hB : ∀ e ∈ es, B e.locked) {c : Cancellation}
    (h : (v.rotate old new).Passes m.answers ⟨b, c, []⟩ t) (ht : Within B t) :
    Custody v.lock old new B b es t := by
  refine (guard ha ho hn hb htakes).rotate h (fun _ => ⟨rfl, es, hb, ?_, hB⟩) ht
  exact List.forall₂_same.2 fun e _ => by simp [Kin]

end Custody

/-! ### What is written -/

/-- Everything written is locked under the password. -/
def Sealed (l : Lock) (password : String) (s : Scene) : Prop :=
  ∀ e ∈ s.written, ∃ text head, l.Fits text password head ∧ e.locked = l.lock text password head

theorem guard_sealed : Guard m.answers (relockEntry v old new) (Sealed v.lock new)
    fun _ _ => True where
  lasts _ _ _ _ _ _ _ := trivial
  reads r s x s' hr h hs := by
    rw [Sealed, (Manner.same_of_reads hr h).2]
    exact hs
  lists _ _ _ _ _ _ _ _ _ := trivial
  work e s t _ h hs := by
    rcases relockEntry_passes h with rfl | ⟨text, head, now, -, hfits, -, hok, rfl⟩
    · exact hs
    · rw [Sealed, Scene.written_after hok]
      exact List.forall_mem_cons.2 ⟨⟨text, head, hfits, rfl⟩, hs⟩

/-- **What a rotation writes** is locked under its new password, at every moment. -/
theorem sealed_rotate {c : Cancellation}
    (h : (v.rotate old new).Passes m.answers ⟨b, c, []⟩ t) : Sealed v.lock new t :=
  guard_sealed.rotate h nofun

/-! ### Several rotations -/

/-- A rotation as far as it came: its passwords, and what it wrote, the latest first. -/
structure Leg where
  old : String
  new : String
  written : List Entry

/-- Several rotations of a store by vaults with one lock, each cut off at some moment; the last of
these moments leaves the second store. -/
inductive Rotations (l : Lock) (m : Manner) : Backing → List Leg → Backing → Prop where
  | none (b : Backing) : Rotations l m b [] b
  | next {b b' : Backing} {v : Vault} {old new : String} {c : Cancellation} {t : Scene}
      {legs : List Leg} (hv : v.lock = l)
      (h : (v.rotate old new).Passes m.answers ⟨b, c, []⟩ t)
      (rest : Rotations l m t.store legs b') : Rotations l m b (⟨old, new, t.written⟩ :: legs) b'

/-- The entry with an id is handed on from one password to another by those rotations that wrote
it. -/
inductive Handed (id : Uuid) : String → List Leg → String → Prop where
  | done (p : String) : Handed id p [] p
  | passed {p q : String} {x : Leg} {legs : List Leg} (hx : id ∉ x.written.map (·.id))
      (rest : Handed id p legs q) : Handed id p (x :: legs) q
  | moved {p q : String} {x : Leg} {legs : List Leg} (hx : id ∈ x.written.map (·.id))
      (hp : x.old = p) (rest : Handed id x.new legs q) : Handed id p (x :: legs) q

/-- The locked texts of a run of rotations: those in the store at first, and those written. -/
def lockedTexts (es : List Entry) (legs : List Leg) : List String :=
  es.map (·.locked) ++ legs.flatMap fun x => x.written.map (·.locked)

/-- What becomes of an entry: all of it stays but for its locked text and its time, and its secret
opens under the password that it was handed on to. -/
structure Secured (l : Lock) (P : String → Prop) (legs : List Leg) (e e' : Entry) : Prop where
  same : e' = { e with locked := e'.locked, updated := e'.updated }
  opens : ∀ {p text}, P p → l.unlock e.locked p = .ok text →
    ∃ q, Handed e.id p legs q ∧ l.unlock e'.locked q = .ok text

/-- One rotation comes before the rest. -/
theorem Kin.secured (ha : Apart l P B) {x : Leg} {legs : List Leg} (ho : P x.old) (hn : P x.new)
    {e e₁ e' : Entry} (hB : B e.locked) (h : Kin l x.old x.new (x.written.map (·.id)) e e₁)
    (hs : Secured l P legs e₁ e') : Secured l P (x :: legs) e e' where
  same := by
    rw [hs.same, h.same]
  opens {p text} hp ht := by
    simp only [Kin] at h
    split at h
    · rename_i hx
      obtain ⟨hsame, text', hold, hnew⟩ := h
      obtain rfl := ha hB hp ho ht hold
      obtain rfl := Except.ok.inj (ht.symm.trans hold)
      obtain ⟨q, hq, hu⟩ := hs.opens hn hnew
      rw [hsame] at hq
      exact ⟨q, .moved hx rfl hq, hu⟩
    · rename_i hx
      obtain rfl := h
      obtain ⟨q, hq, hu⟩ := hs.opens hp ht
      exact ⟨q, .passed hx hq, hu⟩

/-- **No secret is lost.**  Rotations follow one another, with any passwords and any rules, and each
is cut off at any moment, by a cancellation, by failing calls or otherwise.  As long as no locked
text of theirs opens under two different passwords, every entry is still there at the last moment,
with all but its locked text and its time as at first; and if a password opened it at first, the
password that it was handed on to opens it to the same text.  The clock shows only instants that
the store can read back, which is no condition on a store without columns. -/
theorem secrets_kept {b' : Backing} {legs : List Leg} (hb : b.Lists es)
    (htakes : ∀ t, m.shows t → b.Takes t) (h : Rotations l m b legs b')
    (hP : ∀ x ∈ legs, P x.old ∧ P x.new) (ha : Apart l P (· ∈ lockedTexts es legs)) :
    ∃ es', b'.Lists es' ∧ List.Forall₂ (Secured l P legs) es es' := by
  induction h generalizing es with
  | none b =>
      refine ⟨es, hb, List.forall₂_same.2 fun e _ => ⟨rfl, fun {p text} _ ht => ?_⟩⟩
      exact ⟨p, .done p, ht⟩
  | @next b b' v old new c t legs hv h rest ih =>
      subst hv
      obtain ⟨⟨ho, hn⟩, hP⟩ := List.forall_mem_cons.1 hP
      have hfirst : ∀ e ∈ es, e.locked ∈ lockedTexts es (⟨old, new, t.written⟩ :: legs) :=
        fun e he => List.mem_append_left _ (List.mem_map_of_mem he)
      have hwithin : Within (· ∈ lockedTexts es (⟨old, new, t.written⟩ :: legs)) t := fun e he => by
        refine List.mem_append_right _ (List.mem_flatMap.2 ⟨_, List.mem_cons_self, ?_⟩)
        exact List.mem_map_of_mem he
      have hs := Custody.rotate ha ho hn hb htakes hfirst h hwithin
      obtain ⟨es₁, hl, hkin, hB⟩ := hs.entries
      have ha' : Apart v.lock P (· ∈ lockedTexts es₁ legs) := by
        refine fun hm => ha ?_
        rcases List.mem_append.1 hm with hm | hm
        · obtain ⟨e, he, rfl⟩ := List.mem_map.1 hm
          exact hB e he
        · obtain ⟨x, hx, hm⟩ := List.mem_flatMap.1 hm
          exact List.mem_append_right _ (List.mem_flatMap.2 ⟨x, List.mem_cons_of_mem _ hx, hm⟩)
      obtain ⟨es', hl', hsec⟩ := ih hl (hs.takes ▸ htakes) hP ha'
      refine ⟨es', hl', forall₂_comp ?_ ((List.forall₂_and_left _ _).2 ⟨hfirst, hkin⟩) hsec⟩
      exact fun hk hsec => hk.2.secured ha ho hn hk.1 hsec

/-- Three rotations under two passwords: from "old" to itself, from another to it, and from it to
the other. -/
def sampleLegs (other : String) (t₁ t₂ t₃ : Scene) : List Leg :=
  [⟨"old", "old", t₁.written⟩, ⟨other, "old", t₂.written⟩, ⟨"old", other, t₃.written⟩]

/-- A rotation to a password that is too long writes nothing. -/
theorem written_eq_nil_of_long (hlong : Argon2id.mostBytes < new.utf8ByteSize)
    (h : Sealed l new s) : s.written = [] := by
  refine List.eq_nil_iff_forall_not_mem.2 fun e he => ?_
  obtain ⟨text, head, hfits, -⟩ := h e he
  exact nomatch (Lock.lockFault?_of_long hlong).symm.trans hfits.fault

/-- What the samples hold and what is written does not open under a password that is too long. -/
theorem closed_sampleLegs {other : String} {t₁ t₂ t₃ : Scene}
    (hlong : Argon2id.mostBytes < other.utf8ByteSize) (h₁ : Sealed Vault.usual.lock "old" t₁)
    (h₂ : Sealed Vault.usual.lock "old" t₂) (h₃ : Sealed Vault.usual.lock other t₃)
    {locked text : String} (hl : locked ∈ lockedTexts samples (sampleLegs other t₁ t₂ t₃)) :
    Vault.usual.lock.unlock locked other ≠ .ok text := by
  have hsealed : ∀ {password s}, Sealed Vault.usual.lock password s →
      locked ∈ s.written.map (·.locked) → Vault.usual.lock.unlock locked other ≠ .ok text := by
    intro password s hs hmem
    obtain ⟨e, he, rfl⟩ := List.mem_map.1 hmem
    obtain ⟨text', head, -, heq⟩ := hs e he
    rw [heq]
    exact Lock.unlock_lock_of_long hlong
  rcases List.mem_append.1 hl with hl | hl
  · simp only [samples, List.map_cons, List.map_nil, List.mem_pair] at hl
    rcases hl with rfl | rfl
    · exact Lock.unlock_lock_of_long hlong
    · intro hu
      cases (unlock_plain other).symm.trans hu
  · simp only [sampleLegs, List.flatMap_cons, List.flatMap_nil, List.append_nil,
      List.mem_append] at hl
    rcases hl with hl | hl | hl
    · exact hsealed h₁ hl
    · exact hsealed h₂ hl
    · exact hsealed h₃ hl

/-- A secret under "old" stays there. -/
theorem handed_sampleLegs {other q : String} {t₁ t₂ t₃ : Scene} {id : Uuid}
    (hnone : t₃.written = []) (h : Handed id "old" (sampleLegs other t₁ t₂ t₃) q) : q = "old" := by
  have hlast : ∀ {p}, Handed id "old" [⟨"old", other, t₃.written⟩] p → p = "old" := by
    intro p h
    cases h with
    | passed _ rest => cases rest; rfl
    | moved hx => rw [hnone] at hx; cases hx
  have hnext : ∀ {p}, Handed id "old" [⟨other, "old", t₂.written⟩, ⟨"old", other, t₃.written⟩] p →
      p = "old" := by
    intro p h
    cases h with
    | passed _ rest | moved _ _ rest => exact hlast rest
  cases h with
  | passed _ rest | moved _ _ rest => exact hnext rest

/-- Three rotations of two entries under two passwords, one of which is too long to lock anything.
Where it is the old one nothing opens, and where it is the new one nothing is written, so that the
secret opens under the other as at first. -/
theorem secrets_kept_samples :
    ∃ t₁ t₂ t₃ b', Rotations Vault.usual.lock (.rough fun _ => True) sampleScene.store
        (sampleLegs (Bytes.letters 4294967296) t₁ t₂ t₃) b' ∧
      ∃ es', b'.Lists es' ∧ ∃ e ∈ es', Vault.usual.lock.unlock e.locked "old" = .ok "text" := by
  have hlong := Lock.mostBytes_lt_letters
  generalize Bytes.letters 4294967296 = other at hlong
  have hrun : ∀ old new b, ∃ t : Scene, (Vault.usual.rotate old new).Passes
      (Manner.rough fun _ => True).answers ⟨b, .idle, []⟩ t := by
    intro old new b
    obtain ⟨r, t, h⟩ := Manner.exists_ends (m := .rough fun _ => True) ⟨default, trivial⟩
      (fun _ => ⟨.ofNat 0, trivial⟩) (fun _ => ⟨.ok "", trivial⟩) (Vault.usual.rotate old new)
      ⟨b, .idle, []⟩
    exact ⟨t, Job.Ends.passes h⟩
  obtain ⟨t₁, h₁⟩ := hrun "old" "old" sampleScene.store
  obtain ⟨t₂, h₂⟩ := hrun other "old" t₁.store
  obtain ⟨t₃, h₃⟩ := hrun "old" other t₂.store
  have hlegs : Rotations Vault.usual.lock (.rough fun _ => True) sampleScene.store
      (sampleLegs other t₁ t₂ t₃) t₃.store :=
    .next rfl h₁ (.next rfl h₂ (.next rfl h₃ (.none _)))
  have hclosed := @closed_sampleLegs other t₁ t₂ t₃ hlong (sealed_rotate h₁) (sealed_rotate h₂)
    (sealed_rotate h₃)
  have hP : ∀ x ∈ sampleLegs other t₁ t₂ t₃,
      (x.old = "old" ∨ x.old = other) ∧ (x.new = "old" ∨ x.new = other) := by
    simp [sampleLegs]
  -- what opens under both opens under the one that is too long
  have hapart : Apart Vault.usual.lock (fun p => p = "old" ∨ p = other)
      (· ∈ lockedTexts samples (sampleLegs other t₁ t₂ t₃)) := by
    rintro locked p q text text' hB (rfl | rfl) (rfl | rfl) hp hq
    · rfl
    · exact absurd hq (hclosed hB)
    · exact absurd hp (hclosed hB)
    · rfl
  obtain ⟨es', hl, hsec⟩ := secrets_kept holds_samples.lists (fun _ _ => trivial) hlegs hP hapart
  obtain ⟨e, rest, hs, -, rfl⟩ := List.forall₂_cons_left_iff.1 hsec
  obtain ⟨q, hq, hu⟩ := hs.opens (.inl rfl) unlock_sample
  have hold := handed_sampleLegs (written_eq_nil_of_long hlong (sealed_rotate h₃)) hq
  exact ⟨t₁, t₂, t₃, _, hlegs, _, hl, e, List.mem_cons_self, hold ▸ hu⟩

end Rotation

end Strongbox
