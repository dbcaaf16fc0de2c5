import Strongbox.Proofs.Store.Mirror

/-!
# Store — a table and an indexed store give the same answers

A table with a schema and an indexed store share no code.  From the same calls they get the same
answers nevertheless, as long as the years of all instants have four digits and the instants given
to the indexed store are whole microseconds.

* `Table.inOrder_exact`: rows are sorted like their entries.
* `Mirrors.outcome`: one call has one outcome.
* `outcomes_agree`: so have calls one after another, from the empty stores on.
-/

namespace Strongbox

namespace Entry

/-- A table keeps the entry as it is. -/
structure Exact (e : Entry) : Prop where
  fits : e.Fits
  whole : e.floorMicros = e

theorem Fits.floorMicros {e : Entry} (h : e.Fits) : e.floorMicros.Fits := by
  have hopt : ∀ {t : Option Instant}, (∀ u ∈ t, u.Fits) →
      ∀ u ∈ t.map Instant.floorMicros, u.Fits := by
    intro t ht u hu
    obtain ⟨w, hw, rfl⟩ := Option.map_eq_some_iff.1 hu
    exact ht w hw
  exact ⟨h.created, h.updated, hopt h.expires, hopt h.hidden⟩

@[simp] theorem floorMicros_floorMicros (e : Entry) :
    e.floorMicros.floorMicros = e.floorMicros := by
  have hopt : ∀ t : Option Instant,
      (t.map Instant.floorMicros).map Instant.floorMicros = t.map Instant.floorMicros := by
    intro t
    cases t <;> simp
  simp only [floorMicros, Instant.floorMicros_floorMicros, hopt]

theorem Fits.exact {e : Entry} (h : e.Fits) : e.floorMicros.Exact :=
  ⟨h.floorMicros, e.floorMicros_floorMicros⟩

namespace Exact

variable {e source : Entry}

theorem created (h : e.Exact) : e.created.floorMicros = e.created :=
  congrArg Entry.created h.whole

theorem readBack (h : e.Exact) : e.readBack = .ok e := by
  rw [Entry.readBack, unfit?_eq_none.2 h.fits, h.whole]

theorem setField (h : e.Exact) (hs : source.Exact) (f : Field) : (e.setField source f).Exact := by
  obtain ⟨hfits, hwhole⟩ := h
  obtain ⟨hfits', hwhole'⟩ := hs
  have hw : (e.setField source f).floorMicros
      = e.floorMicros.setField source.floorMicros f := by
    cases f <;> rfl
  refine ⟨?_, by rw [hw, hwhole, hwhole']⟩
  cases f with
  | locked => exact ⟨hfits.created, hfits.updated, hfits.expires, hfits.hidden⟩
  | updated => exact ⟨hfits.created, hfits'.updated, hfits.expires, hfits.hidden⟩
  | expires => exact ⟨hfits.created, hfits.updated, hfits'.expires, hfits.hidden⟩
  | hidden => exact ⟨hfits.created, hfits.updated, hfits.expires, hfits'.hidden⟩

theorem setFields (h : e.Exact) (hs : source.Exact) (fields : List Field) :
    (e.setFields source fields).Exact := by
  induction fields generalizing e with
  | nil => exact h
  | cons f fields ih => exact ih (h.setField hs f)

end Exact

end Entry

namespace Store

/-! ### Outcomes -/

/-- The answer to a call of any kind, or why there is none. -/
inductive Outcome where
  | written (r : Except StoreError Unit)
  | found (r : Except StoreError (Option Entry))
  | listed (r : Except StoreError (List Entry))
  | counted (r : Except StoreError Nat)
  deriving DecidableEq

namespace Call

/-- The outcome of a call that was answered. -/
def outcome : (c : Call) → c.Reply → Outcome
  | create _, r | update _ _, r | erase _, r => .written r
  | findId _, r | findToken _, r => .found r
  | list _, r => .listed r
  | count _, r => .counted r

/-- The entry from which a call writes. -/
def source? : Call → Option Entry
  | create e | update e _ => some e
  | _ => none

/-- The call with its instants cut to whole microseconds. -/
def floorMicros : Call → Call
  | create e => create e.floorMicros
  | update e fields => update e.floorMicros fields
  | c => c

theorem source?_floorMicros {c : Call} {e : Entry} (h : e ∈ c.floorMicros.source?) :
    ∃ e' ∈ c.source?, e = e'.floorMicros := by
  cases c with
  | create e' | update e' _ =>
      obtain rfl := Option.some.inj h
      exact ⟨e', rfl, rfl⟩
  | erase | findId | findToken | list | count => cases h

theorem eq_update_of_floorMicros {c : Call} {e : Entry} {fields : List Field}
    (h : c.floorMicros = update e fields) : ∃ e', c = update e' fields := by
  cases c with
  | update e' _ =>
      obtain ⟨-, rfl⟩ := Call.update.inj h
      exact ⟨e', rfl⟩
  | create | erase | findId | findToken | list | count => cases h

/-- The bound of a table on limits and offsets does not show in the answer, if the table has no
more than a number of rows. -/
def Roomy (rows : Nat) : Call → Prop
  | list q => Table.Roomy q.offset q.limit rows
  | _ => True

theorem roomy_floorMicros {c : Call} {rows : Nat} : c.floorMicros.Roomy rows ↔ c.Roomy rows := by
  cases c <;> exact Iff.rfl

end Call

end Store

/-! ### One call -/

namespace Store

/-- The ids of two rows come before one another as those of their entries do. -/
theorem Table.cellBefore_id (a b : Entry) :
    decide (a.id < b.id) = cellBefore (Row.ofEntry a).id (Row.ofEntry b).id := by
  change _ = decide (a.id.text < b.id.text)
  rw [decide_eq_decide, Uuid.text_lt_iff]

/-- **Rows are sorted like their entries**, if the table keeps those as they are. -/
theorem Table.inOrder_exact {a b : Entry} (ha : a.Exact) (hb : b.Exact) (order : Order) :
    Indexed.inOrder order a b = inOrder order (Row.ofEntry a) (Row.ofEntry b) := by
  have hcreated : ∀ {a b : Entry}, a.Exact → b.Exact → decide (a.created < b.created)
      = cellBefore (Row.ofEntry a).created (Row.ofEntry b).created := by
    intro a b ha hb
    change _ = decide (a.created.columnText < b.created.columnText)
    rw [decide_eq_decide, Instant.columnText_lt_iff ha.fits.created hb.fits.created, ha.created,
      hb.created]
  cases order with
  | id => simp only [Indexed.inOrder, inOrder, cellBefore_id]
  | created => simp only [Indexed.inOrder, inOrder, cellBefore_id, hcreated ha hb, hcreated hb ha]
  | token =>
      have htoken : ∀ a b : Entry, decide (a.token < b.token)
          = cellBefore (Row.ofEntry a).token (Row.ofEntry b).token := fun _ _ => rfl
      simp only [Indexed.inOrder, inOrder, cellBefore_id, htoken]

/-- A table does not tell instants within one microsecond apart. -/
theorem Table.answer_floorMicros (t : Table) (c : Call) :
    c.floorMicros.outcome (t.answer c.floorMicros).1 = c.outcome (t.answer c).1 ∧
      (t.answer c.floorMicros).2 = (t.answer c).2 := by
  cases c with
  | create e =>
      simp only [Call.floorMicros, answer, create, Row.ofEntry_floorMicros]
      exact ⟨rfl, rfl⟩
  | update e fields =>
      have hid : e.floorMicros.id = e.id := rfl
      simp only [Call.floorMicros, answer, update, hid, Row.setFields_floorMicros]
      exact ⟨rfl, trivial⟩
  | erase | findId | findToken | list | count => exact ⟨rfl, rfl⟩

theorem readBack?_exact {o : Option Entry} (h : ∀ e ∈ o, e.Exact) : readBack? o = .ok o := by
  cases o with
  | none => rfl
  | some e => rw [readBack?, (h e rfl).readBack, Except.map]

theorem mapM_readBack {es : List Entry} (h : ∀ e ∈ es, e.Exact) :
    es.mapM Entry.readBack = .ok es := by
  exact mapM_eq_ok_iff.2 (List.forall₂_same.2 fun e he => (h e he).readBack)

/-- A list of entries that the table keeps as they are. -/
theorem Mirrors.list_exact {t : Table} {s : Indexed} (h : Mirrors t s)
    (hexact : ∀ e ∈ s.rows, e.Exact) {q : Query}
    (hroom : Table.Roomy q.offset q.limit t.rows.length) : t.list q = .ok (s.list q) := by
  have hle : ∀ a ∈ s.rows, ∀ b ∈ s.rows,
      Indexed.inOrder q.order a b = Table.inOrder q.order (Row.ofEntry a) (Row.ofEntry b) :=
    fun a ha b hb => Table.inOrder_exact (hexact a ha) (hexact b hb) q.order
  rw [Table.list_of_pick (h.pick_listed hle hroom), Indexed.list, h.sound.sorted_eq]
  refine mapM_readBack fun e he => hexact e ?_
  exact (List.mem_filter.1 (List.mem_mergeSort.1 (Table.mem_of_mem_window he))).1

/-- **One call has one outcome.** -/
theorem Mirrors.outcome {t : Table} {s : Indexed} (h : Mirrors t s)
    (hexact : ∀ e ∈ s.rows, e.Exact) {c : Call} (hne : ∀ e, c ≠ .update e [])
    (hroom : c.Roomy t.rows.length) : c.outcome (t.answer c).1 = c.outcome (s.answer c).1 := by
  cases c with
  | create e => exact congrArg Outcome.written (h.create e).1
  | update e fields =>
      have hf : fields ≠ [] := fun hf => hne e (congrArg (Call.update e) hf)
      exact congrArg Outcome.written (h.update e hf).1
  | erase id => exact congrArg Outcome.written (h.erase id).1
  | findId id =>
      have hrow : ∀ e ∈ s.row? id, e.Exact := fun e he =>
        hexact e (h.sound.row?_eq_some.1 he).1
      exact congrArg Outcome.found ((h.findId id).trans (readBack?_exact hrow))
  | findToken token =>
      have hrow : ∀ e ∈ s.findToken token, e.Exact := fun e he =>
        hexact e (h.sound.findToken_eq_some.1 he).1
      exact congrArg Outcome.found ((h.findToken token).trans (readBack?_exact hrow))
  | list q => exact congrArg Outcome.listed (h.list_exact hexact hroom)
  | count f => exact congrArg (fun n => Outcome.counted (.ok n)) (h.count f)

/-! ### Calls one after another -/

/-- What is written from entries that a table keeps as they are, it keeps as it is. -/
theorem Indexed.exact_answer {s : Indexed} (hexact : ∀ e ∈ s.rows, e.Exact) {c : Call}
    (hc : ∀ e ∈ c.source?, e.Exact) : ∀ e ∈ (s.answer c).2.rows, e.Exact := by
  intro e he
  cases c with
  | create source =>
      simp only [answer, create] at he
      split at he
      · exact hexact e he
      · rcases List.mem_cons.1 ((insertRow_perm source s.rows).mem_iff.1 he) with rfl | he
        · exact hc e rfl
        · exact hexact e he
  | update source fields =>
      simp only [answer, update] at he
      split at he
      · obtain ⟨r, hr, rfl⟩ := List.mem_map.1 he
        split
        · exact (hexact r hr).setFields (hc source rfl) fields
        · exact hexact r hr
      · exact hexact e he
  | erase id =>
      simp only [answer, erase] at he
      split at he
      · exact hexact e (List.mem_filter.1 he).1
      · exact hexact e he
  | findId | findToken | list | count => exact hexact e he

/-- A call adds one row at most. -/
theorem Table.length_answer (t : Table) (c : Call) :
    (t.answer c).2.rows.length ≤ t.rows.length + 1 := by
  cases c with
  | create e =>
      simp only [answer, create, insertRow?]
      split
      · rename_i t' ht
        split at ht
        · cases ht
        · obtain rfl := Option.some.inj ht
          simp
      · exact Nat.le_succ _
  | update e fields =>
      simp only [answer, update]
      split
      · exact Nat.le_succ _
      · split
        · simp
        · exact Nat.le_succ _
  | erase id =>
      simp only [answer, erase]
      split
      · exact Nat.le_succ_of_le (List.length_filter_le _ _)
      · exact Nat.le_succ _
  | findId | findToken | list | count => exact Nat.le_succ _

theorem Call.Roomy.mono {c : Call} {rows rows' : Nat} (h : c.Roomy rows) (hle : rows' ≤ rows) :
    c.Roomy rows' := by
  cases c with
  | list q => exact Or.imp_left (Nat.le_trans hle) h
  | create | update | erase | findId | findToken | count => trivial

end Store

/-- The outcomes of calls, one after another. -/
def Backing.outcomes (b : Backing) : List Store.Call → List Store.Outcome
  | [] => []
  | c :: calls => c.outcome (b.answer c).1 :: (b.answer c).2.outcomes calls

namespace Store

theorem outcomes_floorMicros (t : Table) (calls : List Call) :
    (Backing.table t).outcomes (calls.map Call.floorMicros)
      = (Backing.table t).outcomes calls := by
  induction calls generalizing t with
  | nil => rfl
  | cons c calls ih =>
      obtain ⟨hr, ht⟩ := t.answer_floorMicros c
      have hb : ((Backing.table t).answer c.floorMicros).2 = ((Backing.table t).answer c).2 :=
        congrArg Backing.table ht
      rw [List.map_cons, Backing.outcomes, Backing.outcomes, hb]
      exact congrArg₂ List.cons hr (ih _)

/-- Calls that write what a table keeps as it is have the same outcomes. -/
theorem Mirrors.outcomes {t : Table} {s : Indexed} (h : Mirrors t s)
    (hexact : ∀ e ∈ s.rows, e.Exact) {calls : List Call}
    (hsource : ∀ c ∈ calls, ∀ e ∈ c.source?, e.Exact) (hne : ∀ e, .update e [] ∉ calls) {most : Nat}
    (hmost : t.rows.length + calls.length ≤ most) (hroom : ∀ c ∈ calls, c.Roomy most) :
    (Backing.table t).outcomes calls = (Backing.indexed s).outcomes calls := by
  -- after each call the table mirrors the store, whose entries the table keeps as they are
  induction calls generalizing t s with
  | nil => rfl
  | cons c calls ih =>
      rw [List.length_cons] at hmost
      obtain ⟨hc, hcalls⟩ := List.forall_mem_cons.1 hsource
      obtain ⟨hr, hrs⟩ := List.forall_mem_cons.1 hroom
      have hlen : (t.answer c).2.rows.length + calls.length ≤ most := by
        have := t.length_answer c
        omega
      refine congrArg₂ List.cons (h.outcome hexact ?_ (hr.mono (by omega))) ?_
      · rintro e rfl
        exact hne e List.mem_cons_self
      · exact ih (h.answer c) (Indexed.exact_answer hexact hc) hcalls
          (fun e he => hne e (List.mem_cons_of_mem c he)) hlen hrs

/-- **A table and an indexed store give the same answers**, in the same order and with the same
errors, from the empty stores on.  The calls may be any as long as the columns have room for the
instants that they write and no update is one of no fields; the indexed store is given the instants
cut to whole microseconds.  A table takes no limit and no offset above 2⁶³ - 1, which shows only
where more rows than that may be stored. -/
theorem outcomes_agree {calls : List Call} (hfit : ∀ c ∈ calls, ∀ e ∈ c.source?, e.Fits)
    (hne : ∀ e, .update e [] ∉ calls) (hroom : ∀ c ∈ calls, c.Roomy calls.length) :
    (Backing.table (.empty true)).outcomes calls
      = (Backing.indexed .empty).outcomes (calls.map Call.floorMicros) := by
  rw [← outcomes_floorMicros]
  have hlen : (Table.empty true).rows.length + (calls.map Call.floorMicros).length
      ≤ calls.length := by
    simp [Table.empty]
  refine mirrors_empty.outcomes nofun ?_ ?_ hlen ?_
  · intro c hc e he
    obtain ⟨c, hm, rfl⟩ := List.mem_map.1 hc
    obtain ⟨e, hs, rfl⟩ := c.source?_floorMicros he
    exact (hfit c hm e hs).exact
  · intro e he
    obtain ⟨c, hm, hc⟩ := List.mem_map.1 he
    obtain ⟨e, rfl⟩ := c.eq_update_of_floorMicros hc
    exact hne e hm
  · intro c hc
    obtain ⟨c, hm, rfl⟩ := List.mem_map.1 hc
    exact c.roomy_floorMicros.2 (hroom c hm)

/-- An entry whose times are no whole microseconds. -/
def sampleEntry : Entry :=
  ⟨.ofNat 1, "token", "locked", ⟨0, 1999, by decide, by decide⟩, ⟨0, 1999, by decide, by decide⟩,
    none, none⟩

/-- A new entry, one with its token, and a look for it. -/
def sampleCalls : List Call :=
  [.create sampleEntry, .create { sampleEntry with id := .ofNat 2 }, .findToken "token"]

theorem outcomes_agree_sampleCalls :
    (Backing.table (.empty true)).outcomes sampleCalls
      = [.written (.ok ()), .written (.error (.duplicate "token")),
        .found (.ok (some sampleEntry.floorMicros))] := by
  have hfits : sampleEntry.Fits := ⟨by decide, by decide, nofun, nofun⟩
  refine (outcomes_agree ?_ ?_ ?_).trans (by decide +kernel)
  · simp only [sampleCalls, List.forall_mem_cons, Call.source?]
    refine ⟨?_, ?_, nofun, nofun⟩
    · rintro e ⟨⟩
      exact hfits
    · rintro e ⟨⟩
      exact ⟨hfits.created, hfits.updated, hfits.expires, hfits.hidden⟩
  · simp [sampleCalls]
  · simp [sampleCalls, Call.Roomy]

end Store

end Strongbox
