import Mathlib.Data.List.Basic
import Mathlib.Tactic.SplitIfs
import Strongbox.Proofs.Time.Order
import Strongbox.Proofs.Uuid
import Strongbox.Store.Table

/-!
# Store — rows and the entries that they hold

* `Row.Holds`: the row reads as the entry and has the usual text of its id.
* `Row.Holds.admits`: a filter picks the row if it admits the entry.
* `Row.Holds.setFields`: cells written from an entry are fields written from it, the instants cut to
  whole microseconds, as long as the columns have room for them.
* `Row.readRow_ofEntry`: what is read back from the row of an entry.
-/

namespace Strongbox

namespace Entry

/-- The columns have room for all instants of the entry. -/
structure Fits (e : Entry) : Prop where
  created : e.created.Fits
  updated : e.updated.Fits
  expires : ∀ t ∈ e.expires, t.Fits
  hidden : ∀ t ∈ e.hidden, t.Fits

/-- The columns have room for what an update writes to a field. -/
def FieldFits (e : Entry) : Field → Prop
  | .locked => True
  | .updated => e.updated.Fits
  | .expires => ∀ t ∈ e.expires, t.Fits
  | .hidden => ∀ t ∈ e.hidden, t.Fits

/-- The first column that has no room for its instant. -/
def unfit? (e : Entry) : Option Nat :=
  if e.created.Fits then
    if e.updated.Fits then
      if ∀ t ∈ e.expires, t.Fits then
        if ∀ t ∈ e.hidden, t.Fits then none else some 6
      else some 5
    else some 4
  else some 3

theorem unfit?_eq_none {e : Entry} : e.unfit? = none ↔ e.Fits := by
  simp only [unfit?]
  split_ifs with hc hu he hh
  · exact ⟨fun _ => ⟨hc, hu, he, hh⟩, fun _ => rfl⟩
  · exact ⟨nofun, fun h => absurd h.hidden hh⟩
  · exact ⟨nofun, fun h => absurd h.expires he⟩
  · exact ⟨nofun, fun h => absurd h.updated hu⟩
  · exact ⟨nofun, fun h => absurd h.created hc⟩

/-- What a table reads back of the entry: the entry with its instants cut to whole microseconds, or
the first column that has no room. -/
def readBack (e : Entry) : Except StoreError Entry :=
  match e.unfit? with
  | some column => .error (.unreadable (some column))
  | none => .ok e.floorMicros

end Entry

namespace Store.Row

/-! ### Reading -/

theorem required_eq_ok {α : Type} {column : Nat} {read : String → Option α} {c : Cell} {a : α} :
    required column read c = .ok a ↔ c.bind read = some a := by
  simp only [required]
  cases c.bind read <;> simp

theorem optional_none {α : Type} {column : Nat} {read : String → Option α} {c : Cell}
    {x : Option α} (h : optional column read c = .ok x) : c = none ↔ x = none := by
  cases c with
  | none =>
      obtain rfl := Except.ok.inj h
      simp
  | some s =>
      simp only [optional] at h
      split at h
      · obtain rfl := Except.ok.inj h
        simp
      · cases h

/-- A column reads the id that was written to it. -/
theorem required_idText (column : Nat) (id : Uuid) :
    required column Uuid.read? (some id.text) = .ok id := by
  rw [required, Option.bind_some, Uuid.read?_text]

/-- A column reads what was written to it, cut to whole microseconds, if it has room for it. -/
theorem required_columnText (column : Nat) (t : Instant) :
    required column Instant.read? (some t.columnText)
      = if t.Fits then .ok t.floorMicros else .error column := by
  split_ifs with h
  · simp only [required, Option.bind_some, Instant.read?_columnText h]
  · simp only [required, Option.bind_some, Instant.read?_columnText_eq_none h]

theorem optional_columnText (column : Nat) (t : Option Instant) :
    optional column Instant.read? (t.map Instant.columnText)
      = if ∀ u ∈ t, u.Fits then .ok (t.map Instant.floorMicros) else .error column := by
  cases t with
  | none => rfl
  | some u =>
      by_cases h : u.Fits
      · simp [optional, Instant.read?_columnText h, h]
      · simp [optional, Instant.read?_columnText_eq_none h, h]

/-- A row reads as an entry if each of its cells does. -/
theorem read_eq_ok {r : Row} {e : Entry} :
    r.read = .ok e ↔
      required 0 Uuid.read? r.id = .ok e.id ∧ required 1 some r.token = .ok e.token ∧
      required 2 some r.locked = .ok e.locked ∧
      required 3 Instant.read? r.created = .ok e.created ∧
      required 4 Instant.read? r.updated = .ok e.updated ∧
      optional 5 Instant.read? r.expires = .ok e.expires ∧
      optional 6 Instant.read? r.hidden = .ok e.hidden := by
  have bind_ok : ∀ {α β : Type} (x : Except Nat α) (f : α → Except Nat β) (b : β),
      (x >>= f) = .ok b ↔ ∃ a, x = .ok a ∧ f a = .ok b := by
    intro α β x f b
    cases x with
    | error c => exact ⟨nofun, nofun⟩
    | ok a => exact ⟨fun h => ⟨a, rfl, h⟩, fun ⟨_, e, h⟩ => Except.ok.inj e ▸ h⟩
  simp only [read, bind_ok]
  constructor
  · rintro ⟨a, h0, b, h1, c, h2, d, h3, x, h4, y, h5, z, h6, h⟩
    obtain rfl := Except.ok.inj h
    exact ⟨h0, h1, h2, h3, h4, h5, h6⟩
  · rintro ⟨h0, h1, h2, h3, h4, h5, h6⟩
    exact ⟨_, h0, _, h1, _, h2, _, h3, _, h4, _, h5, _, h6, rfl⟩

/-- What a filter looks at: the id, the token, and whether the entry is hidden. -/
theorem admits_eq {r : Row} {e : Entry} (hid : r.id = some e.id.text)
    (htoken : r.token = some e.token) (hhidden : r.hidden = none ↔ e.hidden = none) (f : Filter) :
    Table.admits f r = f.admits e := by
  have hone : ∀ id : Uuid, (some e.id.text == some id.text) = (e.id == id) := fun id => by
    rw [Bool.eq_iff_iff, beq_iff_eq, beq_iff_eq, Option.some.injEq]
    exact ⟨Uuid.text_inj, congrArg Uuid.text⟩
  have hset : ∀ ids : List Uuid, (ids.map Uuid.text).contains e.id.text = ids.contains e.id := by
    intro ids
    rw [Bool.eq_iff_iff, List.contains_iff_mem, List.contains_iff_mem]
    exact List.mem_map_of_injective (fun _ _ => Uuid.text_inj)
  have hshown : r.hidden.isNone = !e.isHidden := by
    rw [Bool.eq_iff_iff, Option.isNone_iff_eq_none, hhidden]
    simp [Entry.isHidden]
  have hname : ∀ token : String, (some e.token == some token) = (e.token == token) :=
    fun _ => rfl
  simp only [Table.admits, Filter.admits, hid, htoken, hone, hset, hshown, hname, Option.any_some]

/-- No update writes an id. -/
@[simp] theorem id_setFields (r : Row) (source : Entry) (fields : List Field) :
    (r.setFields source fields).id = r.id := by
  induction fields generalizing r with
  | nil => rfl
  | cons f fields ih =>
      have hf : (r.setField source f).id = r.id := by cases f <;> rfl
      exact (ih _).trans hf

/-- No update writes a token. -/
@[simp] theorem token_setFields (r : Row) (source : Entry) (fields : List Field) :
    (r.setFields source fields).token = r.token := by
  induction fields generalizing r with
  | nil => rfl
  | cons f fields ih =>
      have hf : (r.setField source f).token = r.token := by cases f <;> rfl
      exact (ih _).trans hf

/-- The row holds the entry, under the usual text of its id. -/
def Holds (r : Row) (e : Entry) : Prop :=
  r.read = .ok e ∧ r.id = some e.id.text

namespace Holds

variable {r : Row} {e : Entry}

theorem id_eq_iff (h : r.Holds e) {id : Uuid} : r.id = some id.text ↔ e.id = id := by
  rw [h.2, Option.some.injEq]
  exact ⟨Uuid.text_inj, congrArg Uuid.text⟩

theorem token_eq (h : r.Holds e) : r.token = some e.token := by
  have ht := required_eq_ok.1 (read_eq_ok.1 h.1).2.1
  cases hr : r.token with
  | none => rw [hr] at ht; cases ht
  | some s => rw [hr] at ht; exact ht

theorem hidden_eq_none (h : r.Holds e) : r.hidden = none ↔ e.hidden = none :=
  optional_none (read_eq_ok.1 h.1).2.2.2.2.2.2

/-- **A filter picks the row of an entry** if it admits the entry. -/
theorem admits (h : r.Holds e) (f : Filter) : Table.admits f r = f.admits e :=
  admits_eq h.2 h.token_eq h.hidden_eq_none f

/-! ### Writing -/

theorem setField (h : r.Holds e) {source : Entry} {f : Field} (hf : source.FieldFits f) :
    (r.setField source f).Holds (e.setField source.floorMicros f) := by
  obtain ⟨h0, h1, h2, h3, h4, h5, h6⟩ := read_eq_ok.1 h.1
  cases f with
  | locked => exact ⟨read_eq_ok.2 ⟨h0, h1, rfl, h3, h4, h5, h6⟩, h.2⟩
  | updated =>
      have hu := (required_columnText 4 source.updated).trans (if_pos hf)
      exact ⟨read_eq_ok.2 ⟨h0, h1, h2, h3, hu, h5, h6⟩, h.2⟩
  | expires =>
      have hx := (optional_columnText 5 source.expires).trans (if_pos hf)
      exact ⟨read_eq_ok.2 ⟨h0, h1, h2, h3, h4, hx, h6⟩, h.2⟩
  | hidden =>
      have hx := (optional_columnText 6 source.hidden).trans (if_pos hf)
      exact ⟨read_eq_ok.2 ⟨h0, h1, h2, h3, h4, h5, hx⟩, h.2⟩

/-- **Cells written from an entry** are fields written from it, cut to whole microseconds. -/
theorem setFields (h : r.Holds e) {source : Entry} {fields : List Field}
    (hf : ∀ f ∈ fields, source.FieldFits f) :
    (r.setFields source fields).Holds (e.setFields source.floorMicros fields) := by
  induction fields generalizing r e with
  | nil => exact h
  | cons f fields ih =>
      obtain ⟨hf₁, hrest⟩ := List.forall_mem_cons.1 hf
      exact ih (h.setField hf₁) hrest

end Holds

/-! ### The row of an entry -/

theorem read_ofEntry (e : Entry) : (ofEntry e).read =
    match e.unfit? with
    | some column => .error column
    | none => .ok e.floorMicros := by
  have htext : ∀ (column : Nat) (s : String), required column some (some s) = .ok s :=
    fun _ _ => rfl
  simp only [read, ofEntry, required_idText, htext, required_columnText, optional_columnText,
    Entry.unfit?]
  split_ifs <;> rfl

/-- **What is read back from the row of an entry.** -/
theorem readRow_ofEntry (e : Entry) : Table.readRow (ofEntry e) = e.readBack := by
  rw [Table.readRow, read_ofEntry, Entry.readBack]
  cases e.unfit? <;> rfl

/-- The row of an entry holds it, cut to whole microseconds, if all columns have room. -/
theorem holds_ofEntry {e : Entry} (h : e.Fits) : (ofEntry e).Holds e.floorMicros :=
  ⟨by rw [read_ofEntry, Entry.unfit?_eq_none.2 h], rfl⟩

/-- The cell of an instant that may be there shows it to the microsecond only. -/
theorem cell_floorMicros (t : Option Instant) :
    (t.map Instant.floorMicros).map Instant.columnText = t.map Instant.columnText := by
  cases t with
  | none => rfl
  | some u => exact congrArg some (Instant.columnText_floorMicros u)

/-- The row of an entry shows its instants to the microsecond only. -/
theorem ofEntry_floorMicros (e : Entry) : ofEntry e.floorMicros = ofEntry e := by
  simp only [ofEntry, Entry.floorMicros, Instant.columnText_floorMicros, cell_floorMicros]

theorem id_ofEntry {e : Entry} {id : Uuid} : (ofEntry e).id = some id.text ↔ e.id = id :=
  ⟨fun h => Uuid.text_inj (Option.some.inj h), fun h => congrArg some (congrArg Uuid.text h)⟩

theorem admits_ofEntry (e : Entry) (f : Filter) : Table.admits f (ofEntry e) = f.admits e :=
  admits_eq rfl rfl (by simp [ofEntry]) f

/-- So do cells written from an entry. -/
theorem setFields_floorMicros (r : Row) (source : Entry) (fields : List Field) :
    r.setFields source.floorMicros fields = r.setFields source fields := by
  have hf : ∀ (r : Row) (f : Field), r.setField source.floorMicros f = r.setField source f := by
    intro r f
    cases f <;> simp only [setField, Entry.floorMicros, Instant.columnText_floorMicros,
      cell_floorMicros]
  simp only [setFields, hf]

/-- The row of an entry with fields written is its row with the cells written. -/
theorem ofEntry_setFields (e source : Entry) (fields : List Field) :
    ofEntry (e.setFields source fields) = (ofEntry e).setFields source fields := by
  induction fields generalizing e with
  | nil => rfl
  | cons f fields ih =>
      have hf : ofEntry (e.setField source f) = (ofEntry e).setField source f := by
        cases f <;> rfl
      exact (ih _).trans (congrArg (setFields · source fields) hf)

end Store.Row

end Strongbox
