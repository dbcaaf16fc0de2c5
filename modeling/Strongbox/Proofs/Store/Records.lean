import Mathlib.Data.List.Pairwise
import Strongbox.Proofs.Store.Row
import Strongbox.Proofs.Store.Tokens
import Strongbox.World

/-!
# Store — records, readable or not

A store of either kind holds records: an indexed store holds entries, a table rows of text, of which
some may not read.  What a call answers and what it leaves can be told from the list of the records,
even of a table that does not read as a list of entries.

* `Backing.Apart`: no two records have an id or a token in common; `Backing.InStep` asks less.
* `Backing.answer_findToken`: what is found under a token is what the first record with it reads as.
* `Backing.records_create`, `Backing.records_update`, `Backing.records_erase`: the records after a
  write.
* `Backing.Apart.map_rewrite`, `Backing.Apart.filter_at`: a write by the id of a record changes that
  record alone.
-/

namespace Strongbox

namespace Store

/-- What a store holds of one secret: an entry, or a row of text. -/
inductive Record where
  | entry (e : Entry)
  | row (r : Row)

namespace Record

/-- The id; that of a row may be spelled in any way. -/
def id? : Record → Option Uuid
  | entry e => some e.id
  | row r => r.id.bind Uuid.read?

/-- The token. -/
def token? : Record → Option String
  | entry e => some e.token
  | row r => r.token

/-- The entry that the record reads as. -/
def read : Record → Except StoreError Entry
  | entry e => .ok e
  | row r => Table.readRow r

/-- The record was hidden. -/
def isHidden : Record → Bool
  | entry e => e.isHidden
  | row r => r.hidden.isSome

/-- A write by the id reaches the record: a row only if it has the usual text of the id. -/
def isAt (id : Uuid) : Record → Bool
  | entry e => e.id == id
  | row r => r.id == some id.text

/-- The condition of a filter. -/
def admits (f : Filter) : Record → Bool
  | entry e => f.admits e
  | row r => Table.admits f r

/-- The record with some fields taken from an entry. -/
def setFields (source : Entry) (fields : List Field) : Record → Record
  | entry e => entry (e.setFields source fields)
  | row r => row (r.setFields source fields)

/-- The record with the fields of an update written, if the update reaches it. -/
def rewrite (source : Entry) (fields : List Field) (x : Record) : Record :=
  if x.isAt source.id then x.setFields source fields else x

/-- The records have neither an id nor a token in common. -/
structure Apart (x y : Record) : Prop where
  ids : ∀ id, x.id? = some id → y.id? ≠ some id
  tokens : ∀ token, x.token? = some token → y.token? ≠ some token

variable {x y : Record} {e source : Entry} {id : Uuid} {fields : List Field}

theorem Apart.symm (h : x.Apart y) : y.Apart x :=
  ⟨fun id hy hx => h.ids id hx hy, fun token hy hx => h.tokens token hx hy⟩

/-! ### Reading -/

/-- A record that a write by an id reaches has that id. -/
theorem id?_of_isAt (h : x.isAt id = true) : x.id? = some id := by
  cases x with
  | entry e => exact congrArg some (beq_iff_eq.1 h)
  | row r =>
      have hr : r.id = some id.text := beq_iff_eq.1 h
      rw [id?, hr, Option.bind_some, Uuid.read?_text]

theorem row_read {r : Row} (h : (row r).read = .ok e) : r.read = .ok e := by
  simp only [read, Table.readRow] at h
  cases hr : r.read with
  | error column => rw [hr] at h; cases h
  | ok a => rw [hr] at h; exact congrArg Except.ok (Except.ok.inj h)

/-- What a row reads as has its id and its token, and is hidden if the row is. -/
theorem read_row {r : Row} (h : (row r).read = .ok e) :
    r.id.bind Uuid.read? = some e.id ∧ r.token = some e.token ∧ r.hidden.isSome = e.isHidden := by
  obtain ⟨h0, h1, -, -, -, -, h6⟩ := Row.read_eq_ok.1 (row_read h)
  refine ⟨Row.required_eq_ok.1 h0, by simpa using Row.required_eq_ok.1 h1, ?_⟩
  rw [Bool.eq_iff_iff, ← Option.ne_none_iff_isSome, Entry.isHidden, ← Option.ne_none_iff_isSome]
  exact not_congr (Row.optional_none h6)

theorem id?_of_read (h : x.read = .ok e) : x.id? = some e.id := by
  cases x with
  | entry a => exact congrArg (some ·.id) (Except.ok.inj h)
  | row r => exact (read_row h).1

theorem isHidden_of_read (h : x.read = .ok e) : x.isHidden = e.isHidden := by
  cases x with
  | entry a => exact congrArg Entry.isHidden (Except.ok.inj h)
  | row r => exact (read_row h).2.2

/-- A filter that leaves hidden entries out does not admit a hidden record. -/
theorem admits_eq_false {f : Filter} (hf : f.withHidden = false) (h : x.isHidden = true) :
    x.admits f = false := by
  cases x with
  | entry e =>
      have he : e.isHidden = true := h
      simp [admits, Filter.admits, hf, he]
  | row r =>
      have hr : r.hidden.isNone = false := by
        rw [← Option.not_isSome, Bool.not_eq_false']
        exact h
      simp [admits, Table.admits, hf, hr]

/-! ### Writing -/

/-- What an update hides is hidden. -/
theorem isHidden_setFields (h : source.isHidden = true) :
    (x.setFields source [.hidden, .updated]).isHidden = true := by
  cases x with
  | entry e => exact h
  | row r => exact (Option.isSome_map ..).trans h

@[simp] theorem id?_setFields : (x.setFields source fields).id? = x.id? := by
  cases x <;> simp [setFields, id?]

@[simp] theorem token?_setFields : (x.setFields source fields).token? = x.token? := by
  cases x with
  | entry e => simp [setFields, token?]
  | row r => simp [setFields, token?]

@[simp] theorem id?_rewrite : (x.rewrite source fields).id? = x.id? := by
  simp only [rewrite]
  split <;> simp

@[simp] theorem token?_rewrite : (x.rewrite source fields).token? = x.token? := by
  simp only [rewrite]
  split <;> simp

/-- A write by another id does not reach the record. -/
theorem isAt_eq_false (h : x.id? ≠ some id) : x.isAt id = false :=
  Bool.eq_false_iff.2 fun hat => h (id?_of_isAt hat)

/-- An update that does not reach the record passes it by. -/
theorem rewrite_eq_self (h : x.isAt source.id = false) : x.rewrite source fields = x :=
  if_neg (Bool.eq_false_iff.1 h)

/-- Where an update reaches no record, none is rewritten. -/
theorem map_rewrite_eq_self {xs : List Record} (h : ∀ y ∈ xs, y.isAt source.id = false) :
    xs.map (·.rewrite source fields) = xs :=
  (List.map_congr_left fun y hy => rewrite_eq_self (h y hy)).trans (List.map_id _)

theorem rewrite_of_isAt (h : x.isAt source.id = true) :
    x.rewrite source fields = x.setFields source fields :=
  if_pos h

end Record

end Store

namespace Backing

open Store (Record)

/-- The records of the store, in the order of their places. -/
def records : Backing → List Record
  | indexed s => s.rows.map .entry
  | table t => t.rows.map .row

/-- The record that the store makes of an entry. -/
def record : Backing → Entry → Record
  | indexed _, e => .entry e
  | table _, e => .row (.ofEntry e)

/-- No two records have an id or a token in common, and an index is in step with its rows. -/
def Apart : Backing → Prop
  | indexed s => s.Sound
  | table t => t.rows.Pairwise fun a b => (Record.row a).Apart (.row b)

/-- An index is in step with its rows; any table will do, whatever its rows hold. -/
def InStep : Backing → Prop
  | indexed s => s.Sound
  | table _ => True

/-- The second store is of the kind of the first: indexed and in step with its rows, or a table that
has a schema if the first one has. -/
inductive SameKind : Backing → Backing → Prop where
  | indexed {s s' : Store.Indexed} (h : s'.Sound) : SameKind (indexed s) (indexed s')
  | table {t t' : Store.Table} (h : t'.enforced = t.enforced) : SameKind (table t) (table t')

variable {b b' : Backing} {x y : Record} {front back : List Record} {e source : Entry} {id : Uuid}
  {token : String} {fields : List Field}

theorem length_records (b : Backing) : b.records.length = b.size := by
  cases b <;> exact List.length_map _

/-! ### Records apart -/

namespace Apart

theorem pairwise (h : b.Apart) : b.records.Pairwise Record.Apart := by
  cases b with
  | indexed s =>
      have hids := List.pairwise_map.1 (Store.Indexed.Sound.ids h)
      have htokens := List.pairwise_map.1 (Store.Indexed.Sound.tokens h)
      refine List.pairwise_map.2 ((hids.and htokens).imp fun {a c} hac => ⟨?_, ?_⟩)
      · intro id ha hc
        exact hac.1 (Option.some.inj (ha.trans hc.symm))
      · intro token ha hc
        exact hac.2 (Option.some.inj (ha.trans hc.symm))
  | table t => exact List.pairwise_map.2 h

/-- The other records have neither the id nor the token of a record. -/
theorem others (h : b.Apart) (hr : b.records = front ++ x :: back) :
    (∀ y ∈ front, x.Apart y) ∧ ∀ y ∈ back, x.Apart y := by
  have hp := h.pairwise
  rw [hr] at hp
  obtain ⟨-, hback, hfront⟩ := List.pairwise_append.1 hp
  exact ⟨fun y hy => (hfront y hy x List.mem_cons_self).symm, (List.pairwise_cons.1 hback).1⟩

/-- The record with an id is the only one. -/
theorem eq_of_id (h : b.Apart) (hx : x ∈ b.records) (hy : y ∈ b.records)
    (hidx : x.id? = some id) (hidy : y.id? = some id) : x = y := by
  obtain ⟨front, back, hr⟩ := List.append_of_mem hx
  obtain ⟨hfront, hback⟩ := h.others hr
  rw [hr] at hy
  rcases List.mem_append.1 hy with hm | hm
  · exact absurd hidy ((hfront y hm).ids id hidx)
  · rcases List.mem_cons.1 hm with rfl | hm
    · rfl
    · exact absurd hidy ((hback y hm).ids id hidx)

/-- An update by the id of a record rewrites that record alone. -/
theorem map_rewrite (h : b.Apart) (hr : b.records = front ++ x :: back)
    (hid : x.id? = some source.id) :
    b.records.map (·.rewrite source fields) = front ++ x.rewrite source fields :: back := by
  obtain ⟨hfront, hback⟩ := h.others hr
  have hf : front.map (·.rewrite source fields) = front :=
    Record.map_rewrite_eq_self fun y hy => Record.isAt_eq_false ((hfront y hy).ids _ hid)
  have hb : back.map (·.rewrite source fields) = back :=
    Record.map_rewrite_eq_self fun y hy => Record.isAt_eq_false ((hback y hy).ids _ hid)
  rw [hr, List.map_append, List.map_cons, hf, hb]

/-- An erasure by the id of a record, if it reaches the record, takes out that record alone. -/
theorem filter_at (h : b.Apart) (hr : b.records = front ++ x :: back) (hat : x.isAt id = true) :
    b.records.filter (!·.isAt id) = front ++ back := by
  obtain ⟨hfront, hback⟩ := h.others hr
  have hid := Record.id?_of_isAt hat
  have hno : ∀ y : Record, x.Apart y → (!y.isAt id) = true := fun y hy => by
    rw [Record.isAt_eq_false (hy.ids id hid), Bool.not_false]
  have hf : front.filter (!·.isAt id) = front :=
    List.filter_eq_self.2 fun y hy => hno y (hfront y hy)
  have hb : back.filter (!·.isAt id) = back :=
    List.filter_eq_self.2 fun y hy => hno y (hback y hy)
  rw [hr, List.filter_append, List.filter_cons_of_neg (by simpa using hat), hf, hb]

end Apart

/-! ### Answers -/

/-- What the first record with a token reads as. -/
def lookUp (b : Backing) (token : String) : Except StoreError (Option Entry) :=
  match b.records.find? (·.token? == some token) with
  | some x => x.read.map some
  | none => .ok none

/-- No look-up fails where every record reads. -/
theorem exists_lookUp (h : ∀ x ∈ b.records, ∃ e, x.read = .ok e) (token : String) :
    ∃ found, b.lookUp token = .ok found := by
  cases hfind : b.records.find? (·.token? == some token) with
  | none => exact ⟨none, by rw [lookUp, hfind]⟩
  | some x =>
      obtain ⟨e, he⟩ := h x (List.mem_of_find?_eq_some hfind)
      exact ⟨some e, by simp only [lookUp, hfind, he, Except.map]⟩

/-- What is found under a token is what the first record with it reads as. -/
theorem InStep.answer_findToken (h : b.InStep) (token : String) :
    b.answer (.findToken token) = (b.lookUp token, b) := by
  cases b with
  | indexed s =>
      have hs : s.Sound := h
      have hfind : s.findToken token = s.rows.find? (·.token == token) :=
        Option.ext fun e => hs.findToken_eq_some.trans (Store.Indexed.find?_key hs.tokens).symm
      have hrows : (s.rows.map Record.entry).find? (·.token? == some token)
          = (s.findToken token).map .entry := by
        rw [List.find?_map, hfind]
        rfl
      simp only [answer, Store.Indexed.answer, lookUp, records, hrows]
      cases s.findToken token <;> rfl
  | table t =>
      have hrows : (t.rows.map Record.row).find? (·.token? == some token)
          = (t.rows.find? (·.token == some token)).map .row := List.find?_map
      simp only [answer, Store.Table.answer, Store.Table.find, lookUp, records, hrows]
      cases t.rows.find? (·.token == some token) <;> rfl

/-- No call takes an index out of step. -/
theorem InStep.answer (h : b.InStep) (c : Store.Call) : (b.answer c).2.InStep := by
  cases b with
  | indexed s => exact Store.Indexed.Sound.answer h c
  | table t => trivial

theorem Apart.inStep (h : b.Apart) : b.InStep := by
  cases b with
  | indexed s => exact h
  | table t => trivial

/-- **What is found under a token** is what the first record with it reads as. -/
theorem answer_findToken (h : b.Apart) (token : String) :
    b.answer (.findToken token) = (b.lookUp token, b) :=
  h.inStep.answer_findToken token

/-- Some record has the token and reads as the entry. -/
def Has (b : Backing) (token : String) (e : Entry) : Prop :=
  ∃ x ∈ b.records, x.token? = some token ∧ x.read = .ok e

theorem has_of_lookUp (h : b.lookUp token = .ok (some e)) : b.Has token e := by
  simp only [lookUp] at h
  split at h
  · rename_i x hx
    refine ⟨x, List.mem_of_find?_eq_some hx, by simpa using List.find?_some hx, ?_⟩
    cases hread : x.read with
    | error error => rw [hread] at h; cases h
    | ok a =>
        rw [hread] at h
        exact congrArg Except.ok (Option.some.inj (Except.ok.inj h))
  · cases h

theorem table_enforced (t : Store.Table) (c : Store.Call) :
    (t.answer c).2.enforced = t.enforced := by
  cases c with
  | create e =>
      simp only [Store.Table.answer, Store.Table.create, Store.Table.insertRow?]
      split_ifs <;> rfl
  | update e fields =>
      simp only [Store.Table.answer, Store.Table.update]
      split_ifs <;> rfl
  | erase id =>
      simp only [Store.Table.answer, Store.Table.erase]
      split_ifs <;> rfl
  | findId | findToken | list | count => rfl

/-- No call changes the kind of a store, and an index stays in step. -/
theorem SameKind.answer (h : b.SameKind b') (c : Store.Call) : b.SameKind (b'.answer c).2 := by
  cases h with
  | indexed h => exact .indexed (Store.Indexed.Sound.answer h c)
  | table h => exact .table ((table_enforced _ c).trans h)

theorem Apart.sameKind (h : b.Apart) : b.SameKind b := by
  cases b with
  | indexed s => exact .indexed h
  | table t => exact .table rfl

/-- Some row has the id if a write by the id reaches some record. -/
theorem isSome_row? (s : Store.Indexed) (id : Uuid) :
    (s.row? id).isSome = (indexed s).records.any (·.isAt id) := by
  rw [records, List.any_map, Store.Indexed.row?, List.isSome_find?]
  rfl

theorem any_row (t : Store.Table) (id : Uuid) :
    t.rows.any (·.id == some id.text) = (table t).records.any (·.isAt id) := by
  rw [records, List.any_map]
  rfl

/-- **An update is carried out** if it reaches some record. -/
theorem reply_update (b : Backing) (source : Entry) (hne : fields ≠ []) :
    (b.answer (.update source fields)).1 =
      if b.records.any (·.isAt source.id) then .ok () else .error (.missing source.id) := by
  cases b with
  | indexed s =>
      simp only [answer, Store.Indexed.answer, Store.Indexed.update, isSome_row?]
      split_ifs <;> rfl
  | table t =>
      simp only [answer, Store.Table.answer, Store.Table.update, List.isEmpty_eq_false_iff.2 hne,
        Bool.false_eq_true, if_false, any_row]
      split_ifs <;> rfl

theorem rewrite_entry (e source : Entry) (fields : List Field) :
    (Record.entry e).rewrite source fields = .entry (Store.Indexed.rewrite source fields e) := by
  simp only [Record.rewrite, Record.isAt, beq_iff_eq, Store.Indexed.rewrite]
  split_ifs <;> rfl

theorem rewrite_row (r : Store.Row) (source : Entry) (fields : List Field) :
    (Record.row r).rewrite source fields
      = .row (if r.id = some source.id.text then r.setFields source fields else r) := by
  simp only [Record.rewrite, Record.isAt, beq_iff_eq]
  split_ifs <;> rfl

/-- **The records after an update.** -/
theorem records_update (b : Backing) (source : Entry) (fields : List Field) :
    (b.answer (.update source fields)).2.records = b.records.map (·.rewrite source fields) := by
  cases b with
  | indexed s =>
      simp only [answer, Store.Indexed.answer, Store.Indexed.update_rows, records, List.map_map,
        Function.comp_def, rewrite_entry]
  | table t =>
      cases fields with
      | nil =>
          -- a table does not look at its rows, and to rewrite no field changes none of them
          have hself : ∀ x : Record, x.rewrite source [] = x := fun x => by
            cases x <;> exact ite_self _
          simp only [hself, List.map_id']
          rfl
      | cons f fields =>
          by_cases hat : (table t).records.any (·.isAt source.id) = true
          · simp only [answer, Store.Table.answer, Store.Table.update, List.isEmpty_cons,
              Bool.false_eq_true, if_false, any_row, hat, if_true]
            simp only [records, List.map_map, Function.comp_def, rewrite_row]
          · have hno : ∀ y ∈ (table t).records, y.isAt source.id = false := fun y hy =>
              Bool.eq_false_iff.2 fun hy' => hat (List.any_eq_true.2 ⟨y, hy, hy'⟩)
            rw [Record.map_rewrite_eq_self hno]
            simp only [answer, Store.Table.answer, Store.Table.update, List.isEmpty_cons,
              Bool.false_eq_true, if_false, any_row, hat]

/-- **An erasure is carried out** if it reaches some record. -/
theorem reply_erase (b : Backing) (id : Uuid) :
    (b.answer (.erase id)).1 =
      if b.records.any (·.isAt id) then .ok () else .error (.missing id) := by
  cases b with
  | indexed s =>
      rw [← isSome_row?]
      simp only [answer, Store.Indexed.answer, Store.Indexed.erase]
      cases s.row? id <;> rfl
  | table t =>
      simp only [answer, Store.Table.answer, Store.Table.erase, any_row]
      split_ifs <;> rfl

/-- **The records after an erasure** that is carried out. -/
theorem records_erase (ha : (b.answer (.erase id)).1 = .ok ()) :
    (b.answer (.erase id)).2.records = b.records.filter (!·.isAt id) := by
  cases b with
  | indexed s =>
      simp only [answer, Store.Indexed.answer, Store.Indexed.erase] at ha ⊢
      cases hr : s.row? id with
      | none => rw [hr] at ha; cases ha
      | some r =>
          simp only [records, List.filter_map]
          rfl
  | table t =>
      simp only [answer, Store.Table.answer, Store.Table.erase] at ha ⊢
      split_ifs at ha ⊢
      simp only [records, List.filter_map]
      rfl

/-- Where a write by an id reaches some record, it reaches the record with that id. -/
theorem Apart.isAt_of_any (h : b.Apart) (hx : x ∈ b.records) (hid : x.id? = some id)
    (hany : b.records.any (·.isAt id) = true) : x.isAt id = true := by
  obtain ⟨y, hy, hat⟩ := List.any_eq_true.1 hany
  rwa [h.eq_of_id hx hy hid (Record.id?_of_isAt hat)]

/-- An update that is carried out has reached the record with the id. -/
theorem Apart.update_reaches (h : b.Apart) (hx : x ∈ b.records) (hid : x.id? = some source.id)
    (hne : fields ≠ []) (ha : (b.answer (.update source fields)).1 = .ok ()) :
    x.isAt source.id = true := by
  rw [reply_update b source hne] at ha
  split_ifs at ha with hany
  exact h.isAt_of_any hx hid hany

/-- An erasure that is carried out has reached the record with the id. -/
theorem Apart.erase_reaches (h : b.Apart) (hx : x ∈ b.records) (hid : x.id? = some id)
    (ha : (b.answer (.erase id)).1 = .ok ()) : x.isAt id = true := by
  rw [reply_erase] at ha
  split_ifs at ha with hany
  exact h.isAt_of_any hx hid hany

theorem insertRow_eq (e : Entry) (rows : List Entry) :
    ∃ front back, rows = front ++ back ∧ Store.Indexed.insertRow e rows = front ++ e :: back := by
  induction rows with
  | nil => exact ⟨[], [], rfl, rfl⟩
  | cons r rows ih =>
      by_cases h : e.id < r.id
      · exact ⟨[], r :: rows, rfl, if_pos h⟩
      · obtain ⟨front, back, hrows, hins⟩ := ih
        refine ⟨r :: front, back, congrArg (r :: ·) hrows, ?_⟩
        rw [Store.Indexed.insertRow, if_neg h, hins]
        rfl

/-- **The records after a creation** that is carried out: one more. -/
theorem records_create (ha : (b.answer (.create e)).1 = .ok ()) :
    ∃ front back, b.records = front ++ back ∧
      (b.answer (.create e)).2.records = front ++ b.record e :: back := by
  cases b with
  | indexed s =>
      obtain ⟨front, back, hrows, hins⟩ := insertRow_eq e s.rows
      refine ⟨front.map .entry, back.map .entry, by simp only [records, hrows, List.map_append], ?_⟩
      simp only [answer, Store.Indexed.answer, Store.Indexed.create] at ha ⊢
      split_ifs at ha ⊢
      simp only [records, hins, List.map_append, List.map_cons, record]
  | table t =>
      refine ⟨t.rows.map .row, [], (List.append_nil _).symm, ?_⟩
      simp only [answer, Store.Table.answer, Store.Table.create] at ha ⊢
      cases hi : t.insertRow? (.ofEntry e) with
      | none => rw [hi] at ha; cases ha
      | some t' =>
          simp only [Store.Table.insertRow?] at hi
          split_ifs at hi
          obtain rfl := Option.some.inj hi
          simp only [records, List.map_append, List.map_cons, List.map_nil, record]

end Backing

end Strongbox
