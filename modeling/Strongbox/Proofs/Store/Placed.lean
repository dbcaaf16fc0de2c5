import Strongbox.Proofs.Scene
import Strongbox.Proofs.Store.Holds
import Strongbox.Proofs.Store.Mirror
import Strongbox.Proofs.Store.Records

/-!
# Store — a record in its place

A record stands between others that have neither its token nor the usual text of its id.  Whatever
the others are, even if they repeat each other or do not read, a search by the token finds the
record, and a write by the id reaches it and no other.

* `Backing.Places`: the record in its place.
* `Backing.Places.find`, `Backing.Places.update`, `Backing.Places.erase`: the calls that are about
  the record.
* `Backing.places_create`: a new entry under a free token and a new id is put in a place.
* `Backing.read_setFields`, `Backing.read_record_fresh`: what a record written to and a new one read
  as.
-/

namespace Strongbox

namespace Store.Record

variable {x y : Record} {e source : Entry} {fields : List Field} {id : Uuid} {token : String}

/-- No update changes which writes reach a record. -/
@[simp] theorem isAt_setFields : (x.setFields source fields).isAt id = x.isAt id := by
  cases x with
  | entry e => simp [setFields, isAt]
  | row r => simp [setFields, isAt]

end Store.Record

namespace Backing

open Store (Record)

/-- The record stands in its place: a search by the token finds it first, and a write by the id
reaches it and none of the others. -/
structure Places (b : Backing) (front : List Record) (x : Record) (back : List Record)
    (token : String) (id : Uuid) : Prop where
  inStep : b.InStep
  records : b.records = front ++ x :: back
  named : x.token? = some token
  reached : x.isAt id = true
  tokens : ∀ y ∈ front ++ back, y.token? ≠ some token
  ids : ∀ y ∈ front ++ back, y.isAt id = false

variable {b : Backing} {front back : List Record} {x : Record} {token : String} {id : Uuid}
  {e source : Entry} {fields : List Field}

namespace Places

/-- **A search by the token** finds the record. -/
theorem find (h : b.Places front x back token id) :
    b.answer (.findToken token) = (x.read.map some, b) := by
  have hfront : front.find? (·.token? == some token) = none := by
    refine List.find?_eq_none.2 fun y hy => ?_
    rw [beq_iff_eq]
    exact h.tokens y (List.mem_append_left _ hy)
  have hfind : (x :: back).find? (·.token? == some token) = some x :=
    List.find?_cons_of_pos (beq_iff_eq.2 h.named)
  rw [h.inStep.answer_findToken, lookUp, h.records, List.find?_append, hfront, Option.none_or,
    hfind]

theorem any_isAt (h : b.Places front x back token id) : b.records.any (·.isAt id) = true := by
  rw [h.records]
  exact List.any_eq_true.2 ⟨x, List.mem_append_right _ List.mem_cons_self, h.reached⟩

/-- **An update by the id** rewrites the record in its place. -/
theorem update (h : b.Places front x back token id) (hid : source.id = id) (hne : fields ≠ []) :
    (b.answer (.update source fields)).1 = .ok () ∧
      (b.answer (.update source fields)).2.Places front (x.setFields source fields) back token
        id := by
  subst hid
  refine ⟨by rw [reply_update b source hne, if_pos h.any_isAt], ?_⟩
  have hf : front.map (·.rewrite source fields) = front :=
    Record.map_rewrite_eq_self fun y hy => h.ids y (List.mem_append_left _ hy)
  have hb : back.map (·.rewrite source fields) = back :=
    Record.map_rewrite_eq_self fun y hy => h.ids y (List.mem_append_right _ hy)
  exact {
    inStep := h.inStep.answer _
    records := by
      rw [records_update, h.records, List.map_append, List.map_cons, hf, hb,
        Record.rewrite_of_isAt h.reached]
    named := Record.token?_setFields.trans h.named
    reached := Record.isAt_setFields.trans h.reached
    tokens := h.tokens
    ids := h.ids }

/-- **An erasure by the id** takes the record out and leaves the others. -/
theorem erase (h : b.Places front x back token id) :
    (b.answer (.erase id)).1 = .ok () ∧ (b.answer (.erase id)).2.records = front ++ back := by
  have ha : (b.answer (.erase id)).1 = .ok () := by
    rw [reply_erase, if_pos h.any_isAt]
  -- an erasure takes out whatever has the id, but neither side has it
  have hstay : ∀ ys : List Record, (∀ y ∈ ys, y ∈ front ++ back) → ys.filter (!·.isAt id) = ys := by
    intro ys hys
    refine List.filter_eq_self.2 fun y hy => ?_
    rw [h.ids y (hys y hy), Bool.not_false]
  refine ⟨ha, ?_⟩
  have hgone : (x :: back).filter (!·.isAt id) = back := by
    rw [List.filter_cons, h.reached]
    exact hstay back fun y => List.mem_append_right _
  rw [records_erase ha, h.records, List.filter_append, hgone,
    hstay front fun y => List.mem_append_left _]

end Places

/-! ### A new record -/

/-- No write by an id that the store lacks reaches a record. -/
theorem Lacks.isAt_eq_false (h : b.Lacks id) : ∀ y ∈ b.records, y.isAt id = false := by
  cases b with
  | indexed s =>
      have hrow : s.row? id = none := h
      have hany := isSome_row? s id
      rw [hrow, Option.isSome_none] at hany
      intro y hy
      simpa using List.any_eq_false.1 hany.symm y hy
  | table t =>
      rintro _ hy
      obtain ⟨r, hr, rfl⟩ := List.mem_map.1 hy
      exact beq_eq_false_iff_ne.2 (h r hr)

/-- Where a search finds nothing, no record has the token. -/
theorem token?_ne_of_lookUp (h : b.lookUp token = .ok none) :
    ∀ y ∈ b.records, y.token? ≠ some token := by
  rw [lookUp] at h
  split at h
  · rename_i x hx
    cases hread : x.read <;> rw [hread] at h <;> cases h
  · rename_i hnone
    intro y hy
    simpa using List.find?_eq_none.1 hnone y hy

/-- **A new entry** under a free token and a new id is carried out: the store has one record more,
in a place of its own. -/
theorem places_create (hb : b.InStep) (hid : b.Lacks e.id)
    (htoken : ∀ y ∈ b.records, y.token? ≠ some e.token) :
    (b.answer (.create e)).1 = .ok () ∧ ∃ front back, b.records = front ++ back ∧
      (b.answer (.create e)).2.Places front (b.record e) back e.token e.id := by
  have ha : (b.answer (.create e)).1 = .ok () := by
    cases b with
    | indexed s =>
        have hfree : s.findToken e.token = none :=
          (Store.Indexed.Sound.findToken_eq_none hb).2 fun a ha he =>
            htoken _ (List.mem_map_of_mem ha) (congrArg some he)
        have hcreate := Store.Indexed.create_eq hb hfree hid
        simp only [answer, Store.Indexed.answer, hcreate]
    | table t =>
        have hfits : Store.Table.fits t.rows (.ofEntry e) = true := by
          simp only [Store.Table.fits, Store.Row.ofEntry, Option.isSome_some, Bool.true_and,
            List.all_eq_true, Bool.and_eq_true, Bool.not_eq_true']
          intro r hr
          have hrow : Record.row r ∈ (table t).records := List.mem_map_of_mem hr
          exact ⟨Store.Table.sameText_eq_false.2 (hid r hr),
            Store.Table.sameText_eq_false.2 (htoken _ hrow)⟩
        simp only [answer, Store.Table.answer, Store.Table.create, Store.Table.insertRow?, hfits,
          Bool.not_true, Bool.and_false, Bool.false_eq_true, if_false]
  obtain ⟨front, back, hr, hr'⟩ := records_create ha
  refine ⟨ha, front, back, hr, ?_⟩
  rw [hr] at htoken
  have hids := hid.isAt_eq_false
  rw [hr] at hids
  exact {
    inStep := hb.answer _
    records := hr'
    named := by cases b <;> rfl
    reached := by cases b <;> exact beq_iff_eq.2 rfl
    tokens := htoken
    ids := hids }

/-! ### What records read as -/

/-- A record written to reads as the entry with what the store keeps of the fields. -/
theorem read_setFields (hx : x ∈ b.records) (hread : x.read = .ok e) (hat : x.isAt e.id = true)
    (ht : ∀ f ∈ fields, b.TakesField source f) :
    (x.setFields source fields).read = .ok (e.setFields (b.keepEntry source) fields) := by
  cases b with
  | indexed s =>
      obtain ⟨a, -, rfl⟩ := List.mem_map.1 hx
      obtain rfl := Except.ok.inj hread
      rfl
  | table t =>
      obtain ⟨r, -, rfl⟩ := List.mem_map.1 hx
      have hholds : r.Holds e := ⟨Record.row_read hread, beq_iff_eq.1 hat⟩
      have hread' := (hholds.setFields ht).1
      simp only [Record.setFields, Record.read, Store.Table.readRow, hread', Except.mapError,
        keepEntry]

/-- A new record reads as what the store keeps of its entry, if it takes the instants. -/
theorem read_record_fresh {locked : String} {expires : Option Instant} {now : Instant}
    (hnow : b.Takes now) (hx : ∀ t ∈ expires, b.Takes t) :
    (b.record (.fresh id token locked expires now)).read
      = .ok (b.keepEntry (.fresh id token locked expires now)) := by
  cases b with
  | indexed s => rfl
  | table t =>
      have hfits : (Entry.fresh id token locked expires now).Fits := ⟨hnow, hnow, hx, nofun⟩
      rw [record, Record.read, Store.Row.readRow_ofEntry, Entry.readBack,
        Entry.unfit?_eq_none.2 hfits]
      rfl

/-- A new record does not read if the store does not take its expiry. -/
theorem unread_record_fresh {locked : String} {expires : Option Instant} {now : Instant}
    (hnow : b.Takes now) (hx : ¬ ∀ t ∈ expires, b.Takes t) :
    (b.record (.fresh id token locked expires now)).read = .error (.unreadable (some 5)) := by
  cases b with
  | indexed s => exact absurd (fun _ _ => trivial) hx
  | table t =>
      let e := Entry.fresh id token locked expires now
      have hcreated : e.created.Fits := hnow
      have hupdated : e.updated.Fits := hnow
      have hexpires : ¬ ∀ t ∈ e.expires, t.Fits := hx
      have hunfit : e.unfit? = some 5 := by
        rw [Entry.unfit?, if_pos hcreated, if_pos hupdated, if_neg hexpires]
      rw [record, Record.read, Store.Row.readRow_ofEntry, Entry.readBack, hunfit]

end Backing

end Strongbox
