import Strongbox.Proofs.Uuid
import Strongbox.Store.Indexed

/-!
# Store — indexed entries, soundly

The rows of an indexed store ascend by id, no two of them have one token, and the index holds the
token and the id of every row and nothing else.

* `Sound`: these conditions; `Sound.create`, `Sound.update` and `Sound.erase` keep them.
* `Sound.findToken_eq_some`: what is found under a token is the row that has it.
* `findToken_create`, `findToken_update`, `findToken_erase`: what is found under every token after
  a call.
-/

namespace Strongbox

/-! ### Fields -/

namespace Entry

/-- No update writes an id. -/
@[simp] theorem id_setFields (e source : Entry) (fields : List Field) :
    (e.setFields source fields).id = e.id := by
  induction fields generalizing e with
  | nil => rfl
  | cons f fields ih =>
      have hf : (e.setField source f).id = e.id := by cases f <;> rfl
      exact (ih _).trans hf

/-- No update writes a token. -/
@[simp] theorem token_setFields (e source : Entry) (fields : List Field) :
    (e.setFields source fields).token = e.token := by
  induction fields generalizing e with
  | nil => rfl
  | cons f fields ih =>
      have hf : (e.setField source f).token = e.token := by cases f <;> rfl
      exact (ih _).trans hf

end Entry

/-- Nothing is left out by the filter that admits everything. -/
theorem Filter.filter_all (es : List Entry) : es.filter Filter.all.admits = es :=
  List.filter_eq_self.2 fun _ _ => by simp [Filter.admits, Filter.all]

namespace Store.Indexed

/-! ### Looking up by a key -/

/-- Where keys are apart, the first item with a key is the item with that key. -/
theorem find?_key {α β : Type} [BEq β] [LawfulBEq β] {key : α → β} {l : List α}
    (h : (l.map key).Nodup) {a : α} {k : β} :
    l.find? (key · == k) = some a ↔ a ∈ l ∧ key a = k := by
  constructor
  · intro hf
    exact ⟨List.mem_of_find?_eq_some hf, by simpa using List.find?_some hf⟩
  · rintro ⟨ha, rfl⟩
    induction l with
    | nil => cases ha
    | cons b l ih =>
        rw [List.map_cons, List.nodup_cons] at h
        rcases List.mem_cons.1 ha with rfl | ha
        · rw [List.find?_cons_of_pos (by simp)]
        · have : key b ≠ key a := fun e => h.1 (e ▸ List.mem_map_of_mem ha)
          rw [List.find?_cons_of_neg (by simpa using this)]
          exact ih h.2 ha

/-! ### Sound stores -/

/-- The rows ascend by id, their tokens are apart, and the index is exact. -/
structure Sound (s : Indexed) : Prop where
  ascending : s.rows.Pairwise fun a b => a.id < b.id
  tokens : (s.rows.map (·.token)).Nodup
  keys : (s.index.map (·.1)).Nodup
  index : ∀ token id, (token, id) ∈ s.index ↔ ∃ e ∈ s.rows, e.token = token ∧ e.id = id

theorem sound_empty : empty.Sound :=
  ⟨.nil, .nil, .nil, fun _ _ => by simp [empty]⟩

namespace Sound

variable {s : Indexed}

theorem ids (h : s.Sound) : (s.rows.map (·.id)).Nodup :=
  List.pairwise_map.2 (h.ascending.imp Uuid.ne_of_lt)

theorem row?_eq_some (h : s.Sound) {id : Uuid} {e : Entry} :
    s.row? id = some e ↔ e ∈ s.rows ∧ e.id = id :=
  find?_key h.ids

theorem row?_eq_none {s : Indexed} {id : Uuid} : s.row? id = none ↔ ∀ e ∈ s.rows, e.id ≠ id := by
  simp [row?]

theorem idOf?_eq_some (h : s.Sound) {token : String} {id : Uuid} :
    s.idOf? token = some id ↔ ∃ e ∈ s.rows, e.token = token ∧ e.id = id := by
  rw [← h.index, idOf?, Option.map_eq_some_iff]
  constructor
  · rintro ⟨⟨t, u⟩, hf, rfl⟩
    obtain ⟨hm, rfl⟩ := (find?_key h.keys).1 hf
    exact hm
  · exact fun hm => ⟨_, (find?_key h.keys).2 ⟨hm, rfl⟩, rfl⟩

/-- **What is found under a token** is the row that has it. -/
theorem findToken_eq_some (h : s.Sound) {token : String} {e : Entry} :
    s.findToken token = some e ↔ e ∈ s.rows ∧ e.token = token := by
  rw [findToken, Option.bind_eq_some_iff]
  constructor
  · rintro ⟨id, hid, hr⟩
    obtain ⟨e', hm', ht, rfl⟩ := h.idOf?_eq_some.1 hid
    have he : s.row? e'.id = some e' := h.row?_eq_some.2 ⟨hm', rfl⟩
    obtain rfl := Option.some.inj (he.symm.trans hr)
    exact ⟨hm', ht⟩
  · rintro ⟨hm, ht⟩
    exact ⟨e.id, h.idOf?_eq_some.2 ⟨e, hm, ht, rfl⟩, h.row?_eq_some.2 ⟨hm, rfl⟩⟩

theorem findToken_eq_none (h : s.Sound) {token : String} :
    s.findToken token = none ↔ ∀ e ∈ s.rows, e.token ≠ token := by
  rw [Option.eq_none_iff_forall_not_mem]
  constructor
  · exact fun hn e hm ht => hn e (h.findToken_eq_some.2 ⟨hm, ht⟩)
  · exact fun hn e hf => hn e (h.findToken_eq_some.1 hf).1 (h.findToken_eq_some.1 hf).2

theorem idOf?_eq_none (h : s.Sound) {token : String} (hn : s.findToken token = none) :
    s.idOf? token = none := by
  rw [Option.eq_none_iff_forall_not_mem]
  intro id hid
  obtain ⟨e, hm, ht, -⟩ := h.idOf?_eq_some.1 hid
  exact h.findToken_eq_none.1 hn e hm ht

end Sound

/-! ### A new entry -/

theorem insertRow_perm (e : Entry) (rows : List Entry) :
    (insertRow e rows).Perm (e :: rows) := by
  induction rows with
  | nil => exact .rfl
  | cons r rows ih =>
      simp only [insertRow]
      split
      · exact .rfl
      · exact (ih.cons r).trans (.swap e r rows)

theorem insertRow_ascending {e : Entry} {rows : List Entry}
    (h : rows.Pairwise fun a b => a.id < b.id) (hn : ∀ r ∈ rows, r.id ≠ e.id) :
    (insertRow e rows).Pairwise fun a b => a.id < b.id := by
  induction rows with
  | nil => exact List.pairwise_singleton _ _
  | cons r rows ih =>
      obtain ⟨hr, hrows⟩ := List.pairwise_cons.1 h
      simp only [insertRow]
      split
      · rename_i hlt
        refine List.pairwise_cons.2 ⟨fun a ha => ?_, h⟩
        rcases List.mem_cons.1 ha with rfl | ha
        · exact hlt
        · exact Uuid.lt_trans hlt (hr a ha)
      · rename_i hge
        refine List.pairwise_cons.2 ⟨fun a ha => ?_, ih hrows fun x hx => hn x (.tail _ hx)⟩
        rcases List.mem_cons.1 ((insertRow_perm e rows).mem_iff.1 ha) with rfl | ha
        · exact Uuid.lt_of_not_lt hge (hn r (.head _)).symm
        · exact hr a ha

/-- A new entry is taken where its token and its id are free. -/
theorem create_eq {s : Indexed} {e : Entry} (h : s.Sound) (ht : s.findToken e.token = none)
    (hid : s.row? e.id = none) :
    s.create e = (.ok (), ⟨insertRow e s.rows, (e.token, e.id) :: s.index⟩) := by
  simp [create, h.idOf?_eq_none ht, hid]

theorem Sound.create {s : Indexed} {e : Entry} (h : s.Sound) (ht : s.findToken e.token = none)
    (hid : s.row? e.id = none) : Sound ⟨insertRow e s.rows, (e.token, e.id) :: s.index⟩ where
  ascending := insertRow_ascending h.ascending (Sound.row?_eq_none.1 hid)
  tokens := by
    refine ((insertRow_perm e s.rows).map (·.token)).nodup_iff.2 ?_
    rw [List.map_cons, List.nodup_cons]
    refine ⟨fun hm => ?_, h.tokens⟩
    obtain ⟨r, hr, hrt⟩ := List.mem_map.1 hm
    exact h.findToken_eq_none.1 ht r hr hrt
  keys := by
    rw [List.map_cons, List.nodup_cons]
    refine ⟨fun hm => ?_, h.keys⟩
    obtain ⟨⟨t, u⟩, hp, rfl⟩ := List.mem_map.1 hm
    obtain ⟨r, hr, hrt, -⟩ := (h.index _ _).1 hp
    exact h.findToken_eq_none.1 ht r hr hrt
  index token id := by
    rw [List.mem_cons, h.index, Prod.mk.injEq]
    constructor
    · rintro (⟨rfl, rfl⟩ | ⟨r, hr, hp⟩)
      · exact ⟨e, (insertRow_perm e s.rows).mem_iff.2 (.head _), rfl, rfl⟩
      · exact ⟨r, (insertRow_perm e s.rows).mem_iff.2 (.tail _ hr), hp⟩
    · rintro ⟨r, hr, rfl, rfl⟩
      rcases List.mem_cons.1 ((insertRow_perm e s.rows).mem_iff.1 hr) with rfl | hr
      · exact .inl ⟨rfl, rfl⟩
      · exact .inr ⟨r, hr, rfl, rfl⟩

theorem findToken_create {s : Indexed} {e : Entry} (h : s.Sound)
    (ht : s.findToken e.token = none) (hid : s.row? e.id = none) (token : String) :
    (Indexed.mk (insertRow e s.rows) ((e.token, e.id) :: s.index)).findToken token
      = if token = e.token then some e else s.findToken token := by
  have h' := h.create ht hid
  split
  · rename_i heq
    exact h'.findToken_eq_some.2 ⟨(insertRow_perm e s.rows).mem_iff.2 (.head _), heq.symm⟩
  · rename_i hne
    refine Option.ext fun r => ?_
    rw [h'.findToken_eq_some, h.findToken_eq_some, (insertRow_perm e s.rows).mem_iff,
      List.mem_cons]
    constructor
    · rintro ⟨rfl | hm, hrt⟩
      · exact absurd hrt.symm hne
      · exact ⟨hm, hrt⟩
    · exact fun ⟨hm, hrt⟩ => ⟨.inr hm, hrt⟩

/-! ### Rewriting an entry -/

/-- A row with the fields of an update written, if it is the one to write. -/
def rewrite (e : Entry) (fields : List Field) (r : Entry) : Entry :=
  if r.id = e.id then r.setFields e fields else r

@[simp] theorem id_rewrite (e : Entry) (fields : List Field) (r : Entry) :
    (rewrite e fields r).id = r.id := by
  simp only [rewrite]
  split <;> simp

@[simp] theorem token_rewrite (e : Entry) (fields : List Field) (r : Entry) :
    (rewrite e fields r).token = r.token := by
  simp only [rewrite]
  split <;> simp

/-- An update of a row that is there is carried out. -/
theorem update_eq {s : Indexed} {e r : Entry} {fields : List Field} (h : s.Sound)
    (hr : r ∈ s.rows) (hid : r.id = e.id) :
    s.update e fields = (.ok (), { s with rows := s.rows.map (rewrite e fields) }) := by
  have : s.row? e.id = some r := h.row?_eq_some.2 ⟨hr, hid⟩
  simp only [update, this, Option.isSome_some, if_true]
  rfl

/-- A store stays sound when its rows are rewritten, ids and tokens left as they are. -/
theorem Sound.map {s : Indexed} (h : s.Sound) {g : Entry → Entry} (hid : ∀ e, (g e).id = e.id)
    (htoken : ∀ e, (g e).token = e.token) : Sound { s with rows := s.rows.map g } where
  ascending := by
    rw [List.pairwise_map]
    simpa only [hid] using h.ascending
  tokens := by
    rw [List.map_map]
    simpa only [Function.comp_def, htoken] using h.tokens
  keys := h.keys
  index token id := by
    rw [h.index]
    constructor
    · rintro ⟨r, hr, rfl, rfl⟩
      exact ⟨_, List.mem_map_of_mem hr, htoken r, hid r⟩
    · rintro ⟨r', hr', rfl, rfl⟩
      obtain ⟨r, hr, rfl⟩ := List.mem_map.1 hr'
      exact ⟨r, hr, (htoken r).symm, (hid r).symm⟩

theorem Sound.update {s : Indexed} (h : s.Sound) (e : Entry) (fields : List Field) :
    Sound { s with rows := s.rows.map (rewrite e fields) } :=
  h.map (id_rewrite e fields) (token_rewrite e fields)

theorem findToken_update {s : Indexed} (h : s.Sound) (e : Entry) (fields : List Field)
    (token : String) :
    (Indexed.mk (s.rows.map (rewrite e fields)) s.index).findToken token
      = (s.findToken token).map (rewrite e fields) := by
  have h' := h.update e fields
  refine Option.ext fun r => ?_
  rw [h'.findToken_eq_some, Option.map_eq_some_iff]
  constructor
  · rintro ⟨hm, ht⟩
    obtain ⟨r', hr', rfl⟩ := List.mem_map.1 hm
    exact ⟨r', h.findToken_eq_some.2 ⟨hr', by simpa using ht⟩, rfl⟩
  · rintro ⟨r', hf, rfl⟩
    obtain ⟨hm, ht⟩ := h.findToken_eq_some.1 hf
    exact ⟨List.mem_map_of_mem hm, by simpa using ht⟩

/-! ### Taking an entry out -/

/-- An entry that is there is taken out. -/
theorem erase_eq {s : Indexed} {e : Entry} (h : s.Sound) (he : e ∈ s.rows) :
    s.erase e.id
      = (.ok (), ⟨s.rows.filter (·.id != e.id), s.index.filter (·.1 != e.token)⟩) := by
  have : s.row? e.id = some e := h.row?_eq_some.2 ⟨he, rfl⟩
  simp only [erase, this]

/-- The row with the id of a row is the one with its token. -/
theorem Sound.id_eq_iff {s : Indexed} (h : s.Sound) {a b : Entry} (ha : a ∈ s.rows)
    (hb : b ∈ s.rows) : a.id = b.id ↔ a.token = b.token := by
  constructor
  · intro e
    have hab := (h.row?_eq_some.2 ⟨ha, e⟩).symm.trans (h.row?_eq_some.2 ⟨hb, rfl⟩)
    rw [Option.some.inj hab]
  · intro e
    have hab := (h.findToken_eq_some.2 ⟨ha, e⟩).symm.trans (h.findToken_eq_some.2 ⟨hb, rfl⟩)
    rw [Option.some.inj hab]

/-- A store stays sound when the rows of some ids are taken out, and their tokens with them. -/
theorem Sound.filter {s : Indexed} (h : s.Sound) (p : Uuid → Bool) :
    Sound ⟨s.rows.filter fun e => p e.id, s.index.filter fun k => p k.2⟩ where
  ascending := h.ascending.filter _
  tokens := (List.filter_sublist.map _).nodup h.tokens
  keys := (List.filter_sublist.map _).nodup h.keys
  index token id := by
    rw [List.mem_filter, h.index]
    constructor
    · rintro ⟨⟨r, hr, rfl, rfl⟩, hp⟩
      exact ⟨r, List.mem_filter.2 ⟨hr, hp⟩, rfl, rfl⟩
    · rintro ⟨r, hr, rfl, rfl⟩
      obtain ⟨hm, hp⟩ := List.mem_filter.1 hr
      exact ⟨⟨r, hm, rfl, rfl⟩, hp⟩

/-- Taking out the token of a row comes to the same as taking out its id. -/
theorem Sound.index_erase {s : Indexed} {e : Entry} (h : s.Sound) (he : e ∈ s.rows) :
    s.index.filter (·.1 != e.token) = s.index.filter (·.2 != e.id) := by
  refine List.filter_congr fun k hk => ?_
  obtain ⟨r, hr, htoken, hid⟩ := (h.index k.1 k.2).1 hk
  rw [← htoken, ← hid, Bool.eq_iff_iff, bne_iff_ne, bne_iff_ne]
  exact not_congr (h.id_eq_iff hr he).symm

theorem Sound.erase {s : Indexed} {e : Entry} (h : s.Sound) (he : e ∈ s.rows) :
    Sound ⟨s.rows.filter (·.id != e.id), s.index.filter (·.1 != e.token)⟩ := by
  rw [h.index_erase he]
  exact h.filter (· != e.id)

theorem findToken_erase {s : Indexed} {e : Entry} (h : s.Sound) (he : e ∈ s.rows)
    (token : String) :
    (Indexed.mk (s.rows.filter (·.id != e.id)) (s.index.filter (·.1 != e.token))).findToken token
      = if token = e.token then none else s.findToken token := by
  have h' := h.erase he
  split
  · rename_i heq
    refine h'.findToken_eq_none.2 fun r hr ht => ?_
    obtain ⟨hm, hne⟩ := List.mem_filter.1 hr
    have : r.id ≠ e.id := by simpa using hne
    exact this ((h.id_eq_iff hm he).2 (ht.trans heq))
  · rename_i hne
    refine Option.ext fun r => ?_
    rw [h'.findToken_eq_some, h.findToken_eq_some, List.mem_filter]
    constructor
    · exact fun ⟨⟨hm, _⟩, ht⟩ => ⟨hm, ht⟩
    · rintro ⟨hm, rfl⟩
      refine ⟨⟨hm, ?_⟩, rfl⟩
      simpa [h.id_eq_iff hm he] using hne

end Store.Indexed

end Strongbox
