import Strongbox.Proofs.Store.Indexed

/-!
# Store — who holds a token

An indexed store keeps its index in step with its rows, whatever calls are made to it.  So every
token is held by one row at most, and what the store answers about tokens is what its rows say.

* `Sound.answer`: every call leaves a sound store sound, those that fail included.
* `Sound.free_iff`: of all calls, only the erasure of its row frees a token that is held.
* `Sound.taken_iff`: of all calls, only the creation of a row takes a token that is free.
* `index_in_step`: what holds after any calls, from the empty store on.
-/

namespace Strongbox.Store.Indexed

variable {s : Indexed} {token : String} {e : Entry}

/-! ### One call -/

/-- A new entry is taken, or else its token or its id was. -/
theorem Sound.create_cases (h : s.Sound) (e : Entry) :
    (s.findToken e.token = none ∧ s.row? e.id = none ∧
        s.create e = (.ok (), ⟨insertRow e s.rows, (e.token, e.id) :: s.index⟩)) ∨
      ((∃ r ∈ s.rows, r.token = e.token ∨ r.id = e.id) ∧
        s.create e = (.error (.duplicate e.token), s)) := by
  by_cases htaken : ∃ r ∈ s.rows, r.token = e.token ∨ r.id = e.id
  · obtain ⟨r, hr, hpart⟩ := htaken
    have hfound : (s.idOf? e.token).isSome ∨ (s.row? e.id).isSome := by
      rcases hpart with ht | hid
      · exact .inl (Option.isSome_iff_exists.2 ⟨r.id, h.idOf?_eq_some.2 ⟨r, hr, ht, rfl⟩⟩)
      · exact .inr (Option.isSome_iff_exists.2 ⟨r, h.row?_eq_some.2 ⟨hr, hid⟩⟩)
    exact .inr ⟨⟨r, hr, hpart⟩, if_pos hfound⟩
  · -- the store looks the token up in the index, which is in step with the rows
    have ht : s.findToken e.token = none :=
      h.findToken_eq_none.2 fun r hr ht => htaken ⟨r, hr, .inl ht⟩
    have hid : s.row? e.id = none :=
      row?_eq_none.2 fun r hr hid => htaken ⟨r, hr, .inr hid⟩
    exact .inl ⟨ht, hid, create_eq h ht hid⟩

/-- **A new entry is refused** if its token or its id is taken. -/
theorem Sound.create_eq_error (h : s.Sound) :
    (s.create e).1 = .error (.duplicate e.token) ↔
      ∃ r ∈ s.rows, r.token = e.token ∨ r.id = e.id := by
  rcases h.create_cases e with ⟨ht, hid, heq⟩ | ⟨htaken, heq⟩
  · rw [heq]
    refine ⟨nofun, fun ⟨r, hr, hpart⟩ => ?_⟩
    exact absurd hpart (not_or.2 ⟨h.findToken_eq_none.1 ht r hr, row?_eq_none.1 hid r hr⟩)
  · rw [heq]
    exact ⟨fun _ => htaken, fun _ => rfl⟩

/-- An update is carried out, or else no row has its id. -/
theorem Sound.update_cases (h : s.Sound) (source : Entry) (fields : List Field) :
    (∃ r ∈ s.rows, r.id = source.id ∧ s.update source fields
        = (.ok (), { s with rows := s.rows.map (rewrite source fields) })) ∨
      ((∀ r ∈ s.rows, r.id ≠ source.id) ∧
        s.update source fields = (.error (.missing source.id), s)) := by
  cases hr : s.row? source.id with
  | some r =>
      obtain ⟨hm, hid⟩ := h.row?_eq_some.1 hr
      exact .inl ⟨r, hm, hid, update_eq h hm hid⟩
  | none => exact .inr ⟨row?_eq_none.1 hr, by simp [Indexed.update, hr]⟩

/-- An update rewrites the rows of its id, of which there may be none. -/
theorem update_rows (s : Indexed) (source : Entry) (fields : List Field) :
    (s.update source fields).2 = { s with rows := s.rows.map (rewrite source fields) } := by
  simp only [update]
  split
  · rfl
  · rename_i hno
    have hnone : s.row? source.id = none := Option.not_isSome_iff_eq_none.1 hno
    have hrows : s.rows.map (rewrite source fields) = s.rows := by
      refine (List.map_congr_left fun r hr => ?_).trans (List.map_id _)
      exact if_neg (Sound.row?_eq_none.1 hnone r hr)
    rw [hrows]

/-- An erasure takes out the row of its id, if there is one. -/
theorem Sound.erase_cases (h : s.Sound) (id : Uuid) :
    (∃ r ∈ s.rows, r.id = id ∧
        s.erase id = (.ok (), ⟨s.rows.filter (·.id != r.id), s.index.filter (·.1 != r.token)⟩)) ∨
      ((∀ r ∈ s.rows, r.id ≠ id) ∧ s.erase id = (.error (.missing id), s)) := by
  cases hr : s.row? id with
  | some r =>
      obtain ⟨hm, rfl⟩ := h.row?_eq_some.1 hr
      exact .inl ⟨r, hm, rfl, erase_eq h hm⟩
  | none => exact .inr ⟨row?_eq_none.1 hr, by simp only [Indexed.erase, hr]⟩

/-- **Every call leaves a sound store sound.** -/
theorem Sound.answer (h : s.Sound) (c : Call) : (s.answer c).2.Sound := by
  cases c with
  | create e =>
      rcases h.create_cases e with ⟨ht, hid, heq⟩ | ⟨-, heq⟩
      · rw [Indexed.answer, heq]
        exact h.create ht hid
      · rwa [Indexed.answer, heq]
  | update source fields =>
      rw [Indexed.answer, update_rows]
      exact h.update source fields
  | erase id =>
      rcases h.erase_cases id with ⟨r, hr, -, heq⟩ | ⟨-, heq⟩
      · rw [Indexed.answer, heq]
        exact h.erase hr
      · rwa [Indexed.answer, heq]
  | findId | findToken | list | count => exact h

/-- A row stays under its id and keeps its token, unless it is erased. -/
theorem Sound.stays (h : s.Sound) (he : e ∈ s.rows) {c : Call} (hc : c ≠ .erase e.id) :
    ∃ e' ∈ (s.answer c).2.rows, e'.id = e.id ∧ e'.token = e.token := by
  cases c with
  | create source =>
      rcases h.create_cases source with ⟨-, -, heq⟩ | ⟨-, heq⟩
      · rw [Indexed.answer, heq]
        exact ⟨e, (insertRow_perm source s.rows).mem_iff.2 (.tail _ he), rfl, rfl⟩
      · rw [Indexed.answer, heq]
        exact ⟨e, he, rfl, rfl⟩
  | update source fields =>
      rw [Indexed.answer, update_rows]
      exact ⟨_, List.mem_map_of_mem he, id_rewrite source fields e, token_rewrite source fields e⟩
  | erase id =>
      rcases h.erase_cases id with ⟨r, -, rfl, heq⟩ | ⟨-, heq⟩
      · have hne : e.id ≠ r.id := fun hid => hc (by rw [hid])
        rw [Indexed.answer, heq]
        exact ⟨e, List.mem_filter.2 ⟨he, bne_iff_ne.2 hne⟩, rfl, rfl⟩
      · rw [Indexed.answer, heq]
        exact ⟨e, he, rfl, rfl⟩
  | findId | findToken | list | count => exact ⟨e, he, rfl, rfl⟩

/-- **A token that is held becomes free** when its row is erased, and by no other call. -/
theorem Sound.free_iff (h : s.Sound) (he : e ∈ s.rows) (c : Call) :
    (s.answer c).2.findToken e.token = none ↔ c = .erase e.id := by
  constructor
  · intro hfree
    by_contra hc
    obtain ⟨e', he', -, ht⟩ := h.stays he hc
    exact (h.answer c).findToken_eq_none.1 hfree e' he' ht
  · rintro rfl
    rw [Indexed.answer, erase_eq h he, findToken_erase h he, if_pos rfl]

/-- **A token that is free is taken** by the creation of a row under an id that is free, and by no
other call. -/
theorem Sound.taken_iff (h : s.Sound) (hfree : s.findToken token = none) (c : Call) :
    (s.answer c).2.findToken token = some e ↔
      c = .create e ∧ e.token = token ∧ s.row? e.id = none := by
  constructor
  · intro hf
    cases c with
    | create source =>
        rcases h.create_cases source with ⟨ht, hid, heq⟩ | ⟨-, heq⟩
        · rw [Indexed.answer, heq, findToken_create h ht hid] at hf
          split at hf
          · rename_i htoken
            obtain rfl := Option.some.inj hf
            exact ⟨rfl, htoken.symm, hid⟩
          · rw [hfree] at hf
            cases hf
        · rw [Indexed.answer, heq, hfree] at hf
          cases hf
    | update source fields =>
        rw [Indexed.answer, update_rows, findToken_update h, hfree] at hf
        cases hf
    | erase id =>
        rcases h.erase_cases id with ⟨r, hr, -, heq⟩ | ⟨-, heq⟩
        · rw [Indexed.answer, heq, findToken_erase h hr, hfree] at hf
          split at hf <;> cases hf
        · rw [Indexed.answer, heq, hfree] at hf
          cases hf
    | findId | findToken | list | count =>
        rw [Indexed.answer, hfree] at hf
        cases hf
  · rintro ⟨rfl, rfl, hid⟩
    rw [Indexed.answer, create_eq h hfree hid, findToken_create h hfree hid, if_pos rfl]

/-! ### Calls one after another -/

/-- The store after calls, one after another. -/
def after (s : Indexed) (calls : List Call) : Indexed :=
  calls.foldl (fun s c => (s.answer c).2) s

theorem Sound.after (h : s.Sound) (calls : List Call) : (s.after calls).Sound := by
  induction calls generalizing s with
  | nil => exact h
  | cons c calls ih => exact ih (h.answer c)

/-- A row stays under its id and keeps its token, as long as it is not erased. -/
theorem Sound.stays_after (h : s.Sound) (he : e ∈ s.rows) {calls : List Call}
    (hc : .erase e.id ∉ calls) :
    ∃ e' ∈ (s.after calls).rows, e'.id = e.id ∧ e'.token = e.token := by
  induction calls generalizing s e with
  | nil => exact ⟨e, he, rfl, rfl⟩
  | cons c calls ih =>
      obtain ⟨hne, hrest⟩ := List.ne_and_not_mem_of_not_mem_cons hc
      obtain ⟨e₁, he₁, hid, ht⟩ := h.stays he (Ne.symm hne)
      obtain ⟨e', he', hid', ht'⟩ := ih (h.answer c) he₁ (hid ▸ hrest)
      exact ⟨e', he', hid'.trans hid, ht'.trans ht⟩

/-- **The index is in step with the rows**, whatever calls were made.  Each row is found under its
own id and stands in the place that the id gives it; no two rows have one token; and the index
holds the token and the id of every row and nothing else.  So what is found under a token is the
one row that has it, of those that a list of all entries gives; a new entry is refused exactly if
that list has its token or its id already, and is taken otherwise.  A token that is held stays with
the id of its row until that row is erased, which frees it at once; and a token that is free stays
so until an entry is created with it. -/
theorem index_in_step (calls : List Call) :
    let s := empty.after calls
    (s.rows.Pairwise fun a b => a.id < b.id) ∧
    (∀ id e, (s.answer (.findId id)).1 = .ok (some e) ↔ e ∈ s.rows ∧ e.id = id) ∧
    (s.rows.map (·.token)).Nodup ∧
    ((s.index.map (·.1)).Nodup ∧
      ∀ token id, (token, id) ∈ s.index ↔ ∃ e ∈ s.rows, e.token = token ∧ e.id = id) ∧
    (s.answer (.list { filter := .all })).1 = .ok s.rows ∧
    (∀ token, (∀ e, (s.answer (.findToken token)).1 = .ok (some e) ↔
        e ∈ s.rows ∧ e.token = token) ∧
      ((s.answer (.findToken token)).1 = .ok none ↔ ∀ e ∈ s.rows, e.token ≠ token)) ∧
    (∀ e, ((s.answer (.create e)).1 = .error (.duplicate e.token) ↔
        ∃ r ∈ s.rows, r.token = e.token ∨ r.id = e.id) ∧
      ((s.answer (.create e)).1 = .ok () ↔ ∀ r ∈ s.rows, r.token ≠ e.token ∧ r.id ≠ e.id)) ∧
    (∀ e ∈ s.rows,
      (∀ c, (s.answer c).2.findToken e.token = none ↔ c = .erase e.id) ∧
      ∀ more, .erase e.id ∉ more →
        ∃ e', (s.after more).findToken e.token = some e' ∧ e'.id = e.id) ∧
    ∀ token, s.findToken token = none → ∀ c e,
      (s.answer c).2.findToken token = some e ↔
        c = .create e ∧ e.token = token ∧ s.row? e.id = none := by
  intro s
  have h : s.Sound := sound_empty.after calls
  refine ⟨h.ascending, fun id e => ?_, h.tokens, ⟨h.keys, h.index⟩, ?_, fun token =>
    ⟨fun e => ?_, ?_⟩, fun e => ⟨h.create_eq_error, ?_⟩, fun e he =>
    ⟨h.free_iff he, fun more hmore => ?_⟩, fun token hfree c e => h.taken_iff hfree c⟩
  · rw [← h.row?_eq_some]
    exact ⟨Except.ok.inj, congrArg Except.ok⟩
  · exact congrArg Except.ok (Filter.filter_all s.rows)
  · rw [← h.findToken_eq_some]
    exact ⟨Except.ok.inj, congrArg Except.ok⟩
  · rw [← h.findToken_eq_none]
    exact ⟨Except.ok.inj, congrArg Except.ok⟩
  · rcases h.create_cases e with ⟨ht, hid, heq⟩ | ⟨⟨r, hr, htaken⟩, heq⟩
    · rw [Indexed.answer, heq]
      exact ⟨fun _ r hr => ⟨h.findToken_eq_none.1 ht r hr, Sound.row?_eq_none.1 hid r hr⟩,
        fun _ => rfl⟩
    · rw [Indexed.answer, heq]
      exact ⟨nofun, fun hno => absurd htaken (not_or.2 (hno r hr))⟩
  · obtain ⟨e', he', hid, ht⟩ := h.stays_after he hmore
    exact ⟨e', (h.after more).findToken_eq_some.2 ⟨he', ht⟩, hid⟩

end Strongbox.Store.Indexed
