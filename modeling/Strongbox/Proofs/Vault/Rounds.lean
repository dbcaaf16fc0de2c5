import Strongbox.Proofs.Outside
import Strongbox.Proofs.Scene
import Strongbox.Proofs.Store.Removal
import Strongbox.Proofs.Store.Veils

/-!
# Vault — the rounds of a soft purge

A soft purge reads page after page and is given a bound on the number of its rounds, one more than
the store has records.  The bound is never met: every entry that is hidden is one active record
less, and the rest of a page moves the offset on, so a full page leaves fewer active records after
the offset.  This holds of every store whose records are apart, whether they read or not.

* `turn_ends`, `eachEntry_ends`, `page_ends`: what comes of one entry, of a page of entries, and of
  reading a page.
* `run_softPages`: all bounds that are high enough come to the same.
-/

namespace Strongbox.Vault

variable {ε : Type} {o : Outside ε} {s s' : Backing × ε} {now : Instant}

/-- The pages of a soft purge. -/
def softPages (size : Nat) (now : Instant) (rounds offset n : Nat) : Program Progress :=
  eachPage .active size true
    (fun n page => eachEntry (purgeEntry .soft now) n (page.filter (·.isExpired now)))
    rounds offset n

/-- An entry at its turn is hidden, or else the work stops and has changed nothing. -/
theorem turn_ends {n : Nat} {e : Entry} {r : Except VaultError Bool}
    (h : Job.Ends o.answers (do Job.checkpoint n; purgeEntry .soft now e) s r s') :
    (r = .ok true ∧ (s.1.answer (.update (e.hide now) [.hidden, .updated])).1 = .ok () ∧
        s'.1 = (s.1.answer (.update (e.hide now) [.hidden, .updated])).2) ∨
      (∃ error, r = .error error) ∧ s'.1 = s.1 := by
  rcases Outside.checkpoint_bind h with ⟨w, h₁⟩ | hstop
  · obtain ⟨y, u, hcall, h₂⟩ := Job.ends_call_bind.1 h₁
    obtain ⟨hy, rfl⟩ := Outside.answers_store hcall
    cases y with
    | ok _ =>
        obtain ⟨rfl, rfl⟩ := Job.ends_pure.1 h₂
        exact .inl ⟨rfl, hy.symm, rfl⟩
    | error error =>
        obtain ⟨rfl, rfl⟩ := h₂
        exact .inr ⟨⟨_, rfl⟩, Backing.answer_error hy.symm⟩
  · exact .inr hstop

/-- **Work that goes through hides every entry**, and so there are as many active records less. -/
theorem eachEntry_ends {es : List Entry} (hb : s.1.Tidy) (hes : ∀ e ∈ es, s.1.Shows e)
    (hnd : (es.map (·.id)).Nodup) {n : Nat} {p : Progress}
    (h : (eachEntry (purgeEntry .soft now) n es).Ends o.answers s p s') :
    s'.1.Tidy ∧
      (p.failure = none → p.finished = n + es.length ∧ s'.1.shown + es.length = s.1.shown) := by
  induction es generalizing n s with
  | nil =>
      obtain ⟨rfl, rfl⟩ := h
      exact ⟨hb, fun _ => ⟨rfl, rfl⟩⟩
  | cons e es ih =>
      obtain ⟨he, hes⟩ := List.forall_mem_cons.1 hes
      rw [List.map_cons, List.nodup_cons] at hnd
      obtain ⟨r, t, hturn, hp⟩ := Program.ends_bind.1 h
      rcases turn_ends (Job.ends_def.1 hturn) with ⟨rfl, hok, ht⟩ | ⟨⟨error, rfl⟩, ht⟩
      · -- the others are still shown: their ids are not that of the entry hidden
        have hstay : ∀ a ∈ es, t.1.Shows a := fun a ha => by
          rw [ht]
          exact (hes a ha).update fun hid => hnd.1 (List.mem_map.2 ⟨a, ha, hid⟩)
        have hb' : t.1.Tidy := by
          rw [ht]
          exact hb.update _ _
        obtain ⟨hfinal, hcount⟩ := ih hb' hstay hnd.2 hp
        refine ⟨hfinal, fun hf => ?_⟩
        obtain ⟨hfin, hshown⟩ := hcount hf
        have hhide := he.hide hb.apart (e.hide now) rfl rfl hok
        rw [← ht] at hhide
        simp only [if_true] at hfin
        rw [List.length_cons]
        omega
      · obtain ⟨rfl, rfl⟩ := hp
        rw [ht]
        exact ⟨hb, nofun⟩

/-- A page that is read holds active entries whose ids are apart, and no more of them than active
records after the offset. -/
theorem page_ends (hb : s.1.Tidy) {offset size n : Nat} {page : List Entry}
    (h : Job.Ends o.answers (do
      Job.checkpoint n
      Job.call (.list (Query.page .active offset size))) s (.ok page) s') :
    s'.1 = s.1 ∧ (∀ e ∈ page, s.1.Shows e) ∧ (page.map (·.id)).Nodup ∧
      page.length ≤ s.1.shown - offset := by
  rcases Outside.checkpoint_bind h with ⟨w, h₁⟩ | ⟨⟨error, he⟩, -⟩
  · obtain ⟨y, hcall, hy⟩ := Job.ends_call.1 h₁
    obtain ⟨rfl, rfl⟩ := Outside.answers_store hcall
    have hlist : (s.1.answer (.list (Query.page .active offset size))).1 = .ok page :=
      Job.eq_ok_of_mapError hy.symm
    obtain ⟨hnd, hlen⟩ := Backing.page_bounds hb hlist
    exact ⟨Backing.store_list _ _, fun e he => Backing.exists_of_mem_list hb.small hlist he, hnd,
      hlen⟩
  · cases he

/-- **More rounds than active records after the offset** come to the same, however many. -/
theorem run_softPages {size rounds rounds' offset n : Nat} (hsize : 0 < size) (hb : s.1.Tidy)
    (hr : s.1.shown - offset < rounds) (hle : rounds ≤ rounds') :
    (softPages size now rounds offset n).run o.beside s
      = (softPages size now rounds' offset n).run o.beside s := by
  induction rounds generalizing rounds' offset n s with
  | zero => omega
  | succ rounds ih =>
      obtain ⟨rounds', rfl⟩ : ∃ k, rounds' = k + 1 := ⟨rounds' - 1, by omega⟩
      simp only [softPages, eachPage, Program.bind_eq, Program.run_bind]
      have hread := o.ends_run (ExceptT.run do
        Job.checkpoint n
        Job.call (.list (Query.page .active offset size))) s
      generalize Program.run o.beside (ExceptT.run do
        Job.checkpoint n
        Job.call (.list (Query.page .active offset size))) s = q at hread ⊢
      obtain ⟨x, t⟩ := q
      dsimp only at hread ⊢
      cases x with
      | error error => rfl
      | ok page =>
          obtain ⟨ht, hshows, hnd, hlen⟩ := page_ends hb (Job.ends_def.1 hread)
          rw [← ht] at hb hshows hr hlen
          simp only [Program.run_bind]
          have hwork := o.ends_run (eachEntry (purgeEntry .soft now) n
            (page.filter (·.isExpired now))) t
          generalize Program.run o.beside (eachEntry (purgeEntry .soft now) n
            (page.filter (·.isExpired now))) t = q at hwork ⊢
          obtain ⟨p, u⟩ := q
          dsimp only at hwork ⊢
          obtain ⟨hb', hcount⟩ := eachEntry_ends hb
            (fun e he => hshows e (List.mem_filter.1 he).1)
            ((List.filter_sublist.map _).nodup hnd) hwork
          by_cases hlast : p.failure.isSome ∨ page.length < size
          · simp only [if_pos hlast]
          · simp only [if_neg hlast, if_true]
            obtain ⟨hgo, hfull⟩ := not_or.1 hlast
            obtain ⟨hfin, hshown⟩ := hcount (Option.not_isSome_iff_eq_none.1 hgo)
            -- what was hidden left the list, and the rest of the page moves the offset
            have hgone := List.length_filter_le (·.isExpired now) page
            exact ih hb' (by omega) (by omega)

end Strongbox.Vault
