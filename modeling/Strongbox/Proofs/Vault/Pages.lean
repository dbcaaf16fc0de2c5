import Strongbox.Proofs.Program.Log
import Strongbox.Proofs.Scene
import Strongbox.Vault.Progress

/-!
# Vault — the pages of a run

Work page by page reads one page after another, and the log of its run tells which: each page with
the store that listed it, the number of its entries, and the number of entries written before the
next page was read.

* `pages`: the pages in a log.
* `Follow`: pages that follow one another, each where the one before has left the list.
* `Walks.eachPage`: the pages of `eachPage`, for any work that finishes a page and moves the offset
  past what it leaves in the list.  There is one more of them than the list fills, or fewer where
  the work halts.
-/

namespace Strongbox

/-! ### Pages in a log -/

/-- The query that the store is asked to list. -/
def Request.query? : Request → Option Query
  | store (.list q) => some q
  | _ => none

namespace Exchange

variable {σ : Type}

/-- The entries that the store lists. -/
def entries (x : Exchange σ) : List Entry :=
  match x with
  | ⟨.store (.list _), .ok es, _⟩ => es
  | _ => []

/-- The store rewrites an entry or takes one out. -/
def writes (x : Exchange σ) : Bool :=
  match x with
  | ⟨.store (.update _ _), .ok _, _⟩ | ⟨.store (.erase _), .ok _, _⟩ => true
  | _ => false

end Exchange

/-- A page that was read. -/
structure Page where
  /-- What was asked for. -/
  query : Query
  /-- The store that listed it. -/
  store : Backing
  /-- The number of its entries. -/
  fetched : Nat
  /-- The number of entries written before the next page was read. -/
  written : Nat

/-- The pages after `n` more entries were written. -/
def write (n : Nat) : List Page → List Page
  | [] => []
  | p :: ps => { p with written := p.written + n } :: ps

/-- The pages in a log, the latest first. -/
def pages : List (Exchange Scene) → List Page
  | [] => []
  | x :: log =>
    match x.request.query? with
    | some query => ⟨query, x.after.store, x.entries.length, 0⟩ :: pages log
    | none => write (if x.writes then 1 else 0) (pages log)

@[simp] theorem write_zero (ps : List Page) : write 0 ps = ps := by
  cases ps <;> rfl

theorem write_write (m n : Nat) (ps : List Page) : write m (write n ps) = write (n + m) ps := by
  cases ps with
  | nil => rfl
  | cons p ps => simp only [write, Nat.add_assoc]

/-- Exchanges that list nothing read no page. -/
theorem pages_append {new log : List (Exchange Scene)} (h : ∀ x ∈ new, x.request.query? = none) :
    pages (new ++ log) = write (new.countP Exchange.writes) (pages log) := by
  induction new with
  | nil => simp
  | cons x new ih =>
      obtain ⟨hx, hnew⟩ := List.forall_mem_cons.1 h
      rw [List.cons_append, pages, hx, List.countP_cons]
      simp only [ih hnew, write_write]

/-! ### Pages that follow one another -/

/-- The pages begin at an offset, and each of the others where the one before has left the list; if
what is written leaves the list, no more is written than was fetched. -/
def Follow (filter : Filter) (size : Nat) (leaves : Bool) : (offset : Nat) → List Page → Prop
  | _, [] => True
  | offset, p :: ps =>
    p.query = .page filter offset size ∧ (leaves → p.written ≤ p.fetched) ∧
      Follow filter size leaves (offset + (p.fetched - if leaves then p.written else 0)) ps

/-! ### Work page by page -/

/-- One round of page-wise work, from a scene with a number of entries before the offset and the
entries `todo` after it: a page of them is read, and the work on it goes through, or it fails, which
only happens where `halts` holds.  What it takes out of the list moves the others forward. -/
structure Walks (m : Manner) (filter : Filter) (size : Nat) (leaves : Bool)
    (work : Nat → List Entry → Program Progress) (I : Scene → Nat → List Entry → Prop)
    (halts : Prop) : Prop where
  quiet : ¬ m.cancelling
  looks : ∀ {s offset todo}, I s offset todo → s.caller.raised = false
  reads : ∀ {s offset todo s'} {x : (Store.Call.list (.page filter offset size)).Reply},
    I s offset todo → m.answers (.store (.list (.page filter offset size))) s x s' →
      x = .ok (todo.take size) ∧ s' = s
  works : ∀ {s s' : Logged Scene} {offset n todo p}, I s.state offset todo →
    (work n (todo.take size)).Ends (logged m.answers) s p s' →
      (∃ new, s'.log = new ++ s.log ∧ (∀ x ∈ new, x.request.query? = none) ∧
        (leaves → p.finished = n + new.countP Exchange.writes)) ∧
      (leaves → p.finished ≤ n + (todo.take size).length) ∧
      ((p.failure = none ∧
          I s'.state (offset + ((todo.take size).length - if leaves then p.finished - n else 0))
            (todo.drop size)) ∨
        p.failure.isSome = true ∧ halts)

variable {m : Manner} {filter : Filter} {size : Nat} {leaves : Bool}
  {work : Nat → List Entry → Program Progress} {I : Scene → Nat → List Entry → Prop} {halts : Prop}

/-- A page is read, and the log tells so. -/
theorem Walks.page (hw : Walks m filter size leaves work I halts) {s s' : Logged Scene}
    {offset n : Nat} {todo : List Entry} (hi : I s.state offset todo)
    {x : Except VaultError (List Entry)}
    (h : Job.Ends (logged m.answers) (do
      Job.checkpoint n
      Job.call (.list (.page filter offset size))) s x s') :
    x = .ok (todo.take size) ∧ s'.state = s.state ∧
      pages s'.log = ⟨.page filter offset size, s.state.store, (todo.take size).length, 0⟩
        :: pages s.log := by
  obtain ⟨c, t, ⟨hc, hlog⟩, h₁⟩ := Job.ends_checkpoint_bind.1 h
  obtain ⟨rfl, ht⟩ := Manner.eq_of_look hw.quiet hc
  simp only [Cancellation.check_of_not_raised (hw.looks hi)] at h₁
  obtain ⟨y, ⟨hy, hlog'⟩, rfl⟩ := Job.ends_call.1 h₁
  rw [ht] at hy
  obtain ⟨rfl, hs'⟩ := hw.reads hi hy
  refine ⟨rfl, hs', ?_⟩
  have hlook : pages t.log = pages s.log := by
    rw [hlog]
    exact write_zero _
  rw [hlog', pages, hlook, hs']
  rfl

/-- The work on a page leaves what it wrote to the page, and the log tells how much. -/
theorem Walks.worked (hw : Walks m filter size leaves work I halts) {s s' : Logged Scene}
    {offset n : Nat} {todo : List Entry} {store : Backing} {before : List Page} {p : Progress}
    (hi : I s.state offset todo)
    (hread : pages s.log = ⟨.page filter offset size, store, (todo.take size).length, 0⟩ :: before)
    (h : (work n (todo.take size)).Ends (logged m.answers) s p s') :
    ∃ written, pages s'.log
        = ⟨.page filter offset size, store, (todo.take size).length, written⟩ :: before ∧
      (leaves → written ≤ (todo.take size).length) ∧
      ((p.failure = none ∧ I s'.state
          (offset + ((todo.take size).length - if leaves then written else 0)) (todo.drop size)) ∨
        p.failure.isSome = true ∧ halts) ∧
      (if leaves then written else 0) = if leaves then p.finished - n else 0 := by
  obtain ⟨⟨new, hlog, hnone, hcount⟩, hwithin, hend⟩ := hw.works hi h
  have hgone : (if leaves then new.countP Exchange.writes else 0)
      = if leaves then p.finished - n else 0 := by
    split
    · rename_i hl
      have := hcount hl
      omega
    · rfl
  refine ⟨new.countP Exchange.writes, ?_, fun hl => ?_, by rwa [hgone], hgone⟩
  · rw [hlog, pages_append hnone, hread, write, Nat.zero_add]
  · have := hcount hl
    have := hwithin hl
    omega

/-- **Work page by page reads one page more than the list fills**, or fewer where it halts, and each
of them begins where the one before has left the list. -/
theorem Walks.eachPage (hw : Walks m filter size leaves work I halts) (hsize : 0 < size)
    {rounds offset n : Nat} {todo : List Entry} {s s' : Logged Scene} {p : Progress}
    (hr : todo.length < rounds) (hi : I s.state offset todo)
    (h : (Strongbox.eachPage filter size leaves work rounds offset n).Ends (logged m.answers)
      s p s') :
    ∃ met, pages s'.log = met.reverse ++ pages s.log ∧ met.length ≤ todo.length / size + 1 ∧
      (¬ halts → met.length = todo.length / size + 1) ∧ Follow filter size leaves offset met ∧
      ∀ p ∈ met, ∃ s todo, I s p.query.offset todo ∧ p.store = s.store := by
  -- a page that is full takes its size away from what is left to read
  induction rounds generalizing offset n todo s with
  | zero => omega
  | succ rounds ih =>
      obtain ⟨x, t, hx, hp⟩ := Program.ends_bind.1 h
      obtain ⟨rfl, ht, hread⟩ := hw.page hi (Job.ends_def.1 hx)
      obtain ⟨q, u, hq, hp⟩ := Program.ends_bind.1 hp
      obtain ⟨written, hpages, hwritten, hend, hgone⟩ := hw.worked (ht ▸ hi) hread hq
      let page : Page := ⟨.page filter offset size, s.state.store, (todo.take size).length, written⟩
      have hscene : ∃ s todo, I s page.query.offset todo ∧ page.store = s.store :=
        ⟨s.state, todo, hi, rfl⟩
      have hlen : (todo.take size).length = min size todo.length := List.length_take
      have hfirst : Follow filter size leaves offset [page] := ⟨rfl, hwritten, trivial⟩
      rcases hend with ⟨hgo, hi'⟩ | ⟨hhalt, hhalts⟩
      · by_cases hlast : (todo.take size).length < size
        · rw [if_pos (.inr hlast)] at hp
          obtain ⟨rfl, rfl⟩ := hp
          have hnumber : [page].length = todo.length / size + 1 := by
            rw [Nat.div_eq_of_lt (by omega)]
            rfl
          exact ⟨[page], hpages, Nat.le_of_eq hnumber, fun _ => hnumber, hfirst,
            List.forall_mem_singleton.2 hscene⟩
        · rw [if_neg (by simpa [hgo] using hlast), ← hgone] at hp
          have hdrop : (todo.drop size).length = todo.length - size := List.length_drop
          have hnumber : todo.length / size = (todo.drop size).length / size + 1 := by
            rw [hdrop, Nat.div_eq_sub_div hsize (by omega : size ≤ todo.length)]
          obtain ⟨met, hmet, hmetlen, hall, hfollow, hscenes⟩ := ih (by omega) hi' hp
          refine ⟨page :: met, ?_, ?_, fun hno => ?_, ⟨rfl, hwritten, hfollow⟩,
            List.forall_mem_cons.2 ⟨hscene, hscenes⟩⟩
          · rw [hmet, hpages, List.reverse_cons, List.append_assoc]
            rfl
          · rw [List.length_cons, hnumber]
            exact Nat.succ_le_succ hmetlen
          · rw [List.length_cons, hall hno, hnumber]
      · -- the work has failed, and no other page is read
        rw [if_pos (.inl hhalt)] at hp
        obtain ⟨rfl, rfl⟩ := hp
        exact ⟨[page], hpages, Nat.le_add_left _ _, absurd hhalts, hfirst,
          List.forall_mem_singleton.2 hscene⟩

end Strongbox
