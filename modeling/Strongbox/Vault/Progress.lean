import Strongbox.Program

/-!
# Vault — progress

Work on many entries counts the entries it has finished and stops at the first failure.  Before
each entry and before each page it looks whether the caller has cancelled.

* `eachEntry`: one entry after another.
* `eachPage`: one page of the store's list after another.  Where finished entries leave the list,
  the next page starts that much earlier.
* `Progress.result`: the number of finished entries, or the failure, which then tells it.
-/

namespace Strongbox

/-- The number of finished entries, and what stopped the work, if anything did. -/
structure Progress where
  finished : Nat
  failure : Option VaultError
  deriving DecidableEq

namespace Progress

/-- The number of finished entries, or the failure that tells it. -/
def result (p : Progress) : Except VaultError Nat :=
  match p.failure with
  | some e => .error (e.withProgress p.finished)
  | none => .ok p.finished

end Progress

/-- The work on entries one after another, `n` being finished before; `act` tells whether an entry
counts. -/
def eachEntry (act : Entry → Job Bool) : (n : Nat) → List Entry → Program Progress
  | n, [] => .done ⟨n, none⟩
  | n, e :: es => do
    match ← (do Job.checkpoint n; act e : Job Bool).run with
    | .error error => return ⟨n, some error⟩
    | .ok counts => eachEntry act (if counts then n + 1 else n) es

/-- The work on pages of at most `size` admitted entries from an offset on, `n` entries being
finished before, until a page is not full; `leaves` if finished entries leave the list.  There are
at most `rounds` pages. -/
def eachPage (filter : Filter) (size : Nat) (leaves : Bool)
    (work : Nat → List Entry → Program Progress) :
    (rounds offset n : Nat) → Program Progress
  | 0, _, n => .done ⟨n, none⟩
  | rounds + 1, offset, n => do
    let page ← (do
      Job.checkpoint n
      Job.call (.list (Query.page filter offset size)) : Job (List Entry)).run
    match page with
    | .error error => return ⟨n, some error⟩
    | .ok page =>
      let p ← work n page
      if p.failure.isSome ∨ page.length < size then return p
      else
        let gone := if leaves then p.finished - n else 0
        eachPage filter size leaves work rounds (offset + (page.length - gone)) p.finished

end Strongbox
