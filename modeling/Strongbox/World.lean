import Strongbox.Program
import Strongbox.Store.Indexed
import Strongbox.Store.Table
import Strongbox.Token.Generator

/-!
# World

Surroundings for programs that are run one after another: a store of either kind, failures that
were arranged for some of its calls, cancellations by name, a supply of random bytes, a clock that
moves on whenever it is read, and sources of ids and tokens.

* `World.answer`: the reply to a question, and the world after it.
-/

namespace Strongbox

/-- A store of either kind. -/
inductive Backing where
  | indexed (s : Store.Indexed)
  | table (t : Store.Table)

namespace Backing

/-- The answer to a call, and the store after it. -/
def answer (b : Backing) (c : Store.Call) : c.Reply × Backing :=
  match b with
  | indexed s => let (r, s) := s.answer c; (r, indexed s)
  | table t => let (r, t) := t.answer c; (r, table t)

/-- The number of entries or rows. -/
def size : Backing → Nat
  | indexed s => s.rows.length
  | table t => t.rows.length

end Backing

namespace Store

/-- The kind of a call. -/
inductive CallKind where
  | create
  | update
  | erase
  | findId
  | findToken
  | list
  | count
  deriving DecidableEq

/-- The kind of a call. -/
def Call.kind : Call → CallKind
  | create _ => .create
  | update _ _ => .update
  | erase _ => .erase
  | findId _ => .findId
  | findToken _ => .findToken
  | list _ => .list
  | count _ => .count

end Store

/-- What an arranged fault does to the calls of its kind. -/
inductive FaultEffect where
  /-- Calls fail without reaching the store. -/
  | fail (error : StoreError)
  /-- A cancellation is cancelled after a call has succeeded. -/
  | cancel (handle reason : String)

/-- A fault for calls of one kind: a number of calls goes through before it takes effect. -/
structure Fault where
  kind : Store.CallKind
  after : Nat
  effect : FaultEffect
  seen : Nat := 0

/-- Where tokens come from. -/
inductive TokenSource where
  | generated (g : Token.Generator)
  | listed (tokens : Array String) (next : Nat)

/-- Surroundings for programs. -/
structure World where
  backing : Backing
  faults : List Fault := []
  handles : List (String × Cancellation) := []
  supply : Supply
  clock : Instant
  nextId : Nat
  tokens : TokenSource

namespace World

/-! ### Cancellations -/

/-- The cancellation of a name; it is created idle when it is first used. -/
def handle (w : World) (name : String) : Cancellation :=
  ((w.handles.find? (·.1 == name)).map (·.2)).getD .idle

/-- The world with the cancellation of a name changed. -/
def setHandle (w : World) (name : String) (c : Cancellation) : World :=
  { w with handles := (name, c) :: w.handles.filter (·.1 != name) }

/-! ### Calls to the store -/

/-- The error of the first fault that fails a call of a kind now. -/
def failure? (w : World) (kind : Store.CallKind) : Option StoreError :=
  w.faults.findSome? fun f =>
    match f.effect with
    | .fail error => if f.kind = kind ∧ f.after ≤ f.seen then some error else none
    | .cancel _ _ => none

/-- The world after the faults that fail calls have seen one more of a kind. -/
def countCall (w : World) (kind : Store.CallKind) : World :=
  { w with faults := w.faults.map fun f =>
      match f.effect with
      | .fail _ => if f.kind = kind then { f with seen := f.seen + 1 } else f
      | .cancel _ _ => f }

/-- The world after one fault has seen a call of a kind succeed. -/
def cancelBy (kind : Store.CallKind) (w : World) (f : Fault) : World :=
  match f.effect with
  | .cancel name reason =>
    if f.kind = kind ∧ f.seen + 1 = f.after then
      w.setHandle name ((w.handle name).cancelWith reason)
    else w
  | .fail _ => w

/-- The world after the faults that cancel have seen a call of a kind succeed. -/
def countSuccess (w : World) (kind : Store.CallKind) : World :=
  let w := w.faults.foldl (cancelBy kind) w
  { w with faults := w.faults.map fun f =>
      match f.effect with
      | .cancel _ _ => if f.kind = kind then { f with seen := f.seen + 1 } else f
      | .fail _ => f }

/-- The answer to a call, and the world after it. -/
def call (w : World) (c : Store.Call) : c.Reply × World :=
  match w.failure? c.kind with
  | some error => (.error error, w.countCall c.kind)
  | none =>
    let w := w.countCall c.kind
    let (r, backing) := w.backing.answer c
    let w := { w with backing }
    match r with
    | .ok a => (.ok a, w.countSuccess c.kind)
    | .error e => (.error e, w)

/-! ### The other questions -/

/-- The instant one second later. -/
def later (t : Instant) : Instant :=
  .ofSecond (t.second + 1)

/-- The milliseconds from 1970 to an instant, none before it. -/
def millis (t : Instant) : Nat :=
  (t.second * 1000 + t.nano / 1000000).toNat

/-- A token of a given length, and the world after it. -/
def drawToken (w : World) (length : Nat) : Except LengthError String × World :=
  match w.tokens with
  | .generated g =>
    match g.make length (millis w.clock) w.supply with
    | .ok (token, supply) => (.ok token, { w with supply, clock := later w.clock })
    | .error e => (.error e, w)
  | .listed tokens next =>
    (.ok (tokens.getD (next % tokens.size) ""), { w with tokens := .listed tokens (next + 1) })

/-- The reply to a question of a program with the cancellation of a name, and the world after
it. -/
def answer (name : String) (r : Request) (w : World) : r.Reply × World :=
  match r with
  | .store c => w.call c
  | .cancellation => (w.handle name, w)
  | .random n => (w.supply.peek n, { w with supply := w.supply.skip n })
  | .now => (w.clock, { w with clock := later w.clock })
  | .freshId => (.ofNat w.nextId, { w with nextId := w.nextId + 1 })
  | .token length => w.drawToken length
  | .turns => ([], w)
  | .extent => (w.backing.size, w)

/-- The result of a job with the cancellation of a name, and the world after it. -/
def perform {α : Type} (w : World) (name : String) (t : Job α) : Except VaultError α × World :=
  t.run.run (answer name) w

end World

end Strongbox
