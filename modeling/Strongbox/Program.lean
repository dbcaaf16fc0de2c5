import Strongbox.Bytes
import Strongbox.Cancellation
import Strongbox.Store.Query

/-!
# Programs

What the vault does is a program: it puts questions to its surroundings, one at a time, and goes on
according to the replies.  The surroundings hold the store, the caller's cancellation, the clock
and the sources of random bytes, ids and tokens.  A program says nothing about how they answer, so
one program can be run against any store, with failures, and with other programs in between.

* `Program.run`: the result of a program whose questions are answered from a state.
-/

namespace Strongbox

/-- A question to the surroundings. -/
inductive Request where
  /-- A call to the store. -/
  | store (call : Store.Call)
  /-- The state of the caller's cancellation. -/
  | cancellation
  /-- Random bytes. -/
  | random (n : Nat)
  /-- The present instant. -/
  | now
  /-- An id that no entry has. -/
  | freshId
  /-- A token of a given length. -/
  | token (length : Nat)
  /-- Which worker of a pool takes its turn next, and after that, for as long as this is given. -/
  | turns
  /-- A bound on the number of entries that the store lists. -/
  | extent
  deriving DecidableEq

/-- The type of the reply to a question. -/
@[reducible] def Request.Reply : Request → Type
  | store call => call.Reply
  | cancellation => Cancellation
  | random _ => Bytes
  | now => Instant
  | freshId => Uuid
  | token _ => Except LengthError String
  | turns => List Nat
  | extent => Nat

/-- A program with a result. -/
inductive Program (α : Type) : Type where
  | done (a : α)
  | ask (r : Request) (next : r.Reply → Program α)

namespace Program

variable {α β σ : Type}

/-- One program after another. -/
def bind : Program α → (α → Program β) → Program β
  | done a, f => f a
  | ask r next, f => ask r fun x => (next x).bind f

instance : Monad Program where
  pure := done
  bind := bind

/-- The reply to one question. -/
def reply (r : Request) : Program r.Reply :=
  ask r done

/-- The result of a program whose questions are answered from a state, and the state after it. -/
def run (answer : (r : Request) → σ → r.Reply × σ) : Program α → σ → α × σ
  | done a, s => (a, s)
  | ask r next, s =>
    let (x, s') := answer r s
    run answer (next x) s'

@[simp] theorem pure_eq (a : α) : (pure a : Program α) = done a := rfl

@[simp] theorem bind_eq (p : Program α) (f : α → Program β) : (p >>= f) = p.bind f := rfl

@[simp] theorem run_bind (answer : (r : Request) → σ → r.Reply × σ) (p : Program α)
    (f : α → Program β) (s : σ) :
    (p.bind f).run answer s = (f (p.run answer s).1).run answer (p.run answer s).2 := by
  induction p generalizing s with
  | done a => rfl
  | ask r next ih => exact ih _ _

end Program

/-- A program that may fail. -/
abbrev Job : Type → Type :=
  ExceptT VaultError Program

namespace Job

variable {α : Type}

/-- The reply to a question. -/
def reply (r : Request) : Job r.Reply :=
  ExceptT.lift (Program.reply r)

/-- A result or an error. -/
def ofExcept (r : Except VaultError α) : Job α :=
  ExceptT.mk (.done r)

/-- The answer to a call to the store; a failure of the store is one of the job. -/
def call (c : Store.Call) : Job c.Answer := do
  let r ← reply (.store c)
  ofExcept (r.mapError .store)

/-- Fails, telling that `n` entries are finished, once the caller has cancelled. -/
def checkpoint (n : Nat) : Job Unit := do
  let c ← reply .cancellation
  ofExcept (c.check n)

end Job

end Strongbox
