import Strongbox.Proofs.Program.Log
import Strongbox.Rotation.Basic

/-!
# Rotation — the questions of the work

Work on entries asks for the caller's cancellation and for what the work on one entry asks for; a
pool asks for the order of its turns besides.  Nothing else is asked, so work on a list that was
read reads no other list.

* `asks_eachEntry`, `asks_dispatch`: the questions of work in order and by a pool.
* `asks_relockAll`: those of a rotation's work on a list.
-/

namespace Strongbox

variable {P : Request → Prop} {act : Entry → Job Bool}

theorem asks_eachEntry (hc : P .cancellation) (ha : ∀ e, Job.Asks P (act e))
    (entries : List Entry) (n : Nat) : (eachEntry act n entries).Asks P := by
  induction entries generalizing n with
  | nil => trivial
  | cons e entries ih =>
      refine Program.Asks.bind ((Job.asks_checkpoint hc).bind fun _ => ha e) fun x => ?_
      cases x with
      | ok counts => exact ih _
      | error error => trivial

namespace Rotation

namespace Pool

theorem asks_mustStop (hc : P .cancellation) {p q q' : Pool} :
    (p.mustStop.bind fun b => if b then .done q else .done q').Asks P := by
  refine Program.Asks.bind (Program.Asks.bind (Program.asks_reply hc) fun _ => trivial) fun b => ?_
  cases b <;> trivial

theorem asks_step (hc : P .cancellation) (ha : ∀ e, Job.Asks P (act e)) (p : Pool) (i : Nat) :
    (p.step act i).Asks P := by
  cases i with
  | zero =>
      simp only [step, stepFeeder]
      split
      · trivial
      · exact asks_mustStop hc
      · split
        · trivial
        · split <;> trivial
      · trivial
  | succ i =>
      simp only [step]
      split
      · rename_i w _
        cases w with
        | looking => exact asks_mustStop hc
        | holding left n =>
            cases left with
            | nil => trivial
            | cons e es => exact asks_mustStop hc
        | working e es n =>
            refine Program.Asks.bind (ha e) fun x => ?_
            cases x <;> trivial
        | waiting | failing | reporting | gone => trivial
      · trivial

theorem asks_follow (hc : P .cancellation) (ha : ∀ e, Job.Asks P (act e)) (turns : List Nat)
    (p : Pool) : (p.follow act turns).Asks P := by
  induction turns generalizing p with
  | nil => trivial
  | cons i turns ih => exact (asks_step hc ha p i).bind ih

theorem asks_finish (hc : P .cancellation) (ha : ∀ e, Job.Asks P (act e)) (rounds : Nat)
    (p : Pool) : (finish act rounds p).Asks P := by
  induction rounds generalizing p with
  | zero => trivial
  | succ rounds ih =>
      simp only [finish]
      split
      · trivial
      · exact (asks_step hc ha p _).bind ih

theorem asks_outcome (hc : P .cancellation) (p : Pool) (n : Nat) : (p.outcome n).Asks P := by
  simp only [outcome]
  split
  · trivial
  · refine Program.Asks.bind (Program.asks_reply hc) fun c => ?_
    split <;> trivial

end Pool

theorem asks_dispatch (hc : P .cancellation) (ht : P .turns) (ha : ∀ e, Job.Asks P (act e))
    (rules : RotationRules) (n : Nat) (entries : List Entry) :
    (dispatch act rules n entries).Asks P := by
  simp only [dispatch]
  split
  · trivial
  · refine Program.Asks.bind ?_ fun p => Pool.asks_outcome hc p n
    exact (Program.asks_reply ht).bind fun turns =>
      (Pool.asks_follow hc ha turns _).bind fun p => Pool.asks_finish hc ha _ p

variable {v : Vault} {old new : String}

theorem asks_relockEntry (hr : ∀ n, P (.random n)) (hn : P .now)
    (hu : ∀ e fields, P (.store (.update e fields))) (e : Entry) :
    Job.Asks P (relockEntry v old new e) := by
  simp only [relockEntry]
  split
  · trivial
  · refine Job.Asks.bind ((Job.asks_reply (hr _)).bind fun _ => trivial) fun locked => ?_
    refine (Job.asks_reply hn).bind fun now => ?_
    exact (Job.asks_call (hu _ _)).bind fun _ => trivial

/-- **Work on a list asks for the cancellation, random bytes, the time, the order of turns and
updates**, and for nothing else. -/
theorem asks_relockAll (hc : P .cancellation) (ht : P .turns) (hr : ∀ n, P (.random n))
    (hn : P .now) (hu : ∀ e fields, P (.store (.update e fields))) (mode : Mode) (n : Nat)
    (entries : List Entry) : (relockAll v old new mode n entries).Asks P := by
  cases mode with
  | sequential => exact asks_eachEntry hc (asks_relockEntry hr hn hu) entries n
  | parallel => exact asks_dispatch hc ht (asks_relockEntry hr hn hu) _ n entries

end Rotation

end Strongbox
