import Strongbox.Batches
import Strongbox.Settings.Basic
import Strongbox.Vault.Progress

/-!
# Rotation — the pool

Several workers share the batches of a list of entries.  A feeder puts the batches one by one into
a queue of bounded depth, from which the workers take them.  Everyone looks for a stop before going
on: the caller's cancellation, or the halt that a failing worker raises.  A worker looks before
each entry too, and reports how many entries of its batch it has finished.

The threads take turns one small step at a time.  The surroundings choose the first turns as they
like; after that the first thread that can go on takes its turn, until none can.  The pool keeps a
journal of the entries that were worked on.

* `Pool.step`: one turn of a thread.
* `Pool.run`: the turns from the start until no thread can go on.
* `dispatch`: the whole run, with the progress that the reports add up to.
-/

namespace Strongbox.Rotation

/-- What a worker reports: the entries it finished in a batch, and what stopped it. -/
structure Report where
  finished : Nat
  failure : Option VaultError

/-- The thread that fills the queue. -/
inductive Feeder where
  /-- Before it looks for a stop, with the batches that are left. -/
  | looking (batches : List (List Entry))
  /-- With a batch to put into the queue, and those after it. -/
  | sending (batch : List Entry) (rest : List (List Entry))
  /-- After its last batch, or stopped. -/
  | closed

/-- A thread that works on batches. -/
inductive Worker where
  /-- Before it looks for a stop and waits for a batch. -/
  | looking
  /-- Waiting for a batch. -/
  | waiting
  /-- In a batch, before it looks for a stop, with the entries left and the number finished. -/
  | holding (left : List Entry) (finished : Nat)
  /-- In a batch, about to work on an entry. -/
  | working (e : Entry) (left : List Entry) (finished : Nat)
  /-- About to raise the halt. -/
  | failing (failure : VaultError) (finished : Nat)
  /-- About to report a failure. -/
  | reporting (failure : VaultError) (finished : Nat)
  /-- Ended. -/
  | gone

/-- An entry that a worker has worked on, and what came of it. -/
structure Handled where
  worker : Nat
  entry : Entry
  outcome : Except VaultError Bool

/-- All threads, the queue between them, the halt, the reports in the order of their sending, and
the journal of the entries worked on, the latest first. -/
structure Pool where
  feeder : Feeder
  queue : List (List Entry)
  depth : Nat
  workers : List Worker
  halted : Bool
  reports : List Report
  journal : List Handled

namespace Worker

/-- The worker has ended. -/
def isGone : Worker → Bool
  | gone => true
  | _ => false

end Worker

namespace Pool

/-- The pool before the first turn. -/
def start (batches : List (List Entry)) (depth workers : Nat) : Pool where
  feeder := .looking batches
  queue := []
  depth := max depth 1
  workers := List.replicate workers .looking
  halted := false
  reports := []
  journal := []

/-- The pool with one worker in another state. -/
def setWorker (p : Pool) (i : Nat) (w : Worker) : Pool :=
  { p with workers := p.workers.set i w }

/-- The pool with one more report. -/
def addReport (p : Pool) (finished : Nat) (failure : Option VaultError) : Pool :=
  { p with reports := p.reports ++ [⟨finished, failure⟩] }

/-- The pool with one more entry in its journal. -/
def note (p : Pool) (i : Nat) (e : Entry) (outcome : Except VaultError Bool) : Pool :=
  { p with journal := ⟨i, e, outcome⟩ :: p.journal }

/-- Whether the threads have to stop. -/
def mustStop (p : Pool) : Program Bool := do
  let c ← Program.reply .cancellation
  return c.raised || p.halted

/-- One turn of the feeder.  It gives up when every worker has ended, and waits for room in the
queue otherwise. -/
def stepFeeder (p : Pool) : Program Pool :=
  match p.feeder with
  | .looking [] => return { p with feeder := .closed }
  | .looking (b :: bs) => do
    if ← p.mustStop then return { p with feeder := .closed }
    else return { p with feeder := .sending b bs }
  | .sending b bs =>
    if p.workers.all Worker.isGone then return { p with feeder := .closed }
    else if p.queue.length < p.depth then
      return { p with feeder := .looking bs, queue := p.queue ++ [b] }
    else return { p with feeder := .looking (b :: bs) }
  | .closed => return p

/-- The pool after worker `i`, which waits, has looked for a batch. -/
def take (p : Pool) (i : Nat) : Pool :=
  match p.queue, p.feeder with
  | b :: queue, _ => ({ p with queue }).setWorker i (.holding b 0)
  | [], .closed => p.setWorker i .gone
  | [], _ => p.setWorker i .looking

/-- One turn of worker `i`, which is in state `w`. -/
def stepWorker (act : Entry → Job Bool) (p : Pool) (i : Nat) (w : Worker) : Program Pool :=
  match w with
  | .looking => do
    if ← p.mustStop then return p.setWorker i .gone
    else return p.setWorker i .waiting
  | .waiting => return p.take i
  | .holding [] n => return (p.addReport n none).setWorker i .looking
  | .holding (e :: es) n => do
    if ← p.mustStop then return (p.addReport n none).setWorker i .looking
    else return p.setWorker i (.working e es n)
  | .working e es n => do
    let outcome ← (act e).run
    let p := p.note i e outcome
    match outcome with
    | .ok counts => return p.setWorker i (.holding es (if counts then n + 1 else n))
    | .error failure => return p.setWorker i (.failing failure n)
  | .failing failure n => return ({ p with halted := true }).setWorker i (.reporting failure n)
  | .reporting failure n => return (p.addReport n (some failure)).setWorker i .gone
  | .gone => return p

/-- One turn of a thread: 0 is the feeder and `i + 1` the worker `i`. -/
def step (act : Entry → Job Bool) (p : Pool) (thread : Nat) : Program Pool :=
  match thread with
  | 0 => p.stepFeeder
  | i + 1 =>
    match p.workers[i]? with
    | some w => p.stepWorker act i w
    | none => return p

/-- The turns of a list of threads. -/
def follow (act : Entry → Job Bool) (p : Pool) : List Nat → Program Pool
  | [] => return p
  | thread :: rest => do
    let p ← p.step act thread
    follow act p rest

/-! ### Running to the end -/

/-- The feeder can do more than wait. -/
def feederGoesOn (p : Pool) : Bool :=
  match p.feeder with
  | .looking _ => true
  | .sending _ _ => p.workers.all Worker.isGone || decide (p.queue.length < p.depth)
  | .closed => false

/-- A worker in state `w` can do more than wait. -/
def workerGoesOn (p : Pool) (w : Worker) : Bool :=
  match w with
  | .waiting =>
    !p.queue.isEmpty ||
      match p.feeder with
      | .closed => true
      | _ => false
  | .gone => false
  | _ => true

/-- The first thread that can do more than wait. -/
def next? (p : Pool) : Option Nat :=
  if p.feederGoesOn then some 0
  else (p.workers.findIdx? p.workerGoesOn).map (· + 1)

/-- The sum of the measures of a list's members. -/
def total {α : Type} (f : α → Nat) : List α → Nat
  | [] => 0
  | a :: as => f a + total f as

/-- The number of turns that a batch in the queue can still cost. -/
def batchCost (b : List Entry) : Nat :=
  2 * b.length + 3

/-- The number of turns that a worker can still take with what it has. -/
def workerCost : Worker → Nat
  | .looking => 2
  | .waiting => 1
  | .holding es _ => 2 * es.length + 3
  | .working _ es _ => 2 * es.length + 4
  | .failing _ _ => 2
  | .reporting _ _ => 1
  | .gone => 0

/-- The number of turns that the feeder's batches can still cost. -/
def feederCost : Feeder → Nat
  | .looking bs => 1 + total (batchCost · + 2) bs
  | .sending b bs => (batchCost b + 2) + total (batchCost · + 2) bs
  | .closed => 0

/-- A bound on the turns that do more than wait. -/
def cost (p : Pool) : Nat :=
  feederCost p.feeder + total batchCost p.queue + total workerCost p.workers

/-- At most `rounds` turns, each of the first thread that can do more than wait. -/
def finish (act : Entry → Job Bool) : (rounds : Nat) → Pool → Program Pool
  | 0, p => return p
  | rounds + 1, p =>
    match p.next? with
    | none => return p
    | some thread => do
      let p ← p.step act thread
      finish act rounds p

/-- The turns of all threads from the start until none can go on. -/
def run (act : Entry → Job Bool) (rules : RotationRules) (entries : List Entry) :
    Program Pool := do
  let shares := batches rules.batchSize entries
  let turns ← Program.reply .turns
  let p ← follow act (start shares rules.queueDepth (min rules.workers shares.length)) turns
  finish act p.cost p

/-! ### The whole run -/

/-- The number of finished entries that the reports add up to, `n` being finished before. -/
def finished (p : Pool) (n : Nat) : Nat :=
  p.reports.foldl (fun n r => n + r.finished) n

/-- The first failure in the order of the reports. -/
def firstFailure? (p : Pool) : Option VaultError :=
  p.reports.findSome? (·.failure)

/-- What the run comes to, `n` entries being finished before it: it fails with the first failure
reported, or else with the caller's cancellation. -/
def outcome (p : Pool) (n : Nat) : Program Progress :=
  match p.firstFailure? with
  | some failure => return ⟨p.finished n, some failure⟩
  | none => do
    let c ← Program.reply .cancellation
    match c.check (p.finished n) with
    | .error failure => return ⟨p.finished n, some failure⟩
    | .ok () => return ⟨p.finished n, none⟩

end Pool

/-- The work on entries by a pool of workers, `n` entries being finished before. -/
def dispatch (act : Entry → Job Bool) (rules : RotationRules) (n : Nat) (entries : List Entry) :
    Program Progress :=
  if entries.isEmpty then return ⟨n, none⟩
  else do
    let p ← Pool.run act rules entries
    p.outcome n

end Strongbox.Rotation
