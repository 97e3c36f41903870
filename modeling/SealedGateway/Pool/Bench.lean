import SealedGateway.Pool.Schedule

/-!
# A pool on a bench

Jobs with gates, run on a pool by the fair schedule. A gated job keeps its worker busy until its
gate is opened, so a bench shows which worker is free, which job waits, and what a teardown waits
for. After each action the pool is left alone until nothing moves (**`Bench.act`**).
-/

namespace SealedGateway

/-- A job of a bench. -/
structure BenchJob where
  id : Nat
  /-- Whether the job waits for its gate. -/
  gated : Bool
  fails : Bool
  /-- Whether the job takes its worker with it. -/
  breaksDown : Bool
  deriving DecidableEq, Repr

/-- A pool under observation. -/
structure Bench where
  pool : Pool BenchJob
  roster : Roster
  /-- The gates that are open. -/
  opened : List Nat
  /-- How many controllers were started. -/
  controllers : Nat
  /-- Whether a teardown was asked for, and whether the last one found the pool closed. -/
  lastShutdown : Option Bool

namespace Bench

/-- What can be done on a bench. -/
inductive Action where
  /-- Submits `count` jobs, numbered from that of `job`. -/
  | submit (job : BenchJob) (count : Nat)
  /-- Opens gates one after the other. -/
  | openGates (ids : List Nat)
  | scaleTo (target : Nat)
  | autoscale
  | startController
  /-- An interval passes. -/
  | tick
  | shutdown
  deriving Repr

/-- What becomes of a job while the gates `opened` are open. -/
def fate (opened : List Nat) (job : BenchJob) : Fate :=
  if job.gated && !opened.contains job.id then .held
  else if job.breaksDown then .broken
  else .handled (!job.fails)

/-- Leaves the pool alone until nothing moves. -/
def settle (b : Bench) : Bench :=
  let (pool, roster) := b.pool.settle (fate b.opened) b.roster
  { b with pool, roster }

/-- A bench with a pool of the given size. -/
def create (sizing : Sizing) : Except Pool.Fault Bench := do
  let pool ← Pool.create sizing
  return settle ⟨pool, [], [], 0, none⟩

/-- Submits jobs of consecutive numbers, before any of them can move. -/
def submit (b : Bench) (job : BenchJob) (count : Nat) : Bench :=
  let jobs := (List.range count).map fun i => { job with id := job.id + i }
  { b with pool := jobs.foldl Pool.submit b.pool }

/-- Opens a gate. -/
def openGate (b : Bench) (id : Nat) : Bench := settle { b with opened := id :: b.opened }

/-- Starts the teardown. Only the first one finds work to do. -/
def shutdown (b : Bench) : Bench :=
  { b with
    lastShutdown := some b.pool.isClosed
    pool := (b.pool.step .close).getD b.pool }

/-- An action and the number that it returns, if any. -/
def act (b : Bench) : Action → Option Nat × Bench
  | .submit job count => (none, (b.submit job count).settle)
  | .openGates ids => (none, ids.foldl openGate b)
  | .scaleTo target =>
    let pool := b.pool.resized target
    (some pool.workerCount, settle { b with pool })
  | .autoscale =>
    let pool := b.pool.autoscaled
    (some pool.workerCount, settle { b with pool })
  | .startController => (none, { b with controllers := b.controllers + 1 })
  | .tick =>
    let looks := if b.pool.isCancelled then 0 else b.controllers
    (none, settle { b with pool := looks.repeat Pool.autoscaled b.pool })
  | .shutdown => (none, b.shutdown.settle)

/-- The numbers of jobs, in ascending order. -/
def sortedIds (jobs : List BenchJob) : List Nat := (jobs.map BenchJob.id).mergeSort

/-- Whether the last teardown that was asked for has returned, if there was one. -/
def shutdownReturned (b : Bench) : Option Bool :=
  b.lastShutdown.map fun foundClosed => foundClosed || b.pool.isReleased

/-- Whether the last controller has ended, if there was one. -/
def controllerStopped (b : Bench) : Option Bool :=
  if b.controllers = 0 then none else some b.pool.isCancelled

end Bench

end SealedGateway
