import SealedGateway.Pool.Basic

/-!
# A fair schedule of a pool

Which event comes next when a pool is left alone. Workers that wait are a queue too: the one that
has waited longest takes the next job (**`Pool.next?`**, **`Roster`**).

A resize runs without interruption here (**`Pool.resized`**, **`Pool.autoscaled`**).
-/

namespace SealedGateway

/-- What becomes of a job that a worker has taken. -/
inductive Fate where
  /-- The job keeps its worker busy for now. -/
  | held
  | handled (succeeded : Bool)
  /-- The job breaks down and takes its worker with it. -/
  | broken
  deriving DecidableEq, Repr

/-- The workers that wait for a job, the one that has waited longest first. -/
abbrev Roster := List Nat

namespace Pool

variable {J : Type}

/-- A worker whose job can end does so. -/
def finishing? (fate : J → Fate) (w : Worker J) : Option (Event J) :=
  match w.stage with
  | .busy job =>
    match fate job with
    | .held => none
    | .handled ok => some (.finish w.number ok)
    | .broken => some (.crash w.number)
  | _ => none

/-- A worker between two jobs looks at its cancellation, and so does one that is asked to stop. -/
def looking? (p : Pool J) (w : Worker J) : Option (Event J) :=
  match w.stage with
  | .polling => some (.poll w.number)
  | .waiting => if p.stops w then some (.wake w.number) else none
  | _ => none

/-- The oldest offer enters the queue, or learns of the cancellation. -/
def offering? (p : Pool J) : Option (Event J) :=
  if p.offers.isEmpty then none
  else if p.isCancelled then some (.refuse 0)
  else if p.queue.length < p.sizing.queueSize then some (.enqueue 0)
  else none

/-- The worker that has waited longest takes a job. -/
def taking? (p : Pool J) (roster : Roster) : Option (Event J) :=
  match roster with
  | w :: _ => if p.queue.isEmpty then none else some (.take w)
  | [] => none

/-- The next step of the teardown. -/
def ending? (p : Pool J) : Option (Event J) :=
  match p.teardown with
  | .notBegun | .complete => none
  | .closed => some .cancel
  | .cancelled => some .collect
  | .awaiting => if p.workers.all Worker.finished then some .awaitWorkers else none
  | .emptied => some .release

/-- The next event of a pool that is left alone. -/
def next? (fate : J → Fate) (p : Pool J) (roster : Roster) : Option (Event J) :=
  p.workers.reverse.findSome? (finishing? fate) <|>
  p.workers.reverse.findSome? p.looking? <|>
  p.offering? <|> p.taking? roster <|> p.ending?

/-- The waiting workers after an event that led to the pool `p`. -/
def followRoster (p : Pool J) (roster : Roster) : Event J → Roster
  | .poll w =>
    match p.stage? w with
    | some .waiting => roster ++ [w]
    | _ => roster
  | .wake w | .take w => roster.filter (· != w)
  | _ => roster

/-- More events than can follow when a pool is left alone. A job that is not yet taken has four (it
enters the queue, is taken and ends, and its worker looks again), a worker has at most five, and
the teardown has five. -/
def patience (p : Pool J) : Nat :=
  4 * (p.queue.length + p.offers.length) + 8 * p.workers.length + 8

/-- Leaves a pool alone until nothing moves. -/
def settle (fate : J → Fate) (p : Pool J) (roster : Roster) : Pool J × Roster :=
  go p.patience p roster
where
  /-- At most a given number of events. -/
  go : Nat → Pool J → Roster → Pool J × Roster
    | 0, p, roster => (p, roster)
    | n + 1, p, roster =>
      match next? fate p roster with
      | none => (p, roster)
      | some e =>
        match p.step e with
        | none => (p, roster)
        | some q => go n q (q.followRoster roster e)

/-- What follows once a resize to `target` holds the lock. -/
def resizeEvents (p : Pool J) (target : Nat) : List (Event J) :=
  if p.isClosed then [.confirm]
  else
    let distance := (target - p.workerCount) + (p.workerCount - target)
    .confirm :: (List.replicate distance .adjust ++ [.publish])

/-- A pool after an uninterrupted change to `target` workers. -/
def resized (p : Pool J) (target : Nat) : Pool J :=
  (p.run? (.beginResize target :: p.resizeEvents (p.sizing.clamp target))).getD p

/-- A pool after an uninterrupted look of its controller. -/
def autoscaled (p : Pool J) : Pool J :=
  let resizing := match p.sizing.scaled p.backlog p.workerCount with
    | some target => p.resizeEvents (p.sizing.clamp target)
    | none => []
  (p.run? ([.readBacklog, .readCount p.readings.length, .act p.readings.length] ++ resizing)).getD p

end Pool

end SealedGateway
