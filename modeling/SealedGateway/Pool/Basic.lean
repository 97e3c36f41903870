import SealedGateway.Metrics
import SealedGateway.Pool.Sizing

/-!
# The worker pool

A bounded queue of jobs, drained by workers whose number can change. The pool is a machine of small
steps (**`Pool.step`**): whatever two tasks can do in either order is two events, so a run is any
list of events, and each event that is not enabled is refused.

- A submission that finds the pool open becomes an offer. It waits for space in the queue, or for
  the cancellation of the pool.
- A worker looks at its cancellation between two jobs only (`poll`), so a job that was taken is
  finished.
- Resizing holds the lock on the workers: it looks whether the pool is open (`confirm`), starts and
  retires workers one by one (`adjust`), and shows their number (`publish`). The latest worker is
  retired first.
- The controller reads the backlog and the number of workers, and resizes later (`act`).
- The teardown closes the pool, cancels it, takes over all workers once the lock is free, waits
  until they have ended, and releases the handler.
-/

namespace SealedGateway

/-- What a worker is doing. -/
inductive Stage (J : Type) where
  /-- Between two jobs, about to look at its cancellation. -/
  | polling
  /-- Waits for a job. -/
  | waiting
  | busy (job : J)
  | exited
  /-- Ended by a job that broke down. -/
  | crashed
  deriving DecidableEq, Repr

/-- Who a worker belongs to. -/
inductive Place where
  | running
  /-- Asked to stop when the pool was made smaller. -/
  | retiring
  /-- Awaited by the teardown. -/
  | awaited
  deriving DecidableEq, Repr

/-- A worker. -/
structure Worker (J : Type) where
  /-- Workers are numbered in the order in which they start. -/
  number : Nat
  stage : Stage J
  place : Place
  deriving DecidableEq, Repr

namespace Worker

variable {J : Type}

/-- A worker that has just been started. -/
def fresh (number : Nat) : Worker J := ⟨number, .polling, .running⟩

/-- Whether a worker has ended. -/
def finished (w : Worker J) : Bool :=
  match w.stage with
  | .exited | .crashed => true
  | .polling | .waiting | .busy _ => false

/-- Whether a worker counts as one of the pool. -/
def runs (w : Worker J) : Bool := w.place == .running

end Worker

/-- A change of the number of workers, which holds the lock. -/
structure Resize where
  target : Nat
  /-- Whether the pool was found open. -/
  admitted : Bool
  deriving DecidableEq, Repr

/-- What a look of the controller has read so far. -/
structure Reading where
  backlog : Nat
  active : Option Nat
  deriving DecidableEq, Repr

/-- How far the teardown has come. -/
inductive Teardown where
  | notBegun
  | closed
  | cancelled
  | awaiting
  /-- All workers have ended. -/
  | emptied
  | complete
  deriving DecidableEq, Repr

/-- A pool of workers for jobs of type `J`. -/
structure Pool (J : Type) where
  sizing : Sizing
  /-- Jobs in the queue, oldest first. -/
  queue : List J
  /-- Submissions that found the pool open and wait for space, oldest first. -/
  offers : List J
  /-- Workers, the latest first. -/
  workers : List (Worker J)
  /-- The number of the next worker. -/
  nextNumber : Nat
  resize : Option Resize
  readings : List Reading
  teardown : Teardown
  /-- The number of workers as it is shown. -/
  shown : Nat
  /-- Jobs whose submission succeeded, oldest first. -/
  accepted : List J
  /-- Jobs whose submission failed, oldest first. -/
  refused : List J
  /-- Jobs that a worker took, oldest first. -/
  started : List J
  /-- Jobs that were handled and whether that succeeded, oldest first. -/
  handled : List (J × Bool)
  deriving DecidableEq, Repr

namespace Pool

variable {J : Type}

/-- What can happen in a pool. -/
inductive Event (J : Type) where
  | submit (job : J)
  /-- The offer at a position enters the queue. -/
  | enqueue (position : Nat)
  /-- The offer at a position learns of the cancellation. -/
  | refuse (position : Nat)
  | poll (worker : Nat)
  | wake (worker : Nat)
  | take (worker : Nat)
  | finish (worker : Nat) (succeeded : Bool)
  | crash (worker : Nat)
  | beginResize (target : Nat)
  | confirm
  | adjust
  | publish
  | readBacklog
  | readCount (position : Nat)
  | act (position : Nat)
  | close
  | cancel
  | collect
  | awaitWorkers
  | release
  deriving DecidableEq, Repr

/-- A pool that has just been made, with the fewest workers. -/
def start (sizing : Sizing) : Pool J :=
  { sizing
    queue := [], offers := []
    workers := (List.range sizing.minWorkers).reverse.map .fresh
    nextNumber := sizing.minWorkers
    resize := none, readings := []
    teardown := .notBegun
    shown := sizing.minWorkers
    accepted := [], refused := [], started := [], handled := [] }

/-- Why there is no pool. -/
inductive Fault where
  | badSizing (fault : Sizing.Fault)
  /-- No queue can be made for so many jobs. -/
  | queueTooLong
  deriving DecidableEq, Repr

/-- The failure of a fault. -/
def Fault.failure : Fault → Failure
  | badSizing f => .other f.message
  | queueTooLong => .other "no queue can be made for so many jobs"

/-- A pool of a size that it can honour, with a queue that can be made. -/
def create (sizing : Sizing) : Except Fault (Pool J) :=
  match sizing.fault? with
  | some f => .error (.badSizing f)
  | none => if Capacity.isValid sizing.queueSize then .ok (start sizing) else .error .queueTooLong

/-! ## Views -/

/-- Jobs waiting in the queue. -/
def backlog (p : Pool J) : Nat := p.queue.length

/-- The workers of the pool, without those that were retired. -/
def workerCount (p : Pool J) : Nat := p.workers.countP Worker.runs

/-- Whether the pool takes no more jobs. -/
def isClosed (p : Pool J) : Bool := p.teardown != .notBegun

/-- Whether the pool asks all its workers to stop. -/
def isCancelled (p : Pool J) : Bool :=
  match p.teardown with
  | .notBegun | .closed => false
  | .cancelled | .awaiting | .emptied | .complete => true

/-- Whether the handler was released. -/
def isReleased (p : Pool J) : Bool := p.teardown == .complete

/-- How many jobs were handled without success. -/
def failures (p : Pool J) : Nat := p.handled.countP fun h => !h.2

/-- The worker of a number. -/
def worker? (p : Pool J) (number : Nat) : Option (Worker J) :=
  p.workers.find? fun w => w.number == number

/-- What the worker of a number is doing. -/
def stage? (p : Pool J) (number : Nat) : Option (Stage J) := (p.worker? number).map Worker.stage

/-- Whether a worker is asked to stop. -/
def stops (p : Pool J) (w : Worker J) : Bool := p.isCancelled || w.place == .retiring

/-! ## Steps -/

/-- The worker of a number does something else. -/
def setStage (p : Pool J) (number : Nat) (stage : Stage J) : Pool J :=
  { p with workers := p.workers.map fun w => if w.number = number then { w with stage } else w }

/-- A job is submitted. -/
def submit (p : Pool J) (job : J) : Pool J :=
  if p.isClosed then { p with refused := p.refused ++ [job] }
  else { p with offers := p.offers ++ [job] }

/-- An offer enters the queue if there is space. -/
def enqueue (p : Pool J) (position : Nat) : Option (Pool J) :=
  match p.offers[position]? with
  | some job =>
    if p.queue.length < p.sizing.queueSize then
      some { p with
        queue := p.queue ++ [job]
        offers := p.offers.eraseIdx position
        accepted := p.accepted ++ [job] }
    else none
  | none => none

/-- An offer is refused if the pool is cancelled. -/
def refuse (p : Pool J) (position : Nat) : Option (Pool J) :=
  match p.offers[position]? with
  | some job =>
    if p.isCancelled then
      some { p with
        offers := p.offers.eraseIdx position
        refused := p.refused ++ [job] }
    else none
  | none => none

/-- A worker between two jobs stops if it is asked to, and else waits for a job. -/
def poll (p : Pool J) (number : Nat) : Option (Pool J) :=
  match p.worker? number with
  | some w =>
    match w.stage with
    | .polling => some (p.setStage number (if p.stops w then .exited else .waiting))
    | _ => none
  | none => none

/-- A waiting worker looks again. -/
def wake (p : Pool J) (number : Nat) : Option (Pool J) :=
  match p.stage? number with
  | some .waiting => some (p.setStage number .polling)
  | _ => none

/-- A waiting worker takes the oldest job of the queue. -/
def take (p : Pool J) (number : Nat) : Option (Pool J) :=
  match p.stage? number, p.queue with
  | some .waiting, job :: rest =>
    some { p.setStage number (.busy job) with queue := rest, started := p.started ++ [job] }
  | _, _ => none

/-- A worker is done with its job. -/
def finish (p : Pool J) (number : Nat) (succeeded : Bool) : Option (Pool J) :=
  match p.stage? number with
  | some (.busy job) =>
    some { p.setStage number .polling with handled := p.handled ++ [(job, succeeded)] }
  | _ => none

/-- A job breaks down and its worker with it. -/
def crash (p : Pool J) (number : Nat) : Option (Pool J) :=
  match p.stage? number with
  | some (.busy _) => some (p.setStage number .crashed)
  | _ => none

/-- Takes the lock for a change to `target` workers, as far as the bounds admit. -/
def beginResize (p : Pool J) (target : Nat) : Option (Pool J) :=
  match p.resize with
  | none => some { p with resize := some ⟨p.sizing.clamp target, false⟩ }
  | some _ => none

/-- Looks whether the pool is open, and gives up the lock if it is not. -/
def confirm (p : Pool J) : Option (Pool J) :=
  match p.resize with
  | some ⟨target, false⟩ =>
    some { p with resize := if p.isClosed then none else some ⟨target, true⟩ }
  | _ => none

/-- The latest worker of the pool is asked to stop. -/
def retireLatest : List (Worker J) → List (Worker J)
  | [] => []
  | w :: ws => if w.runs then { w with place := .retiring } :: ws else w :: retireLatest ws

/-- One worker more or one fewer, towards the target. -/
def adjust (p : Pool J) : Option (Pool J) :=
  match p.resize with
  | some ⟨target, true⟩ =>
    if p.workerCount < target then
      some { p with
        workers := .fresh p.nextNumber :: p.workers
        nextNumber := p.nextNumber + 1 }
    else if target < p.workerCount then some { p with workers := retireLatest p.workers }
    else none
  | _ => none

/-- With the target reached, forgets the retired workers that have ended, shows the number of
workers and gives up the lock. -/
def publish (p : Pool J) : Option (Pool J) :=
  match p.resize with
  | some ⟨target, true⟩ =>
    if p.workerCount = target then
      some { p with
        workers := p.workers.filter fun w => !(w.place == .retiring && w.finished)
        shown := p.workerCount
        resize := none }
    else none
  | _ => none

/-- The controller reads the backlog. -/
def readBacklog (p : Pool J) : Pool J := { p with readings := p.readings ++ [⟨p.backlog, none⟩] }

/-- The controller reads the number of workers, for which the lock must be free. -/
def readCount (p : Pool J) (position : Nat) : Option (Pool J) :=
  match p.resize, p.readings[position]? with
  | none, some ⟨backlog, none⟩ =>
    some { p with readings := p.readings.set position ⟨backlog, some p.workerCount⟩ }
  | _, _ => none

/-- The controller acts on what it has read. -/
def act (p : Pool J) (position : Nat) : Option (Pool J) :=
  match p.readings[position]? with
  | some ⟨backlog, some active⟩ =>
    let rest := { p with readings := p.readings.eraseIdx position }
    match p.sizing.scaled backlog active with
    | some target => rest.beginResize target
    | none => some rest
  | _ => none

/-- Goes from one point of the teardown to the next. -/
def advance (p : Pool J) (before after : Teardown) : Option (Pool J) :=
  if p.teardown = before then some { p with teardown := after } else none

/-- The teardown takes over all workers, for which the lock must be free. -/
def collect (p : Pool J) : Option (Pool J) :=
  match p.resize with
  | none =>
    advance { p with workers := p.workers.map fun w => { w with place := .awaited } }
      .cancelled .awaiting
  | some _ => none

/-- The teardown sees that all workers have ended. -/
def awaitWorkers (p : Pool J) : Option (Pool J) :=
  if p.workers.all Worker.finished then advance { p with shown := 0 } .awaiting .emptied else none

/-- One event. -/
def step (p : Pool J) : Event J → Option (Pool J)
  | .submit job => some (p.submit job)
  | .enqueue i => p.enqueue i
  | .refuse i => p.refuse i
  | .poll w => p.poll w
  | .wake w => p.wake w
  | .take w => p.take w
  | .finish w ok => p.finish w ok
  | .crash w => p.crash w
  | .beginResize target => p.beginResize target
  | .confirm => p.confirm
  | .adjust => p.adjust
  | .publish => p.publish
  | .readBacklog => some p.readBacklog
  | .readCount i => p.readCount i
  | .act i => p.act i
  | .close => p.advance .notBegun .closed
  | .cancel => p.advance .closed .cancelled
  | .collect => p.collect
  | .awaitWorkers => p.awaitWorkers
  | .release => p.advance .emptied .complete

/-- What is shown of the pool of the given name. -/
def metrics (p : Pool J) (name : String) : Metrics :=
  (.poolWorkers name, p.shown) :: Metrics.counter (.poolFailures name) p.failures

/-- A list of events, all of which must be enabled. -/
def run? (p : Pool J) (events : List (Event J)) : Option (Pool J) := events.foldlM step p

end Pool

end SealedGateway
