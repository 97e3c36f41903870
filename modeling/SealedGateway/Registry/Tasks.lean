import SealedGateway.Registry.Basic

/-!
# Connection tasks that share a registry

Each connection has a task. It takes a serial, makes an entry once, and releases it at most once;
its stage says what comes next. Tasks run side by side, under identifiers that can coincide, and the
control plane looks entries up and removes them at any moment (**`Registry.Shared.step`**).
-/

namespace SealedGateway.Registry

/-- A task of a connection, as far as the registry is concerned. -/
inductive Task where
  | arrived (serial : UInt64)
  /-- Has made its entry. -/
  | registered (id : String) (handle : Handle)
  /-- Has released its entry. -/
  | gone (id : String) (handle : Handle)
  deriving DecidableEq

/-- The serial that a task took when it arrived. -/
def Task.serial : Task → UInt64
  | arrived serial => serial
  | registered _ handle | gone _ handle => handle.serial

/-- A registry and the tasks that share it, by number. -/
structure Shared where
  registry : Registry
  tasks : List Task

namespace Shared

/-- What can happen. -/
inductive Act where
  /-- A task takes a serial. -/
  | arrive
  | add (task : Nat) (id : String) (remote : SocketAddr) (since : Nat)
  | release (task : Nat)
  /-- The control plane removes an entry. -/
  | remove (id : String)
  /-- Somebody looks for an entry. -/
  | lookUp (id : String)
  | display (position : Nat)
  deriving DecidableEq

/-- Whether an act is the arrival of a task. -/
def Act.isArrival : Act → Bool
  | .arrive => true
  | _ => false

/-- No task has arrived. -/
def start : Shared := ⟨.empty, []⟩

/-- The entry of an identifier. -/
def find? (s : Shared) (id : String) : Option Handle := s.registry.directory.find? id

/-- One event of the registry, and what becomes of the tasks with it. -/
def apply (s : Shared) (event : Event) (tasks : List Task) : Option Shared :=
  (s.registry.step event).map fun registry => ⟨registry, tasks⟩

/-- One act. -/
def step (s : Shared) : Act → Option Shared
  | .arrive => s.apply .issueSerial (s.tasks ++ [.arrived s.registry.nextSerial])
  | .add t id remote since =>
    match s.tasks[t]? with
    | some (.arrived serial) =>
      s.apply (.add id ⟨serial, remote, since⟩)
        (s.tasks.set t (.registered id ⟨serial, remote, since⟩))
    | _ => none
  | .release t =>
    match s.tasks[t]? with
    | some (.registered id handle) =>
      s.apply (.release id handle.serial) (s.tasks.set t (.gone id handle))
    | _ => none
  | .remove id => s.apply (.remove id) s.tasks
  | .lookUp _ => some s
  | .display position => s.apply (.display position) s.tasks

/-- A list of acts, all of which must be possible. -/
def run? (s : Shared) (acts : List Act) : Option Shared := acts.foldlM step s

end Shared

end SealedGateway.Registry
