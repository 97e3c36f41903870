import SealedGateway.Metrics
import SealedGateway.Registry.Directory

/-!
# The registry

The directory of live connections, the serials for new ones, and the number of entries as it is
shown. A change has two steps: the directory changes and its size is read, and later the size is
shown (**`Registry.step`**). Between the two, other changes can come in.

The functions after the steps run a change and its second step at once.
-/

namespace SealedGateway

/-- The registry of live connections. -/
structure Registry where
  directory : Directory
  nextSerial : UInt64
  /-- The number of entries as it is shown, once one has been shown. -/
  shown : Option Nat
  /-- Sizes that were read and are not shown yet, oldest first. -/
  unshown : List Nat

namespace Registry

/-- A registry without entries. The first serial is one. -/
def empty : Registry := ⟨.empty, 1, none, []⟩

/-- What can happen in a registry. -/
inductive Event where
  | issueSerial
  | add (id : String) (handle : Handle)
  | remove (id : String)
  | release (id : String) (serial : UInt64)
  /-- The size at a position of those that are not shown yet is shown. -/
  | display (position : Nat)
  deriving DecidableEq, Repr

/-- Changes the directory and reads its size. -/
def change (r : Registry) (directory : Directory) : Registry :=
  { r with directory, unshown := r.unshown ++ [directory.size] }

/-- Shows a size that was read. -/
def display (r : Registry) (position : Nat) : Option Registry :=
  match r.unshown[position]? with
  | some size => some { r with shown := some size, unshown := r.unshown.eraseIdx position }
  | none => none

/-- One event. -/
def step (r : Registry) : Event → Option Registry
  | .issueSerial => some { r with nextSerial := r.nextSerial + 1 }
  | .add id handle => some (r.change (r.directory.add id handle))
  | .remove id => some (r.change (r.directory.remove id))
  | .release id serial => some (r.change (r.directory.release id serial))
  | .display position => r.display position

/-- A list of events, all of which must be enabled. -/
def run? (r : Registry) (events : List Event) : Option Registry := events.foldlM step r

/-! ## Changes without interruption -/

/-- Changes the directory and shows its size. -/
def changeNow (r : Registry) (directory : Directory) : Registry :=
  { r with directory, shown := some directory.size }

/-- A serial for a new connection. -/
def issueSerial (r : Registry) : UInt64 × Registry :=
  (r.nextSerial, { r with nextSerial := r.nextSerial + 1 })

/-- Makes or replaces the entry of an identifier. -/
def add (r : Registry) (id : String) (handle : Handle) : Registry :=
  r.changeNow (r.directory.add id handle)

/-- Removes the entry of an identifier and gives it. -/
def remove (r : Registry) (id : String) : Option Handle × Registry :=
  (r.directory.find? id, r.changeNow (r.directory.remove id))

/-- Removes the entry of an identifier if it belongs to the connection of the given serial, and
says whether it did. -/
def release (r : Registry) (id : String) (serial : UInt64) : Bool × Registry :=
  (r.directory.belongs id serial, r.changeNow (r.directory.release id serial))

/-- What is shown of the registry. -/
def metrics (r : Registry) : Metrics :=
  match r.shown with
  | some n => [(.connectedClients, n)]
  | none => []

end Registry

end SealedGateway
