import SealedGateway.Net.Address
import Std.Data.TreeMap

/-!
# The directory of live connections

Which connection is reachable under an identifier, in the order of the identifiers. A connection
that reconnects under the same identifier takes the entry over; its serial tells the two apart, so
that the older one, when it ends, leaves the newer one's entry alone (**`Directory.release`**).
-/

namespace SealedGateway

/-- How to reach a live connection. -/
structure Handle where
  /-- No two connections have the same serial. -/
  serial : UInt64
  remote : SocketAddr
  /-- The second in which the connection was accepted. -/
  since : Nat
  deriving DecidableEq, Repr

/-- The live connections by identifier. -/
abbrev Directory := Std.TreeMap String Handle

namespace Directory

/-- A directory without entries. -/
def empty : Directory := ∅

/-- The entry of an identifier. -/
def find? (d : Directory) (id : String) : Option Handle := d[id]?

/-- The entries in the order of their identifiers. -/
def entries (d : Directory) : List (String × Handle) := d.toList

/-- The identifiers, in order. -/
def ids (d : Directory) : List String := d.keys

/-- Makes or replaces the entry of an identifier. -/
def add (d : Directory) (id : String) (handle : Handle) : Directory := d.insert id handle

/-- Removes the entry of an identifier, if there is one. -/
def remove (d : Directory) (id : String) : Directory := d.erase id

/-- Whether the entry of an identifier belongs to the connection of the given serial. -/
def belongs (d : Directory) (id : String) (serial : UInt64) : Bool :=
  match d.find? id with
  | some handle => handle.serial == serial
  | none => false

/-- Removes the entry of an identifier if it belongs to the connection of the given serial. -/
def release (d : Directory) (id : String) (serial : UInt64) : Directory :=
  if d.belongs id serial then d.remove id else d

theorem find?_add (d : Directory) (id : String) (handle : Handle) (k : String) :
    (d.add id handle).find? k = if id = k then some handle else d.find? k := by
  simp [find?, add, Std.TreeMap.getElem?_insert]

theorem find?_remove (d : Directory) (id k : String) :
    (d.remove id).find? k = if id = k then none else d.find? k := by
  simp [find?, remove, Std.TreeMap.getElem?_erase]

theorem mem_entries (d : Directory) (id : String) (handle : Handle) :
    (id, handle) ∈ d.entries ↔ d.find? id = some handle := by
  simp [entries, find?, Std.TreeMap.mem_toList_iff_getElem?_eq_some]

end Directory

end SealedGateway
