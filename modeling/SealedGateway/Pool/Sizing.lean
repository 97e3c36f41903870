import SealedGateway.Failure

/-!
# The size of a worker pool

- **`Sizing.fault?`** says which sizes a pool cannot honour, and which of several faults is named.
- **`Capacity.isValid`** says for how many items a bounded queue can be made. The longest queue is
  no matter of sizes: it is found out when the queue is made.
- **`Sizing.scaled`** is the controller's rule. A pool grows by one when more jobs wait than it has
  workers, and shrinks by one when more than one worker would sit idle. **`Sizing.scaledWord?`** is
  the same rule in machine words.
-/

namespace SealedGateway

namespace Capacity

/-- The most items that a bounded queue can be made for. -/
def greatest : Nat := Nat.pow 2 61 - 1

/-- Whether a bounded queue can be made for so many items. -/
def isValid (n : Nat) : Bool := 1 ≤ n && n ≤ greatest

end Capacity

/-- How many workers a pool may have, how many jobs may wait, and how often it is resized. -/
structure Sizing where
  minWorkers : Nat
  maxWorkers : Nat
  queueSize : Nat
  /-- Milliseconds between two looks of the controller. -/
  interval : Nat
  deriving DecidableEq, Repr

namespace Sizing

/-- A size that a pool cannot honour. -/
inductive Fault where
  | noWorkers
  | boundsCrossed (minWorkers maxWorkers : Nat)
  | noQueue
  | noInterval
  deriving DecidableEq, Repr

/-- The wording of a fault. -/
def Fault.message : Fault → String
  | noWorkers => "pool.min_workers must be at least 1"
  | boundsCrossed lo hi =>
    "pool.min_workers (" ++ toString lo ++ ") exceeds pool.max_workers (" ++ toString hi ++ ")"
  | noQueue => "pool.queue_size must be at least 1"
  | noInterval => "pool.scale_interval_ms must be positive"

/-- The first fault, if there is one. -/
def fault? (s : Sizing) : Option Fault :=
  if s.minWorkers = 0 then some .noWorkers
  else if s.maxWorkers < s.minWorkers then some (.boundsCrossed s.minWorkers s.maxWorkers)
  else if s.queueSize = 0 then some .noQueue
  else if s.interval = 0 then some .noInterval
  else none

/-- Refuses sizes that a pool cannot honour. -/
def check (s : Sizing) : Except Failure Unit :=
  match s.fault? with
  | some f => .error (.other f.message)
  | none => .ok ()

/-- The nearest number of workers that the bounds admit. -/
def clamp (s : Sizing) (n : Nat) : Nat := min (max n s.minWorkers) s.maxWorkers

/-- The number of workers that the controller asks for, if it asks for another one. -/
def scaled (s : Sizing) (backlog active : Nat) : Option Nat :=
  if active < backlog ∧ active < s.maxWorkers then some (active + 1)
  else if backlog + 1 < active ∧ s.minWorkers < active then some (active - 1)
  else none

/-- Sizes without a fault are in order and positive. -/
theorem fault?_eq_none_iff {s : Sizing} :
    s.fault? = none ↔
      1 ≤ s.minWorkers ∧ s.minWorkers ≤ s.maxWorkers ∧ 1 ≤ s.queueSize ∧ 1 ≤ s.interval := by
  unfold fault?
  split
  · simp; omega
  · split
    · simp; omega
    · split
      · simp; omega
      · split <;> simp <;> omega

/-! ## Machine words -/

/-- The sum of two words, if it is one. -/
def add? (x y : UInt64) : Option UInt64 :=
  if x.toNat + y.toNat < UInt64.size then some (x + y) else none

/-- The difference of two words, if it is one. -/
def sub? (x y : UInt64) : Option UInt64 := if y ≤ x then some (x - y) else none

/-- The controller's rule in machine words. The backlog is what is not free of the queue's capacity.
There is no result if a sum or a difference that the rule needs is not a word. -/
def scaledWord? (lo hi capacity free active : UInt64) : Option (Option UInt64) := do
  let backlog ← sub? capacity free
  if active < backlog ∧ active < hi then
    let target ← add? active 1
    return some target
  else
    let above ← add? backlog 1
    if above < active ∧ lo < active then
      let target ← sub? active 1
      return some target
    else return none

end Sizing

end SealedGateway
