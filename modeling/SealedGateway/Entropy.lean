import SealedGateway.Bytes

/-!
# Entropy

The random octets that keys and nonces are drawn from, as a queue of the octets still to come. A
draw that the queue cannot fill gives zeros and leaves the queue as it is.
-/

namespace SealedGateway

/-- Random octets that are still to be drawn, the next one first. -/
structure Entropy where
  queue : Bytes
  deriving DecidableEq, Repr, Inhabited

namespace Entropy

/-- Draws `n` octets. -/
def draw (n : Nat) (e : Entropy) : Octets n × Entropy :=
  if h : n ≤ e.queue.length then (.take n e.queue h, ⟨e.queue.drop n⟩) else (.zero n, e)

end Entropy

end SealedGateway
