import SealedGateway.Broker.Publisher

/-!
# What a publisher is asked for

A message asks for one publication or none (**`Message.publication?`**), and is not tried again. So
forwarding it adds that to what the broker was asked for, and to what it published unless it
refuses.
-/

namespace SealedGateway

/-- The publication of a message, if its audience has a channel. -/
def Message.publication? (m : Message) : Option Publication :=
  m.audience.channel.map fun channel => (channel, m.payload)

namespace Publisher

variable (p : Publisher) (m : Message)

/-- A publisher that is asked for what a message asks for. -/
theorem forward_eq : (p.forward m).2 =
    { p with
      asked := p.asked ++ m.publication?.toList
      published := p.published ++ if p.refuses then [] else m.publication?.toList } := by
  cases hm : m.audience.channel with
  | none => simp [forward, Message.publication?, hm]
  | some channel =>
    simp only [forward, publish, Message.publication?, hm]
    split <;> simp

theorem forward_asked : (p.forward m).2.asked = p.asked ++ m.publication?.toList := by
  rw [forward_eq]

theorem forward_published : (p.forward m).2.published =
    p.published ++ if p.refuses then [] else m.publication?.toList := by
  rw [forward_eq]

@[simp] theorem forward_refuses : (p.forward m).2.refuses = p.refuses := by
  rw [forward_eq]

@[simp] theorem forward_closed : (p.forward m).2.closed = p.closed := by
  rw [forward_eq]

end Publisher

end SealedGateway
