import SealedGateway.Broker.Channel
import SealedGateway.Proofs.Text.Split
import SealedGateway.Proofs.Wire

/-!
# Reading a payload

What is published of a message are five fields with bars between them. The fields are published as
they are, so who takes a payload apart at the bars finds them again just if they hold no bar
themselves.

- **`Message.published`**: the five fields.
- **`split_payload_iff`**: when a payload can be taken apart, and that nothing else has the payload
  of a message that can be.
- **`not_split_payload`**: with a bar in a field the pieces are others, and the payload can be that
  of another message.
-/

namespace SealedGateway.Message

/-- The fields of a message that are published, in their order. -/
def published (m : Message) : List String := [m.id, m.content, m.timestamp, m.sender, m.receiver]

/-- Whether no field that is published holds a bar. -/
def Plain (m : Message) : Prop := ∀ field ∈ m.published, '|' ∉ field.toList

instance (m : Message) : Decidable m.Plain :=
  inferInstanceAs (Decidable (∀ field ∈ m.published, '|' ∉ field.toList))

theorem toList_payload (m : Message) :
    m.payload.toList = ['|'].intercalate (m.published.map String.toList) :=
  String.toList_intercalate

theorem split_payload_eq_iff (m : Message) :
    split '|' m.payload.toList = m.published.map String.toList ↔ m.Plain := by
  rw [toList_payload, split_intercalate_iff (by simp [published]), Plain, List.forall_mem_map]

/-- The bars of a payload are those of its fields and four more. -/
theorem count_payload (m : Message) :
    m.payload.toList.count '|' = (m.published.map fun f => f.toList.count '|').sum + 4 := by
  have hpieces : m.published.map String.toList ≠ [] := by simp [published]
  have h := count_intercalate (c := '|') hpieces
  rw [← toList_payload, List.map_map, List.length_map] at h
  exact Nat.succ.inj h

theorem plain_iff_count_payload (m : Message) :
    m.Plain ↔ m.payload.toList.count '|' = 4 := by
  rw [count_payload, Nat.add_eq_right, List.sum_eq_zero_iff_forall_eq_nat, List.forall_mem_map]
  simp only [Plain, List.count_eq_zero]

/-- **Taking a payload apart.** The pieces between its bars are the five fields just if no field
holds a bar, and then no message with other fields has the same payload. -/
theorem split_payload_iff (m : Message) :
    (split '|' m.payload.toList =
        [m.id.toList, m.content.toList, m.timestamp.toList, m.sender.toList, m.receiver.toList] ↔
      ∀ field ∈ [m.id, m.content, m.timestamp, m.sender, m.receiver], '|' ∉ field.toList) ∧
    ((∀ field ∈ [m.id, m.content, m.timestamp, m.sender, m.receiver], '|' ∉ field.toList) →
      ∀ m' : Message, m'.payload = m.payload →
        m'.id = m.id ∧ m'.content = m.content ∧ m'.timestamp = m.timestamp ∧
          m'.sender = m.sender ∧ m'.receiver = m.receiver) := by
  refine ⟨m.split_payload_eq_iff, fun hplain m' heq => ?_⟩
  have hplain' : m'.Plain := by
    rw [plain_iff_count_payload, heq, ← plain_iff_count_payload]
    exact hplain
  have hfields : m'.published.map String.toList = m.published.map String.toList := by
    rw [← m'.split_payload_eq_iff.mpr hplain', heq, m.split_payload_eq_iff.mpr hplain]
  simpa [published, String.toList_inj] using hfields

namespace Sample

/-- A message whose text holds no bar. -/
def greeting : Message := ⟨"hi", "t1", "u1", .direct, "u2", "m1"⟩

/-- A message whose text ends like a time. -/
def early : Message := ⟨"hi|t0", "t1", "u1", .direct, "u2", "m1"⟩

/-- A message whose time begins like a text. -/
def late : Message := ⟨"hi", "t0|t1", "u1", .direct, "u2", "m1"⟩

end Sample

/-- The pieces of a payload without a bar in its fields. -/
theorem split_payload_greeting :
    split '|' Sample.greeting.payload.toList = ["m1", "hi", "t1", "u1", "u2"].map String.toList ∧
      ∀ m' : Message, m'.payload = Sample.greeting.payload → m'.content = "hi" := by
  have hplain : Sample.greeting.Plain := by decide
  obtain ⟨hsplit, hunique⟩ := split_payload_iff Sample.greeting
  exact ⟨hsplit.mpr hplain, fun m' heq => (hunique hplain m' heq).2.1⟩

/-- Messages that were read, with a channel, can have other pieces than their fields, and two of
them that differ can have the same payload. -/
theorem not_split_payload :
    (¬ ∀ data m, decode data = .ok m → m.audience.channel.isSome = true →
      split '|' m.payload.toList =
        [m.id.toList, m.content.toList, m.timestamp.toList, m.sender.toList,
          m.receiver.toList]) ∧
    ¬ ∀ data data' m m', decode data = .ok m → decode data' = .ok m' →
      m.audience.channel.isSome = true → m'.audience.channel.isSome = true →
      m.payload = m'.payload → m.content = m'.content := by
  have hearly : decode Sample.early.encode = .ok Sample.early :=
    decode_encode_of_canonical Audience.canonical_of_known.1
  have hlate : decode Sample.late.encode = .ok Sample.late :=
    decode_encode_of_canonical Audience.canonical_of_known.1
  refine ⟨fun hall => ?_, fun hall => ?_⟩
  · have hplain : Sample.early.Plain :=
      Sample.early.split_payload_eq_iff.mp (hall _ _ hearly rfl)
    exact absurd hplain (by decide)
  · have heq : Sample.early.payload = Sample.late.payload := by decide
    exact absurd (hall _ _ _ _ hearly hlate rfl rfl heq) (by decide)

end SealedGateway.Message
