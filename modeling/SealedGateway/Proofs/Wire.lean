import SealedGateway.Wire.Ack
import SealedGateway.Wire.Message
import SealedGateway.Proofs.Wire.Spelling

/-!
# Documents of the protocol read back what they wrote

Each document is a record of named texts, so its round trip is `Json.record?_printRecord` at its
own members, and then a look at the fields that were read. An envelope is written in one of its
spellings, and all of them are read.

- **`Ack.decode_encode`** and **`Frame.decode_encode`**: the reader gives the value back.
- **`Message.decode_encode`**: it gives the message back up to its audience, which may be spelled
  in more than one way; `Audience.Canonical` are those that keep their spelling.
-/

namespace SealedGateway

open Json (Part)

namespace Ack

/-- The members of an acknowledgement as it is written. -/
def members (a : Ack) : List Part :=
  [.ofText "type" a.kind, .ofText "msg" a.note, .ofText "serverPubKey" a.serverKey]

theorem readable_members (a : Ack) : Json.Readable fieldNames a.members where
  known := by simp [members, Part.ofText, fieldNames]
  reads := by simp [members, Part.ofText, Json.Reads.quote]
  nodup := by simp [members, Part.ofText]

theorem decode_encode (a : Ack) : decode (Utf8.encode a.encode) = .ok a := by
  have htext : a.encode = Json.printRecord (a.members.map Part.field) := rfl
  have hfields : ofFields? (a.members.map Part.member).reverse = some a := by
    simp [members, Part.ofText, Part.member, ofFields?, Json.Fields.text?, List.lookup_cons]
  rw [decode, htext, Json.record?_printRecord a.readable_members]
  simp only [Option.bind_eq_bind, Option.bind_some, hfields]

end Ack

namespace Envelope

/-- The package can be written and read back. -/
def Packable (e : Envelope) : Prop :=
  Json.Reads (Json.maxDepth - 1) e.package.print e.package

/-- The members of an envelope as it is written. -/
def members (e : Envelope) : List Part :=
  [.ofText "type" e.kind, ⟨"pkg", e.package.print, e.package⟩] ++
    (e.nonce.map fun n => Part.ofText "iv" n).toList

theorem text_eq (e : Envelope) : e.text = Json.printRecord (e.members.map Part.field) := by
  rw [text, members, List.map_append]
  cases e.nonce <;> rfl

theorem readable_members {e : Envelope} (h : e.Packable) :
    Json.Readable fieldNames e.members where
  known := by cases hn : e.nonce <;> simp [members, hn, Part.ofText, fieldNames]
  reads := by
    rw [Packable] at h
    cases hn : e.nonce <;> simp [members, hn, Part.ofText, Json.Reads.quote, h]
  nodup := by cases hn : e.nonce <;> simp [members, hn, Part.ofText]

/-- What is written is a spelling. -/
theorem spelled_text {e : Envelope} (h : e.Packable) : e.Spelled (Utf8.encode e.text) := by
  have hrecord := Json.record_printRecord (readable_members h)
  rw [← text_eq] at hrecord
  obtain ⟨kind, package, nonce⟩ := e
  cases nonce with
  | none => exact .intro hrecord (.member package) .omitted (.refl _)
  | some n => exact .intro hrecord (.member package) (.member n) (.refl _)

theorem decode_text {e : Envelope} (h : e.Packable) : decode (Utf8.encode e.text) = .ok e :=
  decode_spelled (spelled_text h)

end Envelope

namespace Frame

/-- A frame that its envelope determines: an unknown kind is none of the known ones. -/
def Distinct : Frame → Prop
  | unknown k => k ≠ handshakeTag ∧ k ≠ sealedTag
  | _ => True

theorem packable_toEnvelope (f : Frame) : f.toEnvelope.Packable := by
  cases f with
  | handshake k => exact Json.Reads.quote k
  | «sealed» c n => exact Json.Reads.quote c
  | unknown k => exact Json.Reads.null

theorem ofEnvelope_toEnvelope {f : Frame} (h : f.Distinct) : ofEnvelope f.toEnvelope = .ok f := by
  cases f with
  | handshake k => rfl
  | «sealed» c n => rfl
  | unknown k =>
    rw [ofEnvelope, toEnvelope, if_neg h.1, if_neg h.2]

theorem decode_encode {f : Frame} (h : f.Distinct) : decode (Utf8.encode f.encode) = .ok f := by
  rw [decode, encode, Envelope.decode_text f.packable_toEnvelope]
  exact ofEnvelope_toEnvelope h

end Frame

namespace Message

/-- The members of a message as it is written. -/
def members (m : Message) : List Part :=
  [.ofText "content" m.content, .ofText "timestamp" m.timestamp, .ofText "senderID" m.sender,
    .ofText "messageType" m.audience.text, .ofText "receiverID" m.receiver,
    .ofText "messageID" m.id]

theorem readable_members (m : Message) : Json.Readable fieldNames m.members where
  known := by simp [members, Part.ofText, fieldNames]
  reads := by simp [members, Part.ofText, Json.Reads.quote]
  nodup := by simp [members, Part.ofText]

theorem decode_encode (m : Message) :
    decode m.encode = .ok { m with audience := .ofText m.audience.text } := by
  have htext : m.text = Json.printRecord (m.members.map Part.field) := rfl
  have hfields : ofFields? (m.members.map Part.member).reverse =
      some { m with audience := .ofText m.audience.text } := by
    simp [members, Part.ofText, Part.member, ofFields?, Json.Fields.text?, List.lookup_cons]
  rw [decode, encode, htext, Json.record?_printRecord m.readable_members]
  simp only [Option.bind_eq_bind, Option.bind_some, hfields]

end Message

/-- An audience that reading its spelling gives back. -/
def Audience.Canonical (a : Audience) : Prop := ofText a.text = a

instance (a : Audience) : Decidable a.Canonical := inferInstanceAs (Decidable (_ = _))

theorem Audience.canonical_of_known :
    direct.Canonical ∧ group.Canonical ∧ broadcast.Canonical := by
  decide +kernel

/-- Every audience that is read is canonical. -/
theorem Audience.canonical_ofText (raw : String) : (ofText raw).Canonical := by
  obtain ⟨hdirect, hgroup, hbroadcast⟩ := canonical_of_known
  generalize ha : ofText raw = a
  cases a with
  | direct => exact hdirect
  | group => exact hgroup
  | broadcast => exact hbroadcast
  | other raw' =>
    -- A kind outside the closed set keeps the text that was read.
    have hraw : raw' = raw := by
      simp only [ofText] at ha
      split at ha
      · cases ha
      · split at ha
        · cases ha
        · split at ha <;> cases ha
          rfl
    rw [Canonical, text, hraw, ha, hraw]

theorem Message.decode_encode_of_canonical {m : Message} (h : m.audience.Canonical) :
    decode m.encode = .ok m := by
  rw [decode_encode, show Audience.ofText m.audience.text = m.audience from h]

end SealedGateway
