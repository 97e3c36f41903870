import SealedGateway.Wire.Frame
import SealedGateway.Proofs.Json.Record

/-!
# How an envelope is spelled does not count

Clients choose the order of the members, the blanks, the escapes, and what else they send along. An
envelope is spelled by every record text that has its members in any order, where a null package and
a missing nonce may be left out (**`Envelope.Spelled`**).

- **`Envelope.decode_spelled`**: every spelling is read as the envelope.
- **`decode_any_spelling`**: so the frame that is read depends on the values of the envelope only.
-/

namespace SealedGateway

namespace Envelope

open Json (Fields)
open Json.Grammar (Record)

/-- The members that stand for a package: a null one may be left out. -/
inductive PackageFields : Json → Fields → Prop where
  | member (v : Json) : PackageFields v [("pkg", v)]
  | omitted : PackageFields .null []

/-- The members that stand for a nonce: where there is none, it is null or left out. -/
inductive NonceFields : Option String → Fields → Prop where
  | member (n : String) : NonceFields (some n) [("iv", .string n)]
  | null : NonceFields none [("iv", .null)]
  | omitted : NonceFields none []

/-- The octets are an object text with the members of the envelope, in any order and among any
others. -/
inductive Spelled (e : Envelope) (data : Bytes) : Prop where
  | intro {fields package nonce : Fields} (hrecord : Record fieldNames data fields)
      (hpackage : PackageFields e.package package) (hnonce : NonceFields e.nonce nonce)
      (horder : fields.Perm (("type", .string e.kind) :: (package ++ nonce)))

variable {e : Envelope} {data : Bytes} {fields package nonce : Fields}

/-- Only what is found under the names of the fields counts. -/
theorem ofFields?_congr {fields' : Fields} (h : ∀ name, fields.lookup name = fields'.lookup name) :
    ofFields? fields = ofFields? fields' := by
  simp only [ofFields?, Fields.text?, Fields.optionalText?, Fields.valueOrNull, h]

theorem ofFields?_members (hpackage : PackageFields e.package package)
    (hnonce : NonceFields e.nonce nonce) :
    ofFields? (("type", .string e.kind) :: (package ++ nonce)) = some e := by
  obtain ⟨kind, v, n⟩ := e
  cases hpackage <;> cases hnonce <;> rfl

theorem nodup_members (hpackage : PackageFields e.package package)
    (hnonce : NonceFields e.nonce nonce) :
    ((("type", Json.string e.kind) :: (package ++ nonce)).map Prod.fst).Nodup := by
  obtain ⟨kind, v, n⟩ := e
  cases hpackage <;> cases hnonce <;> simp

/-- Every spelling is read as the envelope. -/
theorem decode_spelled (h : e.Spelled data) : decode data = .ok e := by
  cases h with
  | @intro fields package nonce hrecord hpackage hnonce horder =>
    have hperm : fields.reverse.Perm (("type", .string e.kind) :: (package ++ nonce)) :=
      (List.reverse_perm fields).trans horder
    have hnodup : (fields.reverse.map Prod.fst).Nodup :=
      (hperm.map Prod.fst).nodup_iff.mpr (nodup_members hpackage hnonce)
    have hfields : ofFields? fields.reverse = some e :=
      (ofFields?_congr (Fields.lookup_perm hperm hnodup)).trans (ofFields?_members hpackage hnonce)
    rw [decode, Json.record?_record hrecord, Option.bind_eq_bind, Option.bind_some, hfields]

end Envelope

namespace Frame

variable {e : Envelope} {data : Bytes}

theorem ofEnvelope_handshake {s : String} (hkind : e.kind = handshakeTag)
    (hpackage : e.package = .string s) : ofEnvelope e = .ok (.handshake s) := by
  rw [ofEnvelope, if_pos hkind, hpackage]
  rfl

theorem ofEnvelope_sealed {s : String} (hkind : e.kind = sealedTag)
    (hpackage : e.package = .string s) : ofEnvelope e = .ok (.sealed s e.nonce) := by
  have hne : e.kind ≠ handshakeTag := by
    rw [hkind]
    decide
  rw [ofEnvelope, if_neg hne, if_pos hkind, hpackage]
  rfl

theorem packageText_of_ne {v : Json} (tag : String) (h : ∀ s, v ≠ .string s) :
    packageText tag v =
      .error (.invalidMessage (tag ++ " pkg must be a base64 string, got " ++ v.typeName)) := by
  cases v with
  | string s => exact absurd rfl (h s)
  | _ => rfl

theorem ofEnvelope_refused (hkind : e.kind = handshakeTag ∨ e.kind = sealedTag)
    (hpackage : ∀ s, e.package ≠ .string s) :
    ofEnvelope e = .error (.invalidMessage
      (e.kind ++ " pkg must be a base64 string, got " ++ e.package.typeName)) := by
  rw [ofEnvelope]
  by_cases h : e.kind = handshakeTag
  · rw [if_pos h, packageText_of_ne _ hpackage, h]
    rfl
  · have h' : e.kind = sealedTag := hkind.resolve_left h
    rw [if_neg h, if_pos h', packageText_of_ne _ hpackage, h']
    rfl

theorem ofEnvelope_unknown (hhandshake : e.kind ≠ handshakeTag) (hsealed : e.kind ≠ sealedTag) :
    ofEnvelope e = .ok (.unknown e.kind) := by
  rw [ofEnvelope, if_neg hhandshake, if_neg hsealed]

/-- **The frame that is read depends on the values of the envelope only.** -/
theorem decode_any_spelling (h : e.Spelled data) :
    (∀ data', e.Spelled data' → decode data' = decode data) ∧
    (∀ s, e.kind = "Handshake" → e.package = .string s → decode data = .ok (.handshake s)) ∧
    (∀ s, e.kind = "MessagePkg" → e.package = .string s →
      decode data = .ok (.sealed s e.nonce)) ∧
    (e.kind = "Handshake" ∨ e.kind = "MessagePkg" → (∀ s, e.package ≠ .string s) →
      decode data = .error (.invalidMessage
        (e.kind ++ " pkg must be a base64 string, got " ++ e.package.typeName))) ∧
    (e.kind ≠ "Handshake" → e.kind ≠ "MessagePkg" → decode data = .ok (.unknown e.kind)) := by
  have hdecode : ∀ {data'}, e.Spelled data' → decode data' = ofEnvelope e := by
    intro data' h'
    rw [decode, Envelope.decode_spelled h']
    rfl
  refine ⟨fun data' h' => (hdecode h').trans (hdecode h).symm, ?_⟩
  rw [hdecode h]
  exact ⟨fun s => ofEnvelope_handshake, fun s => ofEnvelope_sealed, ofEnvelope_refused,
    ofEnvelope_unknown⟩

namespace Sample

open Json Json.Grammar

/-- A sealed message without a nonce. -/
def envelope : Envelope := ⟨"MessagePkg", .string "AA", none⟩

/-- Its members are in another order, one of them with an escape in its key, and there is one that
holds half a surrogate pair and a number that is too large. -/
def spelling : Bytes :=
  Utf8.encode ("\x7b\"x\" : [\x7b\"\\ud800\":1e999\x7d, []] ,\"pkg\":\"AA\",\n" ++
    "\"\\u0074ype\":\"MessagePkg\"\x7d\n")

/-- A member of the object that is passed over. -/
def half : Pair Unit Unit :=
  ⟨bare [Ascii.quote, Ascii.backslash, Ascii.lowerU, 0x64, 0x38, 0x30, 0x30, Ascii.quote] (),
    bare [0x31, Ascii.lowerE, 0x39, 0x39, 0x39] ()⟩

/-- The items that are passed over. -/
def items : List (Slot Unit) :=
  [bare (Ascii.openBrace :: (commas [half.octets] ++ [Ascii.closeBrace])) (),
    ⟨[Ascii.space], [Ascii.openBracket, Ascii.closeBracket], [], (), by decide, by decide⟩]

theorem ignored_items :
    Ignored (Ascii.openBracket :: (commas (items.map Slot.octets) ++ [Ascii.closeBracket])) := by
  have hnumber : Ignored half.value.text :=
    .number (.positive (w := [0x31]) ⟨⟨by decide, List.all_eq_true.mp rfl⟩, by decide⟩ .absent
      (.letter (.inl rfl) .absent ⟨by decide, List.all_eq_true.mp rfl⟩))
  have hkey : half.HasMarks := ⟨_, rfl, .unit rfl .closed⟩
  have hobject := Ignored.object (List.cons_ne_nil half []) (List.forall_mem_singleton.mpr hkey)
    (List.forall_mem_singleton.mpr hnumber)
  have hempty := Ignored.emptyArray blanks_nil
  exact .array (List.cons_ne_nil _ _) (List.forall_mem_cons.mpr
    ⟨hobject, List.forall_mem_singleton.mpr hempty⟩)

/-- The member that is passed over. -/
def extra : Pair String Unit :=
  ⟨⟨[], Ascii.quote :: literal "x", [Ascii.space], "x", by decide, by decide⟩,
    ⟨[Ascii.space], Ascii.openBracket :: (commas (items.map Slot.octets) ++ [Ascii.closeBracket]),
      [Ascii.space], (), by decide, by decide⟩⟩

/-- The member with the package. -/
def package : Pair String Json :=
  ⟨bare (Ascii.quote :: literal "pkg") "pkg", bare (Ascii.quote :: literal "AA") (.string "AA")⟩

/-- The key of the member with the tag, behind its opening quotation mark. -/
def tagText : Bytes := [Ascii.backslash, Ascii.lowerU, 0x30, 0x30, 0x37, 0x34] ++ literal "ype"

theorem text_tag : Text tagText "type".toList := by
  have hletter : Character [Ascii.backslash, Ascii.lowerU, 0x30, 0x30, 0x37, 0x34] 't' :=
    .unit rfl rfl rfl
  have htype : "type".toList = 't' :: "ype".toList := by decide
  rw [htype]
  exact .more hletter (text_literal "ype")

/-- The member with the tag. -/
def tag : Pair String Json :=
  ⟨⟨[Ascii.lineFeed], Ascii.quote :: tagText, [], "type", by decide, by decide⟩,
    bare (Ascii.quote :: literal "MessagePkg") (.string "MessagePkg")⟩

theorem spelled : envelope.Spelled spelling := by
  have hextra : Entry Envelope.fieldNames extra.octets [] :=
    .foreign ⟨_, rfl, text_literal "x"⟩ (by decide) ignored_items
  have hpackage : Entry Envelope.fieldNames package.octets [package.member] :=
    .field ⟨_, rfl, text_literal "pkg"⟩ (by decide) (.string (text_literal "AA"))
  have htag : Entry Envelope.fieldNames tag.octets [tag.member] :=
    .field ⟨_, rfl, text_tag⟩ (by decide) (.string (text_literal "MessagePkg"))
  let entries : List (Bytes × Fields) :=
    [(extra.octets, []), (package.octets, [package.member]), (tag.octets, [tag.member])]
  have hentries : ∀ e ∈ entries, Entry Envelope.fieldNames e.1 e.2 := by
    simp only [entries, List.forall_mem_cons]
    exact ⟨hextra, hpackage, htag, nofun⟩
  have hspelling : spelling = [] ++ Ascii.openBrace ::
      (commas (entries.map Prod.fst) ++ Ascii.closeBrace :: [Ascii.lineFeed]) := by
    decide
  have hend : Blanks [Ascii.lineFeed] := by decide
  have hrecord := Record.members blanks_nil hend (List.cons_ne_nil _ _) hentries (by decide)
  rw [← hspelling] at hrecord
  exact .intro hrecord (.member _) .omitted (List.Perm.swap _ _ [])

end Sample

theorem decode_any_spelling_reordered :
    Sample.envelope.Spelled Sample.spelling ∧
      decode Sample.spelling = .ok (.sealed "AA" none) :=
  ⟨Sample.spelled, (decode_any_spelling Sample.spelled).2.2.1 "AA" rfl rfl⟩

end Frame

end SealedGateway
