import Mathlib.Data.List.Forall2
import SealedGateway.Broker.Channel
import SealedGateway.Proofs.Wire

/-!
# Messages and the spellings of their audience

A message is read back as it was written, except for a kind outside the closed set that is spelled
like one of the set. Such a kind cannot come from reading, so what was read is read back as it is.

- **`Audience.foldCase_eq_iff`**: folding the case gives a word just if the text is the word, letter
  by letter, in either case.
- **`Audience.ofText_of_spelling`**, **`Audience.ofText_of_not_spelling`**: what a text is read as.
- **`Message.codec_canonical`**: the round trip, its exceptions, and the channels of those.
-/

namespace SealedGateway

namespace Audience

/-! ## Spellings -/

/-- The words of the closed set, with the kinds they stand for. -/
def words : List (String × Audience) :=
  [("dm", direct), ("direct", direct), ("group", group), ("broadcast", broadcast)]

/-- The text is the word in capital and small letters. -/
def Spelling (word raw : String) : Prop :=
  List.Forall₂ (fun w c => c = w ∨ c = w.toUpper) word.toList raw.toList

instance (word raw : String) : Decidable (Spelling word raw) :=
  inferInstanceAs (Decidable (List.Forall₂ ..))

theorem toNat_toLower (c : Char) :
    c.toLower.toNat = if 65 ≤ c.toNat ∧ c.toNat ≤ 90 then c.toNat + 32 else c.toNat := by
  have hcode : (c.val ≥ 'A'.val ∧ c.val ≤ 'Z'.val) ↔ (65 ≤ c.toNat ∧ c.toNat ≤ 90) := Iff.rfl
  delta Char.toLower
  simp only [hcode]
  split
  · rename_i h
    change 65 ≤ c.val.toNat ∧ c.val.toNat ≤ 90 at h
    change (c.val.toNat + 32) % 2 ^ 32 = c.val.toNat + 32
    omega
  · rfl

theorem isLower_iff {w : Char} : w.isLower = true ↔ 'a'.val ≤ w.val ∧ w.val ≤ 'z'.val := by
  have hlower : w.isLower = (decide ('a'.val ≤ w.val) && decide (w.val ≤ 'z'.val)) := rfl
  rw [hlower, Bool.and_eq_true, decide_eq_true_eq, decide_eq_true_eq]

theorem toNat_toUpper {w : Char} (hw : w.isLower = true) : w.toUpper.toNat = w.toNat - 32 := by
  have hcode : 97 ≤ w.val.toNat ∧ w.val.toNat ≤ 122 := isLower_iff.mp hw
  delta Char.toUpper
  rw [dif_pos (isLower_iff.mp hw)]
  -- The way from small letters down to capitals is an addition that wraps.
  have hstep : ('A'.val - 'a'.val).toNat = 4294967264 := by decide
  change (w.val + ('A'.val - 'a'.val)).toNat = w.val.toNat - 32
  rw [UInt32.toNat_add, hstep]
  omega

theorem toLower_eq_iff {w c : Char} (hw : w.isLower = true) :
    c.toLower = w ↔ c = w ∨ c = w.toUpper := by
  have hsmall : 97 ≤ w.toNat ∧ w.toNat ≤ 122 := isLower_iff.mp hw
  rw [← Char.toNat_inj, ← Char.toNat_inj, ← Char.toNat_inj, toNat_toLower, toNat_toUpper hw]
  split <;> omega

theorem map_toLower_eq_iff {ws cs : List Char} (hws : ∀ w ∈ ws, w.isLower = true) :
    cs.map Char.toLower = ws ↔ List.Forall₂ (fun w c => c = w ∨ c = w.toUpper) ws cs := by
  induction ws generalizing cs with
  | nil => rw [List.map_eq_nil_iff, List.forall₂_nil_left_iff]
  | cons w ws ih =>
    obtain ⟨hw, hws⟩ := List.forall_mem_cons.mp hws
    cases cs with
    | nil => simp
    | cons c cs => rw [List.map_cons, List.cons.injEq, List.forall₂_cons, toLower_eq_iff hw, ih hws]

theorem foldCase_eq_iff {word raw : String} (hword : ∀ w ∈ word.toList, w.isLower = true) :
    foldCase raw = word ↔ Spelling word raw := by
  rw [foldCase, ← String.toList_inj, String.toList_map, map_toLower_eq_iff hword, Spelling]

theorem ofText_eq_lookup (raw : String) :
    ofText raw = (words.lookup (foldCase raw)).getD (other raw) := by
  unfold ofText
  generalize foldCase raw = folded
  by_cases hdm : folded = "dm"
  · rw [if_pos (.inl hdm), hdm]
    rfl
  by_cases hdirect : folded = "direct"
  · rw [if_pos (.inr hdirect), hdirect]
    rfl
  rw [if_neg (by tauto)]
  by_cases hgroup : folded = "group"
  · rw [if_pos hgroup, hgroup]
    rfl
  rw [if_neg hgroup]
  by_cases hbroadcast : folded = "broadcast"
  · rw [if_pos hbroadcast, hbroadcast]
    rfl
  simp only [if_neg hbroadcast, words, List.lookup_cons, beq_false_of_ne hdm,
    beq_false_of_ne hdirect, beq_false_of_ne hgroup, beq_false_of_ne hbroadcast]
  rfl

theorem isLower_of_mem_words {entry : String × Audience} (h : entry ∈ words) :
    ∀ w ∈ entry.1.toList, w.isLower = true := by
  have hall : ∀ entry ∈ words, entry.1.toList.all Char.isLower = true := by decide
  exact List.all_eq_true.mp (hall entry h)

/-- A text that spells a word is read as the word's kind. -/
theorem ofText_of_spelling {entry : String × Audience} (hentry : entry ∈ words) {raw : String}
    (h : Spelling entry.1 raw) : ofText raw = entry.2 := by
  have hlookup : ∀ entry ∈ words, words.lookup entry.1 = some entry.2 := by decide
  have hfold := (foldCase_eq_iff (isLower_of_mem_words hentry)).mpr h
  rw [ofText_eq_lookup, hfold, hlookup entry hentry, Option.getD_some]

/-- A text that spells none of the words is kept. -/
theorem ofText_of_not_spelling {raw : String} (h : ∀ entry ∈ words, ¬Spelling entry.1 raw) :
    ofText raw = other raw := by
  have hlookup : words.lookup (foldCase raw) = none := by
    refine List.lookup_eq_none_iff.mpr fun entry hentry => bne_iff_ne.mpr fun hfold => ?_
    exact h entry hentry ((foldCase_eq_iff (isLower_of_mem_words hentry)).mp hfold)
  rw [ofText_eq_lookup, hlookup, Option.getD_none]

/-- Only a kind that is spelled like one of the closed set is not canonical. -/
theorem not_canonical_iff {a : Audience} :
    ¬a.Canonical ↔ ∃ raw, a = other raw ∧ ∃ entry ∈ words, Spelling entry.1 raw := by
  obtain ⟨hdirect, hgroup, hbroadcast⟩ := canonical_of_known
  cases a with
  | direct => simp [hdirect]
  | group => simp [hgroup]
  | broadcast => simp [hbroadcast]
  | other raw =>
    have hknown : ∀ entry ∈ words, ∀ raw, entry.2 ≠ other raw := by simp [words]
    simp only [other.injEq, exists_eq_left', Canonical, text]
    constructor
    · intro hread
      by_contra hnone
      push Not at hnone
      exact hread (ofText_of_not_spelling hnone)
    · rintro ⟨entry, hentry, hspelling⟩
      rw [ofText_of_spelling hentry hspelling]
      exact hknown entry hentry raw

end Audience

namespace Message

/-- The message that is read back: its kind is read off its spelling. -/
def readBack (m : Message) : Message := { m with audience := .ofText m.audience.text }

theorem readBack_ne_iff {m : Message} : m.readBack ≠ m ↔ ¬m.audience.Canonical := by
  obtain ⟨content, timestamp, sender, audience, receiver, id⟩ := m
  simp [readBack, Audience.Canonical]

/-- The kind of a message that was read is what its spelling is read as. -/
theorem audience_of_decode {data : Bytes} {m : Message} (h : decode data = .ok m) :
    ∃ raw, m.audience = .ofText raw := by
  rw [decode] at h
  split at h
  · rename_i m' hm
    obtain rfl := Except.ok.inj h
    simp only [Option.bind_eq_bind, Option.bind_eq_some_iff, ofFields?] at hm
    obtain ⟨_, _, _, _, _, _, _, _, raw, _, _, _, _, _, hm⟩ := hm
    exact ⟨raw, by rw [← Option.some.inj hm]⟩
  · cases h

/-- **Messages are read back, and a kind is one text.** A message is read back with its kind read
off its spelling, and a kind that was read off a text is read off its own spelling again. A kind is
displayed, put into JSON and sent as the same text. So a message that was read is read back as it
is, and any other is read back as it is unless its kind, kept from outside the closed set, spells a
word of the set in capital and small letters. Then it had no channel, and gets that of the word. -/
theorem codec_canonical :
    (∀ m : Message, decode m.encode = .ok m.readBack) ∧
    (∀ raw, Audience.ofText (Audience.ofText raw).text = .ofText raw) ∧
    (∀ a : Audience, toString a = a.text ∧ Json.Spells a.json (.string a.text)) ∧
    (∀ data m, decode data = .ok m → decode m.encode = .ok m) ∧
    (∀ m : Message, m.readBack ≠ m ↔
      ∃ raw, m.audience = .other raw ∧ ∃ entry ∈ Audience.words, Audience.Spelling entry.1 raw) ∧
    ∀ (m : Message) (raw : String), m.audience = .other raw →
      ∀ entry ∈ Audience.words, Audience.Spelling entry.1 raw →
        m.audience.channel = none ∧ m.readBack.audience = entry.2 ∧
          m.readBack.audience.channel = entry.2.channel ∧ entry.2.channel ≠ none := by
  refine ⟨decode_encode, Audience.canonical_ofText, fun a => ⟨by cases a <;> rfl, ?_⟩,
    fun data m h => ?_, fun m => ?_, fun m raw hm entry hentry hspelling => ?_⟩
  · exact Json.spells_quote a.text
  · obtain ⟨raw, hraw⟩ := audience_of_decode h
    exact decode_encode_of_canonical (hraw ▸ Audience.canonical_ofText raw)
  · rw [readBack_ne_iff, Audience.not_canonical_iff]
  · have hread : m.readBack.audience = entry.2 := by
      rw [readBack, hm]
      exact Audience.ofText_of_spelling hentry hspelling
    have hchannel : ∀ entry ∈ Audience.words, entry.2.channel ≠ none := by decide
    exact ⟨by rw [hm]; rfl, hread, by rw [hread], hchannel entry hentry⟩

namespace Sample

/-- A message whose kind was kept, though it spells a word. -/
def kept : Message := ⟨"h\u00e9 \"\u2603\"\n", "t", "u", .other "diReCt", "r", "m"⟩

/-- A document that is not written here: an array of the fields. -/
def foreign : Bytes := Utf8.encode "[\"hi\", \"t\",\"u\", \"Dm\",\"r\",\"m\"]"

end Sample

theorem codec_canonical_kept :
    decode Sample.kept.encode = .ok Sample.kept.readBack ∧ Sample.kept.readBack ≠ Sample.kept ∧
      Sample.kept.audience.channel = none ∧ Sample.kept.readBack.audience = .direct ∧
      Sample.kept.readBack.audience.channel = some "dm:new" ∧
      decode Sample.foreign = .ok ⟨"hi", "t", "u", .direct, "r", "m"⟩ ∧
      decode (Message.encode ⟨"hi", "t", "u", .direct, "r", "m"⟩) =
        .ok ⟨"hi", "t", "u", .direct, "r", "m"⟩ := by
  obtain ⟨hback, -, -, hread, hdiffers, hexception⟩ := codec_canonical
  have hword : ("direct", .direct) ∈ Audience.words := by decide
  have hspelling : Audience.Spelling "direct" "diReCt" := by decide
  obtain ⟨hnone, hkind, hchannel, -⟩ := hexception Sample.kept "diReCt" rfl _ hword hspelling
  have hforeign : decode Sample.foreign = .ok ⟨"hi", "t", "u", .direct, "r", "m"⟩ := by
    decide +kernel
  exact ⟨hback Sample.kept, (hdiffers _).mpr ⟨"diReCt", rfl, _, hword, hspelling⟩, hnone, hkind,
    hchannel, hforeign, hread _ _ hforeign⟩

end Message

end SealedGateway
