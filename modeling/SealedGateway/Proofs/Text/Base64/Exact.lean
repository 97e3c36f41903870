import Mathlib.Data.List.Basic
import SealedGateway.Proofs.Failure
import SealedGateway.Proofs.Text.Base64

/-!
# Base64 reads nothing but what it writes

Each part of a text that is read is what writing its octets gives: the full groups
(`textOctets_of_decodeGroups`), the symbols and the filling of the last group
(`ofValues_of_lastGroup`) and its octets (`textOctets_of_octets`).

Main statements: **`Base64.decode_eq_ok_iff`** and, for the fields of a frame,
**`decodeBase64_eq_ok_iff`**.
-/

namespace SealedGateway

namespace Base64

/-! ## Symbols -/

/-- An octet has a value just if it is the symbol of that value. -/
theorem value?_eq_some_iff {b : UInt8} {v : Nat} :
    value? b = some v ↔ v < 64 ∧ b = symbolOctet v := by
  constructor
  · have hall : ∀ n < 256, ∀ v ∈ value? (UInt8.ofNat n),
        v < 64 ∧ UInt8.ofNat n = symbolOctet v := by
      decide +kernel
    intro h
    have hb := hall b.toNat b.toNat_lt v
    rw [UInt8.ofNat_toNat] at hb
    exact hb h
  · rintro ⟨hv, rfl⟩
    exact value?_symbolOctet hv

theorem valueAt_eq_ok_iff {offset v : Nat} {b : UInt8} :
    valueAt offset b = .ok v ↔ v < 64 ∧ b = symbolOctet v := by
  rw [← value?_eq_some_iff, valueAt]
  split <;> simp_all

/-! ## Full groups -/

/-- The text of the three octets that four values stand for. -/
theorem textOctets_ofValues {a b c d : Nat} (r : Bytes) (ha : a < 64) (hb : b < 64) (hc : c < 64)
    (hd : d < 64) :
    let v := a * 262144 + b * 4096 + c * 64 + d
    textOctets (UInt8.ofNat (v / 65536) :: UInt8.ofNat (v / 256) :: UInt8.ofNat v :: r) =
      symbolOctet a :: symbolOctet b :: symbolOctet c :: symbolOctet d :: textOctets r := by
  intro v
  have hv : (UInt8.ofNat (v / 65536)).toNat * 65536 + (UInt8.ofNat (v / 256)).toNat * 256 +
      (UInt8.ofNat v).toNat = v := by
    simp only [UInt8.toNat_ofNat']
    omega
  simp only [textOctets_group, hv]
  rw [show v / 262144 = a by omega, show v / 4096 % 64 = b by omega, show v / 64 % 64 = c by omega,
    show v % 64 = d by omega]

theorem textOctets_of_decodeGroups {offset : Nat} {done s b : Bytes} (hs : s.length % 4 = 0)
    (h : decodeGroups offset done s = .ok b) :
    ∃ full, full.length % 3 = 0 ∧ s = textOctets full ∧ b = done.reverse ++ full := by
  fun_induction decodeGroups offset done s with
  | case1 offset done a' b' c' d' r ih =>
    simp only [bind_eq_ok_iff, valueAt_eq_ok_iff] at h
    obtain ⟨a, ⟨ha, rfl⟩, b, ⟨hb, rfl⟩, c, ⟨hc, rfl⟩, d, ⟨hd, rfl⟩, h⟩ := h
    obtain ⟨full, hfull, rfl, rfl⟩ :=
      ih a b c d (by simp only [List.length_cons] at hs; omega) h
    refine ⟨_, ?_, (textOctets_ofValues full ha hb hc hd).symm, ?_⟩
    · simp only [List.length_cons]
      omega
    · simp only [List.reverse_cons, List.append_assoc, List.cons_append, List.nil_append]
  | case2 s offset done hshort =>
    have hnil : s = [] := by
      match s, hs, hshort with
      | [], _, _ => rfl
      | a :: b :: c :: d :: r, _, hshort => exact (hshort a b c d r rfl).elim
    exact ⟨[], rfl, hnil, by rw [List.append_nil, Except.ok.inj h]⟩

/-! ## The last group -/

theorem ofValues_of_lastGroup {offset read : Nat} {g g' : LastGroup} {s : Bytes}
    (h : lastGroup offset read g s = .ok g') :
    ∃ vs padding, s = vs.map symbolOctet ++ List.replicate padding Ascii.equals ∧
      (∀ v ∈ vs, v < 64) ∧ (g.padding ≠ 0 → vs = []) ∧
        g' = ⟨(vs.map fun v => (symbolOctet v, v)).reverse ++ g.symbols, g.padding + padding⟩ := by
  induction s generalizing read g with
  | nil => exact ⟨[], 0, rfl, nofun, fun _ => rfl, (Except.ok.inj h).symm⟩
  | cons b s ih =>
    rw [lastGroup] at h
    split at h
    case isTrue hb =>
      split at h
      · cases h
      · obtain ⟨vs, padding, rfl, -, hvs, rfl⟩ := ih h
        obtain rfl := hvs (Nat.succ_ne_zero _)
        exact ⟨[], padding + 1, by rw [hb]; rfl, nofun, fun _ => rfl,
          by simp only [Nat.add_assoc, Nat.add_comm 1 padding]⟩
    case isFalse hb =>
      split at h
      · cases h
      case isFalse hp =>
        simp only [bind_eq_ok_iff, valueAt_eq_ok_iff] at h
        obtain ⟨v, ⟨hv, rfl⟩, h⟩ := h
        obtain ⟨vs, padding, rfl, hsmall, -, rfl⟩ := ih h
        exact ⟨v :: vs, padding, rfl, List.forall_mem_cons.mpr ⟨hv, hsmall⟩,
          fun hne => absurd hne hp, by simp⟩

/-- Two values give an octet, with four bits that it does not take. -/
theorem octets_ofTwo (a b offset : Nat) :
    (LastGroup.ofValues [a, b] 2).octets offset =
      if b % 16 ≠ 0 then .error (.invalidLastSymbol (symbolOctet b) (offset + 1))
      else .ok [UInt8.ofNat (a * 4 + b / 16)] := by
  rw [LastGroup.octets, if_neg (by simp [LastGroup.ofValues])]
  rfl

/-- Three values give two octets, with two bits that these do not take. -/
theorem octets_ofThree (a b c offset : Nat) :
    let v := a * 1024 + b * 16 + c / 4
    (LastGroup.ofValues [a, b, c] 1).octets offset =
      if c % 4 ≠ 0 then .error (.invalidLastSymbol (symbolOctet c) (offset + 2))
      else .ok [UInt8.ofNat (v / 256), UInt8.ofNat v] := by
  rw [LastGroup.octets, if_neg (by simp [LastGroup.ofValues])]
  rfl

theorem octets_ofFour (a b c d offset : Nat) :
    let v := a * 262144 + b * 4096 + c * 64 + d
    (LastGroup.ofValues [a, b, c, d] 0).octets offset =
      .ok [UInt8.ofNat (v / 65536), UInt8.ofNat (v / 256), UInt8.ofNat v] := by
  rw [LastGroup.octets, if_neg (by simp [LastGroup.ofValues])]
  rfl

/-- The text of the octet that two values stand for. -/
theorem textOctets_ofTwo {a b : Nat} (ha : a < 64) (hb : b < 64) (hzero : b % 16 = 0) :
    textOctets [UInt8.ofNat (a * 4 + b / 16)] =
      [a, b].map symbolOctet ++ List.replicate 2 Ascii.equals := by
  have hx : (UInt8.ofNat (a * 4 + b / 16)).toNat = a * 4 + b / 16 := by
    rw [UInt8.toNat_ofNat']
    omega
  rw [(lastValues_one _).text, hx, show (a * 4 + b / 16) / 4 = a by omega,
    show (a * 4 + b / 16) % 4 * 16 = b by omega]

/-- The text of the two octets that three values stand for. -/
theorem textOctets_ofThree {a b c : Nat} (ha : a < 64) (hb : b < 64) (hc : c < 64)
    (hzero : c % 4 = 0) :
    let v := a * 1024 + b * 16 + c / 4
    textOctets [UInt8.ofNat (v / 256), UInt8.ofNat v] =
      [a, b, c].map symbolOctet ++ List.replicate 1 Ascii.equals := by
  intro v
  have hv : (UInt8.ofNat (v / 256)).toNat * 256 + (UInt8.ofNat v).toNat = v := by
    simp only [UInt8.toNat_ofNat']
    omega
  rw [(lastValues_two _ _).text, hv, show v / 1024 = a by omega, show v / 16 % 64 = b by omega,
    show v % 16 * 4 = c by omega]

theorem length_symbols_ofValues (vs : List Nat) (padding : Nat) :
    (LastGroup.ofValues vs padding).symbols.length = vs.length := by
  rw [LastGroup.ofValues, List.length_reverse, List.length_map]

theorem filled_of_octets {vs : List Nat} {padding offset : Nat} {last : Bytes}
    (h : (LastGroup.ofValues vs padding).octets offset = .ok last) :
    (vs.length + padding) % 4 = 0 := by
  rw [LastGroup.octets, length_symbols_ofValues] at h
  split at h
  · cases h
  case isFalse hmod => exact Decidable.not_not.mp hmod

/-- The last group is the text of its octets. -/
theorem textOctets_of_octets {vs : List Nat} {padding offset : Nat} {last : Bytes}
    (hsmall : ∀ v ∈ vs, v < 64) (henough : 2 ≤ vs.length) (hlen : vs.length + padding ≤ 4)
    (h : (LastGroup.ofValues vs padding).octets offset = .ok last) :
    textOctets last = vs.map symbolOctet ++ List.replicate padding Ascii.equals := by
  have hfilled := filled_of_octets h
  have hpadding : padding = 2 ∨ padding = 1 ∨ padding = 0 := by omega
  rcases hpadding with rfl | rfl | rfl
  · obtain ⟨a, b, rfl⟩ := List.length_eq_two.mp (show vs.length = 2 by omega)
    simp only [List.forall_mem_cons] at hsmall
    rw [octets_ofTwo] at h
    split at h
    · cases h
    case isFalse hzero =>
      cases h
      exact textOctets_ofTwo hsmall.1 hsmall.2.1 (Decidable.not_not.mp hzero)
  · obtain ⟨a, b, c, rfl⟩ := List.length_eq_three.mp (show vs.length = 3 by omega)
    simp only [List.forall_mem_cons] at hsmall
    rw [octets_ofThree] at h
    split at h
    · cases h
    case isFalse hzero =>
      cases h
      exact textOctets_ofThree hsmall.1 hsmall.2.1 hsmall.2.2.1 (Decidable.not_not.mp hzero)
  · obtain ⟨a, b, c, d, rfl⟩ := List.length_eq_four.mp (show vs.length = 4 by omega)
    simp only [List.forall_mem_cons] at hsmall
    rw [octets_ofFour] at h
    cases h
    exact textOctets_ofValues [] hsmall.1 hsmall.2.1 hsmall.2.2.1 hsmall.2.2.2.1

/-! ## The whole text -/

/-- Behind the full groups there are at most four octets. -/
theorem lastGroupOffset_bounds {n : Nat} (h : 0 < n) :
    lastGroupOffset n % 4 = 0 ∧ lastGroupOffset n ≤ n ∧ n ≤ lastGroupOffset n + 4 := by
  rw [lastGroupOffset]
  split <;> omega

theorem textOctets_of_decodeOctets {s b : Bytes} (h : decodeOctets s = .ok b) :
    s = textOctets b := by
  by_cases hs : s = []
  · subst hs
    cases h
    rfl
  obtain ⟨hmod, hle, hge⟩ := lastGroupOffset_bounds (List.length_pos_iff.mpr hs)
  simp only [decodeOctets, bind_eq_ok_iff] at h
  obtain ⟨_, -, full, hgroups, g, hg, h⟩ := h
  split at h
  · cases h
  case isFalse hshort =>
    simp only [bind_eq_ok_iff] at h
    obtain ⟨last, hlast, h⟩ := h
    obtain ⟨_, hfull, htake, rfl⟩ := textOctets_of_decodeGroups
      (by rw [List.length_take, Nat.min_eq_left hle]; exact hmod) hgroups
    obtain ⟨vs, padding, hdrop, hsmall, -, hvalues⟩ := ofValues_of_lastGroup hg
    obtain rfl : g = .ofValues vs padding := by
      rw [hvalues, LastGroup.ofValues, List.append_nil, Nat.zero_add]
    have hlen : vs.length + padding ≤ 4 := by
      have := congrArg List.length hdrop
      simp only [List.length_drop, List.length_append, List.length_map,
        List.length_replicate] at this
      omega
    have henough : 2 ≤ vs.length := by
      rw [not_and, Nat.not_lt] at hshort
      rw [← length_symbols_ofValues vs padding]
      exact hshort hs
    cases h
    calc s = s.take (lastGroupOffset s.length) ++ s.drop (lastGroupOffset s.length) :=
          (List.take_append_drop _ _).symm
      _ = textOctets full ++ textOctets last := by
          rw [htake, hdrop, textOctets_of_octets hsmall henough hlen hlast]
      _ = textOctets (full ++ last) := (textOctets_append last hfull).symm

/-- The texts that are read are those that are written. -/
theorem decode_eq_ok_iff {s : String} {b : Bytes} : decode s = .ok b ↔ encode b = s := by
  constructor
  · intro h
    have hoctets := textOctets_of_decodeOctets h
    rw [← utf8_encode] at hoctets
    have hread := congrArg Utf8.decode? hoctets
    rw [Utf8.decode?_encode, Utf8.decode?_encode] at hread
    exact (Option.some.inj hread).symm
  · rintro rfl
    exact decode_encode b

end Base64

/-- The fields that are read are those that are written. -/
theorem decodeBase64_eq_ok_iff {s : String} {b : Bytes} :
    decodeBase64 s = .ok b ↔ Base64.encode b = s := by
  rw [← Base64.decode_eq_ok_iff, decodeBase64]
  split <;> simp_all

end SealedGateway
