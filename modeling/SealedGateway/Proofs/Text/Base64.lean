import SealedGateway.Text.Base64
import SealedGateway.Proofs.Text.Utf8

/-!
# Base64 reads back what it wrote

A text of Base64 is a row of full groups with a last one that may be filled up. So octets are cut
into full groups of three and the rest (`split_last`), `decodeGroups` undoes the full groups
(`decodeGroups_symbols`), and each of the three kinds of a last group has values that it is read
as (`LastValues`).

Main statement: **`decode_encode`**.
-/

namespace SealedGateway.Base64

/-! ## The symbols of a text -/

/-- The symbols of `b` from the left. -/
def symbols : Bytes → List Char
  | a :: b :: c :: r => group a b c ++ symbols r
  | [a, b] =>
    let v := a.toNat * 256 + b.toNat
    [symbol (v / 1024), symbol (v / 16 % 64), symbol (v % 16 * 4), '=']
  | [a] => [symbol (a.toNat / 4), symbol (a.toNat % 4 * 16), '=', '=']
  | [] => []

theorem encodeOnto_eq (done : List Char) (b : Bytes) :
    encodeOnto done b = (symbols b).reverse ++ done := by
  fun_induction symbols b generalizing done with
  | case1 a b c r ih =>
    rw [encodeOnto, ih, List.reverse_append, List.append_assoc]
  | case2 a b => rfl
  | case3 a => rfl
  | case4 => rfl

theorem encode_eq (b : Bytes) : encode b = String.ofList (symbols b) := by
  rw [encode, encodeOnto_eq, List.append_nil, List.reverse_reverse]

theorem symbols_append {full : Bytes} (last : Bytes) (h : full.length % 3 = 0) :
    symbols (full ++ last) = symbols full ++ symbols last := by
  fun_induction symbols full with
  | case1 a b c r ih =>
    rw [List.cons_append, List.cons_append, List.cons_append, symbols,
      ih (by simp only [List.length_cons] at h; omega), List.append_assoc]
  | case2 a b => simp at h
  | case3 a => simp at h
  | case4 => rfl

theorem length_symbols_of_full {full : Bytes} (h : full.length % 3 = 0) :
    (symbols full).length % 4 = 0 := by
  fun_induction symbols full with
  | case1 a b c r ih =>
    have := ih (by simp only [List.length_cons] at h; omega)
    simp only [group, List.cons_append, List.nil_append, List.length_cons]
    omega
  | case2 a b => simp at h
  | case3 a => simp at h
  | case4 => rfl

/-- Octets are full groups of three and a last group, which is not empty. -/
theorem split_last {b : Bytes} (h : b ≠ []) :
    ∃ full last, b = full ++ last ∧ full.length % 3 = 0 ∧ 0 < last.length ∧ last.length ≤ 3 := by
  have hb : 0 < b.length := List.length_pos_iff.mpr h
  refine ⟨b.take ((b.length - 1) / 3 * 3), b.drop ((b.length - 1) / 3 * 3),
    (List.take_append_drop _ _).symm, ?_, ?_, ?_⟩
  · rw [List.length_take]; omega
  · rw [List.length_drop]; omega
  · rw [List.length_drop]; omega

/-! ## Symbols and values -/

/-- The octet of the symbol of a value. -/
def symbolOctet (v : Nat) : UInt8 := UInt8.ofNat (symbol v).toNat

theorem value?_symbolOctet {v : Nat} (h : v < 64) : value? (symbolOctet v) = some v := by
  revert v; decide

theorem symbolOctet_ne_equals {v : Nat} (h : v < 64) : symbolOctet v ≠ Ascii.equals := by
  revert v; decide

theorem symbol_ascii (v : Nat) : (symbol v).toNat < 0x80 := by
  by_cases h : v < 64
  · revert v; decide
  · have h1 : ¬ v < 26 := by omega
    have h2 : ¬ v < 52 := by omega
    have h3 : ¬ v < 62 := by omega
    have h4 : ¬ v = 62 := by omega
    simp only [symbol, h1, h2, h3, h4, ↓reduceIte]
    decide

theorem valueAt_symbolOctet {v : Nat} (offset : Nat) (h : v < 64) :
    valueAt offset (symbolOctet v) = .ok v := by
  rw [valueAt, value?_symbolOctet h]

theorem symbols_ascii (b : Bytes) : ∀ c ∈ symbols b, c.toNat < 0x80 := by
  have heq : ('=' : Char).toNat < 0x80 := by decide
  fun_induction symbols b with
  | case1 a b c r ih =>
    intro x hx
    rcases List.mem_append.mp hx with hx | hx
    · simp only [group, List.mem_cons, List.not_mem_nil, or_false] at hx
      rcases hx with rfl | rfl | rfl | rfl <;> exact symbol_ascii _
    · exact ih x hx
  | case2 a b v =>
    intro x hx
    simp only [List.mem_cons, List.not_mem_nil, or_false] at hx
    rcases hx with rfl | rfl | rfl | rfl
    · exact symbol_ascii _
    · exact symbol_ascii _
    · exact symbol_ascii _
    · exact heq
  | case3 a =>
    intro x hx
    simp only [List.mem_cons, List.not_mem_nil, or_false] at hx
    rcases hx with rfl | rfl | rfl | rfl
    · exact symbol_ascii _
    · exact symbol_ascii _
    · exact heq
    · exact heq
  | case4 => exact nofun

/-- The octets of the text that `encode` writes. -/
def textOctets (b : Bytes) : Bytes := (symbols b).map fun c => UInt8.ofNat c.toNat

theorem utf8_encode (b : Bytes) : Utf8.encode (encode b) = textOctets b := by
  rw [encode_eq, Utf8.encode_ofList_ascii (symbols_ascii b), textOctets]

theorem textOctets_append {full : Bytes} (last : Bytes) (h : full.length % 3 = 0) :
    textOctets (full ++ last) = textOctets full ++ textOctets last := by
  rw [textOctets, symbols_append last h, List.map_append]
  rfl

/-! ## Reading full groups -/

theorem ofNat_eq_of_mod {v : Nat} {a : UInt8} (h : v % 256 = a.toNat) : UInt8.ofNat v = a := by
  apply UInt8.toNat.inj
  rw [UInt8.toNat_ofNat']
  exact h

theorem textOctets_group (a b c : UInt8) (r : Bytes) :
    textOctets (a :: b :: c :: r) =
      let v := a.toNat * 65536 + b.toNat * 256 + c.toNat
      symbolOctet (v / 262144) :: symbolOctet (v / 4096 % 64) :: symbolOctet (v / 64 % 64) ::
        symbolOctet (v % 64) :: textOctets r := rfl

theorem decodeGroups_symbols {full : Bytes} (offset : Nat) (done : Bytes)
    (h : full.length % 3 = 0) :
    decodeGroups offset done (textOctets full) = .ok (done.reverse ++ full) := by
  fun_induction symbols full generalizing offset done with
  | case1 a b c r ih =>
    have ha := a.toNat_lt
    have hb := b.toNat_lt
    have hc := c.toNat_lt
    have hr : r.length % 3 = 0 := by simp only [List.length_cons] at h; omega
    rw [textOctets_group, decodeGroups, valueAt_symbolOctet _ (by omega),
      valueAt_symbolOctet _ (by omega), valueAt_symbolOctet _ (by omega),
      valueAt_symbolOctet _ (by omega)]
    simp only [bind, Except.bind]
    rw [ih _ _ hr, ofNat_eq_of_mod (a := c) (by omega), ofNat_eq_of_mod (a := b) (by omega),
      ofNat_eq_of_mod (a := a) (by omega)]
    simp only [List.reverse_cons, List.append_assoc, List.cons_append, List.nil_append]
  | case2 a b => simp at h
  | case3 a => simp at h
  | case4 => rw [List.append_nil]; rfl

/-! ## Reading the last group -/

theorem lastGroup_symbolOctets {vs : List Nat} {offset read : Nat} {g : LastGroup} (r : Bytes)
    (h : ∀ v ∈ vs, v < 64) (hg : g.padding = 0) :
    lastGroup offset read g (vs.map symbolOctet ++ r) =
      lastGroup offset (read + vs.length)
        { g with symbols := (vs.map fun v => (symbolOctet v, v)).reverse ++ g.symbols } r := by
  induction vs generalizing read g with
  | nil => rfl
  | cons v vs ih =>
    have hv : v < 64 := h v List.mem_cons_self
    rw [List.map_cons, List.cons_append, lastGroup, if_neg (symbolOctet_ne_equals hv),
      if_neg (by rw [hg]; decide), valueAt_symbolOctet _ hv]
    simp only [bind, Except.bind]
    refine (ih (fun v' hv' => h v' (List.mem_cons_of_mem _ hv')) ?_).trans ?_
    · exact hg
    · rw [List.length_cons, List.map_cons, List.reverse_cons, List.append_assoc,
        List.singleton_append, Nat.add_assoc, Nat.add_comm 1 vs.length]

theorem lastGroup_equals {padding offset read : Nat} {g : LastGroup} (h : 2 ≤ read) :
    lastGroup offset read g (List.replicate padding Ascii.equals) =
      .ok { g with padding := g.padding + padding } := by
  induction padding generalizing read g with
  | zero => rfl
  | succ n ih =>
    rw [List.replicate_succ, lastGroup, if_pos rfl, if_neg (by omega), ih (by omega),
      Nat.add_assoc, Nat.add_comm 1 n]

/-- What is read of the symbols of the values `vs` and of `=` after them. -/
def LastGroup.ofValues (vs : List Nat) (padding : Nat) : LastGroup :=
  ⟨(vs.map fun v => (symbolOctet v, v)).reverse, padding⟩

theorem lastGroup_ofValues {vs : List Nat} {padding : Nat} (offset : Nat)
    (h : ∀ v ∈ vs, v < 64) (hlen : 2 ≤ vs.length) :
    lastGroup offset 0 ⟨[], 0⟩ (vs.map symbolOctet ++ List.replicate padding Ascii.equals) =
      .ok (.ofValues vs padding) := by
  rw [lastGroup_symbolOctets _ h rfl, lastGroup_equals (by omega), LastGroup.ofValues,
    List.append_nil, Nat.zero_add]

/-- The last group of a text: its values, and how it is filled up. -/
structure LastValues (last : Bytes) (vs : List Nat) (padding : Nat) : Prop where
  text : textOctets last = vs.map symbolOctet ++ List.replicate padding Ascii.equals
  small : ∀ v ∈ vs, v < 64
  filled : vs.length + padding = 4
  enough : 2 ≤ vs.length
  octets : ∀ offset, (LastGroup.ofValues vs padding).octets offset = .ok last

theorem lastValues_one (a : UInt8) : LastValues [a] [a.toNat / 4, a.toNat % 4 * 16] 2 where
  text := rfl
  small := by
    have ha := a.toNat_lt
    simp only [List.mem_cons, List.not_mem_nil, or_false]
    omega
  filled := rfl
  enough := Nat.le_refl 2
  octets := by
    intro offset
    have ha := a.toNat_lt
    simp only [LastGroup.octets, LastGroup.ofValues, List.map_cons, List.map_nil,
      List.reverse_cons, List.reverse_nil, List.nil_append, List.cons_append, List.length_cons,
      List.length_nil]
    rw [if_neg (by omega), if_neg (by omega), ofNat_eq_of_mod (a := a) (by omega)]

theorem lastValues_two (a b : UInt8) :
    let v := a.toNat * 256 + b.toNat
    LastValues [a, b] [v / 1024, v / 16 % 64, v % 16 * 4] 1 := by
  intro v
  have ha := a.toNat_lt
  have hb := b.toNat_lt
  refine ⟨rfl, ?_, rfl, Nat.le_succ 2, fun offset => ?_⟩
  · simp only [List.mem_cons, List.not_mem_nil, or_false]
    omega
  · simp only [LastGroup.octets, LastGroup.ofValues, List.map_cons, List.map_nil,
      List.reverse_cons, List.reverse_nil, List.nil_append, List.cons_append, List.length_cons,
      List.length_nil]
    rw [if_neg (by omega), if_neg (by omega), ofNat_eq_of_mod (a := a) (by omega),
      ofNat_eq_of_mod (a := b) (by omega)]

theorem lastValues_three (a b c : UInt8) :
    let v := a.toNat * 65536 + b.toNat * 256 + c.toNat
    LastValues [a, b, c] [v / 262144, v / 4096 % 64, v / 64 % 64, v % 64] 0 := by
  intro v
  have ha := a.toNat_lt
  have hb := b.toNat_lt
  have hc := c.toNat_lt
  refine ⟨rfl, ?_, rfl, Nat.le_add_left 2 2, fun offset => ?_⟩
  · simp only [List.mem_cons, List.not_mem_nil, or_false]
    omega
  · simp only [LastGroup.octets, LastGroup.ofValues, List.map_cons, List.map_nil,
      List.reverse_cons, List.reverse_nil, List.nil_append, List.cons_append, List.length_cons,
      List.length_nil]
    rw [if_neg (by omega), ofNat_eq_of_mod (a := a) (by omega), ofNat_eq_of_mod (a := b) (by omega),
      ofNat_eq_of_mod (a := c) (by omega)]

theorem exists_lastValues {last : Bytes} (h : 0 < last.length) (h3 : last.length ≤ 3) :
    ∃ vs padding, LastValues last vs padding :=
  match last, h, h3 with
  | [a], _, _ => ⟨_, _, lastValues_one a⟩
  | [a, b], _, _ => ⟨_, _, lastValues_two a b⟩
  | [a, b, c], _, _ => ⟨_, _, lastValues_three a b c⟩

theorem strayLast_of_full {s : Bytes} (h : s.length % 4 = 0) : strayLast s = .ok () := by
  rw [strayLast]
  cases s.getLast? with
  | none => rfl
  | some b => exact if_neg fun hb => by omega

/-! ## The whole text -/

@[simp] theorem decode_encode (b : Bytes) : decode (encode b) = .ok b := by
  rw [decode, utf8_encode]
  by_cases hb : b = []
  · rw [hb]; rfl
  · obtain ⟨full, last, rfl, hfull, hlast, hlast3⟩ := split_last hb
    have hn : (textOctets full).length % 4 = 0 := by
      rw [textOctets, List.length_map, length_symbols_of_full hfull]
    obtain ⟨vs, padding, hvalues⟩ := exists_lastValues hlast hlast3
    have h4 : (textOctets last).length = 4 := by
      rw [hvalues.text, List.length_append, List.length_map, List.length_replicate,
        hvalues.filled]
    have hread : lastGroup (textOctets full).length 0 ⟨[], 0⟩ (textOctets last) =
        .ok (.ofValues vs padding) := by
      rw [hvalues.text]
      exact lastGroup_ofValues _ hvalues.small hvalues.enough
    have hsymbols : ¬ (LastGroup.ofValues vs padding).symbols.length < 2 := by
      rw [LastGroup.ofValues, List.length_reverse, List.length_map]
      exact Nat.not_lt.mpr hvalues.enough
    have hlen : (textOctets full ++ textOctets last).length = (textOctets full).length + 4 := by
      rw [List.length_append, h4]
    have hoff : lastGroupOffset ((textOctets full).length + 4) = (textOctets full).length := by
      rw [lastGroupOffset, if_pos (by omega), Nat.add_sub_cancel]
    rw [textOctets_append last hfull, decodeOctets, strayLast_of_full (by omega), hlen, hoff]
    simp only [bind, Except.bind, List.take_left, List.drop_left]
    rw [decodeGroups_symbols 0 [] hfull, hread]
    dsimp only
    rw [if_neg fun hbad => hsymbols hbad.2, hvalues.octets, List.reverse_nil, List.nil_append]
    rfl

end SealedGateway.Base64
