import SealedGateway.Net.Address
import SealedGateway.Proofs.Text.Numeral

/-!
# The text of a host

An IPv4 address has one text, the one that is printed. An IPv6 address stands in brackets and has
many (**`Ipv6.Spells`**): leading zeros, either case, the last two groups as a dotted address, and
any run of zero groups left out. A host is read just from its texts
(**`Host.spells_of_read?`**, **`Host.read?_append`**), and what follows a text has no say in what
is read of it, unless it is a digit behind a dotted address.
-/

namespace SealedGateway

open Numeral (Ended ended_cons)

theorem readChar?_eq_some_iff {c : Char} {s r : List Char} :
    readChar? c s = some r ↔ s = c :: r := by
  cases s with
  | nil => simp [readChar?]
  | cons x s =>
    simp only [readChar?, Option.ite_none_right_eq_some, Option.some.injEq, List.cons.injEq]

/-- A decimal below a bound, behind a mark. -/
theorem marked_eq_some_iff {α : Type} {mark : Char} {size : Nat} {f : Nat → α} {a : α}
    {s r : List Char} :
    (do
      let (n, s) ← Numeral.leading? 10 (← readChar? mark s)
      if n < size then return (f n, s) else none) = some (a, r) ↔
      ∃ w n, s = mark :: (w ++ r) ∧ Numeral.Spells 10 w n ∧ Ended 10 r ∧ n < size ∧ f n = a := by
  simp only [Option.bind_eq_bind, Option.bind_eq_some_iff, readChar?_eq_some_iff, Prod.exists,
    Numeral.leading?_eq_some_iff, Option.ite_none_right_eq_some, Option.pure_def,
    Option.some.injEq, Prod.mk.injEq]
  constructor
  · rintro ⟨_, rfl, n, _, ⟨w, rfl, hw, hr⟩, hlt, rfl, rfl⟩
    exact ⟨w, n, rfl, hw, hr, hlt, rfl⟩
  · rintro ⟨w, n, rfl, hw, hr, hlt, rfl⟩
    exact ⟨_, rfl, n, _, ⟨w, rfl, hw, hr⟩, hlt, rfl, rfl⟩

/-! ## Dotted addresses -/

namespace Ipv4

variable {s r : List Char} {ip : Ipv4}

theorem toList_text (ip : Ipv4) :
    ip.text.toList = Nat.toDigits 10 ip.a.toNat ++ '.' :: (Nat.toDigits 10 ip.b.toNat ++
      '.' :: (Nat.toDigits 10 ip.c.toNat ++ '.' :: Nat.toDigits 10 ip.d.toNat)) := by
  have hoctet : ∀ a : UInt8, (toString a).toList = Nat.toDigits 10 a.toNat := by
    intro a
    rw [show toString a = toString a.toNat from rfl, Nat.toString_eq_ofList_toDigits,
      String.toList_ofList]
  rw [text, String.toList_intercalate]
  simp [hoctet]

/-- The numerals that are refused: long ones, those with leading zeros, and great ones. -/
theorem readOctet?_numeral {w : List Char} {n : Nat} (hw : Numeral.Spells 10 w n)
    (hr : Ended 10 r) :
    readOctet? (w ++ r) =
      if 3 < w.length ∨ (1 < w.length ∧ w.head? = some '0') ∨ 255 < n then none
      else some (UInt8.ofNat n, r) := by
  have hhead : (w ++ r).head? = w.head? := by
    obtain ⟨c, w, rfl⟩ := List.exists_cons_of_ne_nil hw.ne_nil
    rfl
  simp [readOctet?, Numeral.leading?_append hw hr, hhead, or_assoc]

theorem readOctet?_eq_some_iff {a : UInt8} :
    readOctet? s = some (a, r) ↔ s = Nat.toDigits 10 a.toNat ++ r ∧ Ended 10 r := by
  constructor
  · intro h
    obtain ⟨⟨n, rest⟩, hn, -⟩ := Option.bind_eq_some_iff.mp h
    obtain ⟨w, rfl, hw, hr⟩ := Numeral.leading?_eq_some_iff.mp hn
    rw [readOctet?_numeral hw hr] at h
    split at h
    · cases h
    case isFalse hvalid =>
      cases h
      simp only [not_or, not_and] at hvalid
      obtain ⟨-, hlead, hsmall⟩ := hvalid
      have hpos := List.length_pos_iff.mpr hw.ne_nil
      rw [UInt8.toNat_ofNat_of_lt' (by simp only [UInt8.size]; omega),
        Numeral.toDigits_of_spells hw fun hz => Nat.le_antisymm
          (Nat.not_lt.mp fun hlong => hlead hlong hz) hpos]
      exact ⟨rfl, hr⟩
  · rintro ⟨rfl, hr⟩
    obtain ⟨hw, hzero⟩ := Numeral.spells_toDigits a.toNat
    have ha := a.toNat_lt
    have hlength : (Nat.toDigits 10 a.toNat).length ≤ 3 :=
      (Nat.length_toDigits_le_iff (by decide) (by decide)).mpr (by omega)
    rw [readOctet?_numeral hw hr, if_neg, UInt8.ofNat_toNat]
    rintro (hlong | ⟨hlong, hz⟩ | hgreat)
    · omega
    · rw [hzero hz] at hlong
      omega
    · omega

theorem read?_eq_some_iff : read? s = some (ip, r) ↔ s = ip.text.toList ++ r ∧ Ended 10 r := by
  have hdot : ∀ u, Ended 10 ('.' :: u) := ended_cons rfl
  constructor
  · intro h
    simp only [read?, Option.bind_eq_bind, Option.bind_eq_some_iff, Prod.exists,
      readOctet?_eq_some_iff, readChar?_eq_some_iff] at h
    obtain ⟨a, _, ⟨rfl, -⟩, _, rfl, b, _, ⟨rfl, -⟩, _, rfl, c, _, ⟨rfl, -⟩, _, rfl, d, _,
      ⟨rfl, hr⟩, h⟩ := h
    cases h
    exact ⟨by simp only [toList_text, List.append_assoc, List.cons_append], hr⟩
  · rintro ⟨htext, hr⟩
    simp only [htext, read?, toList_text, List.append_assoc, List.cons_append, Option.bind_eq_bind,
      Option.bind_eq_some_iff, Prod.exists, readOctet?_eq_some_iff, readChar?_eq_some_iff]
    exact ⟨_, _, ⟨rfl, hdot _⟩, _, rfl, _, _, ⟨rfl, hdot _⟩, _, rfl, _, _, ⟨rfl, hdot _⟩, _, rfl, _,
      _, ⟨rfl, hr⟩, rfl⟩

/-- Hexadecimal digits without a dot behind them are no dotted address. -/
theorem read?_eq_none {w : List Char} (hw : ∀ c ∈ w, Numeral.isDigit 16 c = true)
    (hr : Ended 16 r) (hdot : r.head? ≠ some '.') : read? (w ++ r) = none := by
  cases h : read? (w ++ r) with
  | none => rfl
  | some p =>
    obtain ⟨ip, u⟩ := p
    have htext := (read?_eq_some_iff.mp h).1
    rw [toList_text, List.append_assoc, List.cons_append] at htext
    have hoctet : ∀ c ∈ Nat.toDigits 10 ip.a.toNat, Numeral.isDigit 16 c = true :=
      fun c hc => Numeral.isDigit_sixteen ((Numeral.spells_toDigits _).1.digits c hc)
    have hspan := (Numeral.span_digits hw hr).2
    rw [htext, (Numeral.span_digits hoctet (ended_cons (by decide) _)).2] at hspan
    exact absurd (hspan ▸ rfl) hdot

theorem read?_eq_none_of_ended (h : Ended 10 s) : read? s = none := by
  rw [read?, readOctet?, Numeral.leading?_eq_none h]
  rfl

end Ipv4

/-! ## Groups -/

namespace Ipv6

variable {s r w : List Char} {gs : List UInt16} {first dotted : Bool} {limit : Nat}

/-- The texts of a group: up to four hexadecimal digits. -/
structure SpellsGroup (w : List Char) (g : UInt16) : Prop extends Numeral.Spells 16 w g.toNat where
  length_le : w.length ≤ 4

/-- What stands between the groups. -/
def separator (first : Bool) : List Char := if first then [] else [':']

/-- The texts of groups. A dotted address can stand for the last two. -/
inductive SpellsGroups : (first dotted : Bool) → List Char → List UInt16 → Prop where
  | none {first : Bool} : SpellsGroups first false [] []
  | dotted {first : Bool} (ip : Ipv4) :
      SpellsGroups first true (separator first ++ ip.text.toList) ip.groups
  | group {first dotted : Bool} {w u : List Char} {g : UInt16} {gs : List UInt16}
      (hw : SpellsGroup w g) (hu : SpellsGroups false dotted u gs) :
      SpellsGroups first dotted (separator first ++ (w ++ u)) (g :: gs)

/-- What does not go on with groups. -/
structure GroupsEnded (r : List Char) : Prop where
  noDigit : Ended 16 r
  noDot : r.head? ≠ some '.'
  noGroup : ∀ u, r = ':' :: u → Ended 16 u

theorem skipSeparator?_eq_some_iff :
    skipSeparator? first s = some r ↔ s = separator first ++ r := by
  cases first
  · exact readChar?_eq_some_iff
  · exact Option.some_inj

theorem readGroup?_numeral {n : Nat} (hw : Numeral.Spells 16 w n) (hr : Ended 16 r) :
    readGroup? (w ++ r) = if 4 < w.length then none else some (UInt16.ofNat n, r) := by
  simp [readGroup?, Numeral.leading?_append hw hr]

theorem readGroup?_eq_some_iff {g : UInt16} :
    readGroup? s = some (g, r) ↔ ∃ w, s = w ++ r ∧ SpellsGroup w g ∧ Ended 16 r := by
  constructor
  · intro h
    obtain ⟨⟨n, rest⟩, hn, -⟩ := Option.bind_eq_some_iff.mp h
    obtain ⟨w, rfl, hw, hr⟩ := Numeral.leading?_eq_some_iff.mp hn
    rw [readGroup?_numeral hw hr] at h
    split at h
    · cases h
    case isFalse hlong =>
      cases h
      have hlt : n < 2 ^ 16 := Nat.lt_of_lt_of_le hw.lt_pow
        (Nat.pow_le_pow_right (by decide : 0 < 16) (Nat.not_lt.mp hlong))
      refine ⟨w, rfl, ⟨?_, Nat.not_lt.mp hlong⟩, hr⟩
      rwa [UInt16.toNat_ofNat_of_lt' hlt]
  · rintro ⟨w, rfl, hw, hr⟩
    rw [readGroup?_numeral hw.toSpells hr, if_neg (Nat.not_lt.mpr hw.length_le),
      UInt16.ofNat_toNat]

theorem readGroup?_eq_none (h : Ended 16 s) : readGroup? s = none := by
  rw [readGroup?, Numeral.leading?_eq_none h]
  rfl

/-! ### Reading groups -/

theorem spellsGroups_of_readGroups (h : readGroups limit first s = (gs, dotted, r)) :
    gs.length ≤ limit ∧ ∃ w, s = w ++ r ∧ SpellsGroups first dotted w gs := by
  induction limit generalizing first s gs with
  | zero =>
    cases h
    exact ⟨Nat.le_refl 0, [], rfl, .none⟩
  | succ n ih =>
    rw [readGroups] at h
    split at h
    case h_1 =>
      cases h
      exact ⟨Nat.zero_le _, [], rfl, .none⟩
    case h_2 rest hskip =>
      obtain rfl := skipSeparator?_eq_some_iff.mp hskip
      split at h
      case h_1 ip t hip =>
        cases h
        split at hip
        · cases hip
        case isFalse hn =>
          obtain ⟨htext, -⟩ := Ipv4.read?_eq_some_iff.mp hip
          rw [htext]
          refine ⟨?_, _, (List.append_assoc _ _ _).symm, .dotted ip⟩
          change 2 ≤ n + 1
          omega
      case h_2 =>
        split at h
        case h_1 =>
          cases h
          exact ⟨Nat.zero_le _, [], rfl, .none⟩
        case h_2 g t hg =>
          obtain ⟨w, rfl, hw, -⟩ := readGroup?_eq_some_iff.mp hg
          obtain ⟨⟨gs', dotted', r'⟩, hrest⟩ : ∃ p, readGroups n false t = p := ⟨_, rfl⟩
          rw [hrest] at h
          cases h
          obtain ⟨hle, u, rfl, hu⟩ := ih hrest
          exact ⟨Nat.succ_le_succ hle, _, by simp only [List.append_assoc], .group hw hu⟩

theorem readGroups_ended (h : GroupsEnded r) : readGroups limit first r = ([], false, r) := by
  cases limit with
  | zero => rfl
  | succ n =>
    rw [readGroups]
    split
    case h_1 => rfl
    case h_2 u hu =>
      have hended : Ended 16 u := by
        obtain rfl := skipSeparator?_eq_some_iff.mp hu
        cases first
        · exact h.noGroup u rfl
        · exact h.noDigit
      rw [Ipv4.read?_eq_none_of_ended hended.ten, readGroup?_eq_none hended, ite_self]

/-- Groups that go on start with a colon, so the group before them is read to its end. -/
theorem SpellsGroups.ended (h : SpellsGroups false dotted w gs) (hr : GroupsEnded r) :
    Ended 16 (w ++ r) ∧ (w ++ r).head? ≠ some '.' := by
  cases h with
  | none => exact ⟨hr.noDigit, hr.noDot⟩
  | dotted ip => exact ⟨ended_cons (by decide) _, by simp [separator]⟩
  | group hw hu => exact ⟨ended_cons (by decide) _, by simp [separator]⟩

theorem readGroups_append (h : SpellsGroups first dotted w gs) (hle : gs.length ≤ limit)
    (hr : GroupsEnded r) : readGroups limit first (w ++ r) = (gs, dotted, r) := by
  induction h generalizing limit with
  | none => exact readGroups_ended hr
  | @dotted first ip =>
    obtain ⟨n, rfl⟩ : ∃ n, limit = n + 2 := ⟨limit - 2, by change 2 ≤ limit at hle; omega⟩
    have hskip := skipSeparator?_eq_some_iff.mpr
      (List.append_assoc (separator first) ip.text.toList r)
    have hip : Ipv4.read? (ip.text.toList ++ r) = some (ip, r) :=
      Ipv4.read?_eq_some_iff.mpr ⟨rfl, hr.noDigit.ten⟩
    simp only [readGroups, hskip, if_neg (Nat.succ_ne_zero n), hip]
  | @group first dotted w u g gs hw hu ih =>
    obtain ⟨n, rfl⟩ : ∃ n, limit = n + 1 :=
      ⟨limit - 1, by rw [List.length_cons] at hle; omega⟩
    obtain ⟨hended, hdot⟩ := hu.ended hr
    have hskip : skipSeparator? first (separator first ++ (w ++ u) ++ r) = some (w ++ (u ++ r)) :=
      skipSeparator?_eq_some_iff.mpr (by simp only [List.append_assoc])
    have hgroup := readGroup?_eq_some_iff.mpr ⟨w, rfl, hw, hended⟩
    simp only [readGroups, hskip, Ipv4.read?_eq_none hw.digits hended hdot, ite_self, hgroup,
      ih (Nat.le_of_succ_le_succ hle)]

/-! ### Addresses -/

/-- The texts of an address: all groups, or those around a `::` that stands for one group of zeros
at least. A dotted address is the last, so none precedes a `::`. -/
inductive Spells : List Char → Ipv6 → Prop where
  | full {dotted : Bool} {w : List Char} {ip : Ipv6} (h : SpellsGroups true dotted w ip.groups) :
      Spells w ip
  | short {dotted : Bool} {u v : List Char} {head tail : List UInt16} {ip : Ipv6}
      (hu : SpellsGroups true false u head) (hv : SpellsGroups true dotted v tail)
      (hlt : head.length + tail.length < 8)
      (hgroups : ip.groups =
        head ++ List.replicate (8 - (head.length + tail.length)) 0 ++ tail) :
      Spells (u ++ ':' :: ':' :: v) ip

theorem ofGroups?_eq_some_iff {ip : Ipv6} : ofGroups? gs = some ip ↔ ip.groups = gs := by
  constructor
  · intro h
    rw [ofGroups?] at h
    split at h
    · cases h
      rfl
    · cases h
  · rintro rfl
    exact dif_pos ip.length_eq

theorem spells_of_read? {ip : Ipv6} (h : read? s = some (ip, r)) :
    ∃ w, s = w ++ r ∧ Spells w ip := by
  obtain ⟨⟨head, dotted, t⟩, hhead⟩ : ∃ p, readGroups 8 true s = p := ⟨_, rfl⟩
  obtain ⟨hle, u, rfl, hu⟩ := spellsGroups_of_readGroups hhead
  simp only [read?, hhead] at h
  split at h
  case isTrue =>
    simp only [Option.bind_eq_bind, Option.bind_eq_some_iff, ofGroups?_eq_some_iff] at h
    obtain ⟨_, rfl, h⟩ := h
    cases h
    exact ⟨u, rfl, .full hu⟩
  case isFalse hlen =>
    cases dotted with
    | true => cases h
    | false =>
      rw [if_neg Bool.false_ne_true] at h
      simp only [Option.bind_eq_bind, Option.bind_eq_some_iff, readChar?_eq_some_iff,
        ofGroups?_eq_some_iff] at h
      obtain ⟨_, rfl, t, rfl, _, hgroups, h⟩ := h
      obtain ⟨⟨tail, dotted, t'⟩, htail⟩ : ∃ p, readGroups (7 - head.length) true t = p := ⟨_, rfl⟩
      obtain ⟨htailLe, v, rfl, hv⟩ := spellsGroups_of_readGroups htail
      rw [htail] at hgroups h
      cases h
      exact ⟨_, by simp only [List.append_assoc, List.cons_append],
        .short hu hv (by omega) hgroups⟩

theorem groupsEnded_colons (r : List Char) : GroupsEnded (':' :: ':' :: r) where
  noDigit := ended_cons (by decide) _
  noDot := by simp
  noGroup := by
    rintro _ ⟨⟩
    exact ended_cons (by decide) _

theorem read?_append {ip : Ipv6} (h : Spells w ip) (hr : GroupsEnded r) :
    read? (w ++ r) = some (ip, r) := by
  cases h with
  | full h =>
    have hgroups := readGroups_append h (Nat.le_of_eq ip.length_eq) hr
    have hip := ofGroups?_eq_some_iff.mpr (rfl : ip.groups = ip.groups)
    simp only [read?, hgroups, if_pos ip.length_eq, hip]
    rfl
  | @short dotted u v head tail _ hu hv hlt hgroups =>
    have hhead : readGroups 8 true (u ++ ':' :: ':' :: (v ++ r)) = (head, false, _) :=
      readGroups_append hu (by omega) (groupsEnded_colons _)
    have htail : readGroups (7 - head.length) true (v ++ r) = (tail, dotted, r) :=
      readGroups_append hv (by omega) hr
    have hip := ofGroups?_eq_some_iff.mpr hgroups
    have hlen : ¬ head.length = 8 := by omega
    rw [List.append_assoc, List.cons_append, List.cons_append]
    simp only [read?, hhead, if_neg hlen, if_neg Bool.false_ne_true, Option.bind_eq_bind,
      Option.bind_eq_some_iff, readChar?_eq_some_iff]
    exact ⟨_, rfl, _, rfl, ip, by rw [htail, hip], by rw [htail]; rfl⟩

end Ipv6

/-! ## Hosts -/

namespace Host

variable {s r w : List Char}

/-- The texts of a scope; without one it is zero. -/
inductive SpellsScope : List Char → UInt32 → Prop where
  | absent : SpellsScope [] 0
  | number {w : List Char} {scope : UInt32} (h : Numeral.Spells 10 w scope.toNat) :
      SpellsScope ('%' :: w) scope

/-- The texts of a host. -/
inductive Spells : List Char → Host → Prop where
  | v4 (ip : Ipv4) : Spells ip.text.toList (.v4 ip)
  | v6 {u v : List Char} {ip : Ipv6} {scope : UInt32} (hu : Ipv6.Spells u ip)
      (hv : SpellsScope v scope) : Spells ('[' :: (u ++ (v ++ [']']))) (.v6 ip scope)

theorem readScope?_eq_some_iff {scope : UInt32} :
    readScope? s = some (scope, r) ↔
      ∃ w, s = '%' :: (w ++ r) ∧ Numeral.Spells 10 w scope.toNat ∧ Ended 10 r := by
  rw [readScope?, marked_eq_some_iff]
  constructor
  · rintro ⟨w, n, rfl, hw, hr, hlt, rfl⟩
    exact ⟨w, rfl, by rwa [UInt32.toNat_ofNat_of_lt' hlt], hr⟩
  · rintro ⟨w, rfl, hw, hr⟩
    exact ⟨w, _, rfl, hw, hr, scope.toNat_lt, UInt32.ofNat_toNat⟩

/-- What stands between an address and the closing bracket. -/
theorem scope_eq_iff {scope : UInt32} :
    (readScope? s).getD (0, s) = (scope, ']' :: r) ↔
      ∃ w, s = w ++ ']' :: r ∧ SpellsScope w scope := by
  constructor
  · intro h
    cases hscope : readScope? s with
    | none =>
      rw [hscope] at h
      cases h
      exact ⟨[], rfl, .absent⟩
    | some p =>
      rw [hscope] at h
      obtain rfl : p = (scope, ']' :: r) := h
      obtain ⟨w, rfl, hw, -⟩ := readScope?_eq_some_iff.mp hscope
      exact ⟨'%' :: w, rfl, .number hw⟩
  · rintro ⟨w, rfl, hw⟩
    cases hw with
    | absent => rfl
    | number hw =>
      have hclose : Ended 10 (']' :: r) := ended_cons (by decide) r
      have hscope := readScope?_eq_some_iff.mpr ⟨_, rfl, hw, hclose⟩
      rw [List.cons_append, hscope]
      rfl

theorem spells_of_read? {h : Host} (hread : read? s = some (h, r)) :
    ∃ w, s = w ++ r ∧ Spells w h := by
  rw [read?] at hread
  cases hv4 : Ipv4.read? s with
  | some p =>
    rw [hv4] at hread
    obtain ⟨ip, t⟩ := p
    obtain ⟨htext, -⟩ := Ipv4.read?_eq_some_iff.mp hv4
    cases hread
    exact ⟨_, htext, .v4 ip⟩
  | none =>
    rw [hv4] at hread
    replace hread : readBracketed? s = some (h, r) := hread
    simp only [readBracketed?, Option.bind_eq_bind, Option.bind_eq_some_iff,
      readChar?_eq_some_iff, Prod.exists] at hread
    obtain ⟨_, rfl, ip, t, hip, t', hscope, hread⟩ := hread
    obtain ⟨u, rfl, hu⟩ := Ipv6.spells_of_read? hip
    cases hread
    obtain ⟨v, rfl, hv⟩ := scope_eq_iff.mp (Prod.ext rfl hscope)
    exact ⟨_, by simp only [List.append_assoc, List.cons_append, List.nil_append], .v6 hu hv⟩

/-- A bracket or a scope ends the groups. -/
theorem groupsEnded_scope {scope : UInt32} (h : SpellsScope w scope) (r : List Char) :
    Ipv6.GroupsEnded (w ++ ']' :: r) := by
  cases h with
  | absent => exact ⟨ended_cons (by decide) _, by simp, by simp⟩
  | number hw => exact ⟨ended_cons (by decide) _, by simp, by simp⟩

theorem read?_append {h : Host} (hw : Spells w h) (hr : Ended 10 r) :
    read? (w ++ r) = some (h, r) := by
  cases hw with
  | v4 ip =>
    rw [read?, Ipv4.read?_eq_some_iff.mpr ⟨rfl, hr⟩]
    rfl
  | @v6 u v ip scope hu hv =>
    have htext : '[' :: (u ++ (v ++ [']'])) ++ r = '[' :: (u ++ (v ++ ']' :: r)) := by
      simp only [List.cons_append, List.append_assoc, List.nil_append]
    have hnone : Ipv4.read? ('[' :: (u ++ (v ++ ']' :: r))) = none :=
      Ipv4.read?_eq_none_of_ended (ended_cons (by decide) _)
    have hip := Ipv6.read?_append hu (groupsEnded_scope hv r)
    have hscope := scope_eq_iff.mpr ⟨v, (rfl : v ++ ']' :: r = _), hv⟩
    have hbracketed : readBracketed? ('[' :: (u ++ (v ++ ']' :: r))) = some (.v6 ip scope, r) := by
      simp only [readBracketed?, Option.bind_eq_bind, Option.bind_eq_some_iff,
        readChar?_eq_some_iff, Prod.exists]
      exact ⟨_, rfl, ip, _, hip, r, by rw [hscope], by rw [hscope]; rfl⟩
    rw [htext, read?, hnone, hbracketed]
    rfl

end Host

end SealedGateway
