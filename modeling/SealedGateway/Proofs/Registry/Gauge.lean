import Mathlib.Data.List.InsertIdx
import SealedGateway.Proofs.Registry.Tasks

/-!
# The number of entries that is shown

A call reads the number of entries together with its change, and shows it only after it has given up
the lock. Calls that overlap can show their numbers in another order than that of their changes, and
then an old number is shown for good.

- **`Calls`**: how far the calls of a history have come. They are numbered in the order of their
  changes; `sizes` are the numbers of entries that they read.
- **`ShownInv`**: what is shown is what the call read that was the last to show.
- **`shown_eq_size_iff`**: when all calls are over, the number shown is right just if that call read
  the number of entries that is left; it did if no call overtook another.
- **`not_shown_eq_size`**: with two calls that overlap the number can be wrong.
-/

namespace SealedGateway.Registry

variable {r r' : Registry} {events : List Event} {ev : Event}

/-! ## Calls -/

/-- Whether an event is the change that a call makes. -/
def Event.isChange : Event → Bool
  | .add _ _ | .remove _ | .release _ _ => true
  | .issueSerial | .display _ => false

/-- How far the calls of a history have come. A call has the number of the calls that made their
change before it. -/
structure Calls where
  /-- How many calls have made their change. -/
  begun : Nat
  /-- The calls that have not shown what they read, oldest first. -/
  waiting : List Nat
  /-- The call that was the last to show what it read. -/
  last : Option Nat

namespace Calls

/-- One event more. -/
def next (c : Calls) : Event → Calls
  | .add _ _ | .remove _ | .release _ _ =>
    { c with begun := c.begun + 1, waiting := c.waiting ++ [c.begun] }
  | .display i => { c with waiting := c.waiting.eraseIdx i, last := c.waiting[i]? }
  | .issueSerial => c

/-- The calls of a history. -/
def after (events : List Event) : Calls := events.foldl next ⟨0, [], none⟩

theorem after_concat (events : List Event) (ev : Event) :
    after (events ++ [ev]) = (after events).next ev := by
  rw [after, List.foldl_append]
  rfl

end Calls

/-- The numbers of entries that the calls of a run read, in the order of their changes. -/
def sizes (events : List Event) : List Nat :=
  Machine.trace step (fun _ ev r => if ev.isChange then [r.directory.size] else []) empty events

/-! ## Events -/

/-- What an event does to what is shown. -/
inductive Shows (r : Registry) : Event → Registry → Prop where
  /-- A call makes its change and reads the number of entries. -/
  | changed {ev : Event} {directory : Directory} (hev : ev.isChange = true)
      (hnext : ∀ c : Calls, c.next ev =
        { c with begun := c.begun + 1, waiting := c.waiting ++ [c.begun] }) :
      Shows r ev (r.change directory)
  /-- A call shows what it read. -/
  | displayed {i size : Nat} (hi : r.unshown[i]? = some size) :
      Shows r (.display i) { r with shown := some size, unshown := r.unshown.eraseIdx i }
  | issued : Shows r .issueSerial { r with nextSerial := r.nextSerial + 1 }

theorem shows_of_eq_some (h : r.step ev = some r') : Shows r ev r' := by
  cases ev with
  | issueSerial =>
    cases h
    exact .issued
  | add id handle =>
    cases h
    exact .changed rfl fun _ => rfl
  | remove id =>
    cases h
    exact .changed rfl fun _ => rfl
  | release id serial =>
    cases h
    exact .changed rfl fun _ => rfl
  | display i =>
    simp only [step, display] at h
    split at h
    case h_2 => cases h
    case h_1 size hi =>
      cases h
      exact .displayed hi

/-- A call reads the number of entries with its change, and no other event reads it. -/
theorem sizes_concat (h : empty.run? events = some r) (hstep : r.step ev = some r') :
    sizes (events ++ [ev]) =
      sizes events ++ if ev.isChange then [r'.directory.size] else [] :=
  Machine.trace_concat h hstep

/-! ## The invariant -/

/-- Calls that have read something have read the same when more has been read. -/
theorem map_lookup_append {calls sizes read : List Nat}
    (h : calls.map (sizes[·]?) = read.map some) (more : List Nat) :
    calls.map ((sizes ++ more)[·]?) = read.map some := by
  rw [← h]
  refine List.map_congr_left fun k hk => ?_
  have hmem : sizes[k]? ∈ read.map some := h ▸ List.mem_map_of_mem (f := (sizes[·]?)) hk
  obtain ⟨size, -, hsize⟩ := List.mem_map.mp hmem
  obtain ⟨hlt, -⟩ := List.getElem?_eq_some_iff.mp hsize.symm
  exact List.getElem?_append_left hlt

/-- What is shown, and what is still to be shown, is what the calls read. -/
structure ShownInv (events : List Event) (r : Registry) : Prop where
  begun : (Calls.after events).begun = (sizes events).length
  size : r.directory.size = (sizes events).getLast?.getD 0
  unshown : (Calls.after events).waiting.map ((sizes events)[·]?) = r.unshown.map some
  shown : (Calls.after events).last.toList.map ((sizes events)[·]?) = r.shown.toList.map some
  /-- As long as nothing is shown, all calls have still to show what they read. -/
  idle : r.shown = none → r.unshown.length = (sizes events).length

namespace ShownInv

theorem start : ShownInv [] empty := ⟨rfl, rfl, rfl, rfl, fun _ => rfl⟩

/-- Which call has still to show a number. -/
theorem waiting_eq (h : ShownInv events r) {i size : Nat} (hi : r.unshown[i]? = some size) :
    ∃ k, (Calls.after events).waiting[i]? = some k ∧ (sizes events)[k]? = some size := by
  have hmap : ((Calls.after events).waiting.map ((sizes events)[·]?))[i]? = some (some size) := by
    rw [h.unshown, List.getElem?_map, hi]
    rfl
  rwa [List.getElem?_map, Option.map_eq_some_iff] at hmap

/-- What is shown is what the last call read that showed something. -/
theorem shown_eq (h : ShownInv events r) {k : Nat} (hk : (Calls.after events).last = some k) :
    ∃ size, r.shown = some size ∧ (sizes events)[k]? = some size := by
  have hshown := h.shown
  rw [hk] at hshown
  cases hr : r.shown with
  | none =>
    rw [hr] at hshown
    cases hshown
  | some size =>
    rw [hr] at hshown
    exact ⟨size, rfl, (List.cons.inj hshown).1⟩

/-- Nothing is shown as long as no call has shown what it read. -/
theorem shown_eq_none (h : ShownInv events r) (hnone : (Calls.after events).last = none) :
    r.shown = none := by
  have hshown := h.shown
  rw [hnone] at hshown
  cases hr : r.shown with
  | none => rfl
  | some size =>
    rw [hr] at hshown
    cases hshown

theorem changed (h : ShownInv events r) (hrun : empty.run? events = some r)
    {directory : Directory} (hstep : r.step ev = some (r.change directory))
    (hev : ev.isChange = true)
    (hnext : ∀ c : Calls, c.next ev =
      { c with begun := c.begun + 1, waiting := c.waiting ++ [c.begun] }) :
    ShownInv (events ++ [ev]) (r.change directory) := by
  have hsizes : sizes (events ++ [ev]) = sizes events ++ [directory.size] := by
    rw [sizes_concat hrun hstep, if_pos hev]
    rfl
  refine ⟨?_, ?_, ?_, ?_, fun hnone => ?_⟩
  · rw [Calls.after_concat, hnext, hsizes, List.length_append, h.begun]
    rfl
  · rw [hsizes, List.getLast?_concat]
    rfl
  · rw [Calls.after_concat, hnext, hsizes, List.map_append, map_lookup_append h.unshown, h.begun]
    simp [change]
  · rw [Calls.after_concat, hnext, hsizes]
    exact map_lookup_append h.shown _
  · rw [hsizes, List.length_append, ← h.idle hnone]
    exact List.length_append

theorem displayed (h : ShownInv events r) (hrun : empty.run? events = some r) {i size : Nat}
    (hi : r.unshown[i]? = some size)
    (hstep : r.step (.display i) =
      some { r with shown := some size, unshown := r.unshown.eraseIdx i }) :
    ShownInv (events ++ [.display i])
      { r with shown := some size, unshown := r.unshown.eraseIdx i } := by
  have hsizes : sizes (events ++ [.display i]) = sizes events := by
    rw [sizes_concat hrun hstep]
    exact List.append_nil _
  obtain ⟨k, hk, hread⟩ := h.waiting_eq hi
  refine ⟨?_, ?_, ?_, ?_, nofun⟩
  · rw [Calls.after_concat, hsizes]
    exact h.begun
  · rw [hsizes]
    exact h.size
  · rw [Calls.after_concat, hsizes]
    change ((Calls.after events).waiting.eraseIdx i).map _ = (r.unshown.eraseIdx i).map some
    rw [← List.eraseIdx_map, h.unshown, List.eraseIdx_map]
  · rw [Calls.after_concat, hsizes]
    change ((Calls.after events).waiting[i]?).toList.map _ = [some size]
    rw [hk, Option.toList_some, List.map_singleton, hread]

theorem step (h : ShownInv events r) (hrun : empty.run? events = some r)
    (hstep : r.step ev = some r') : ShownInv (events ++ [ev]) r' := by
  cases shows_of_eq_some hstep with
  | changed hev hnext => exact h.changed hrun hstep hev hnext
  | displayed hi => exact h.displayed hrun hi hstep
  | issued =>
    have hsizes : sizes (events ++ [.issueSerial]) = sizes events := by
      rw [sizes_concat hrun hstep]
      exact List.append_nil _
    refine ⟨?_, ?_, ?_, ?_, fun hnone => ?_⟩
    · rw [Calls.after_concat, hsizes]
      exact h.begun
    · rw [hsizes]
      exact h.size
    · rw [Calls.after_concat, hsizes]
      exact h.unshown
    · rw [Calls.after_concat, hsizes]
      exact h.shown
    · rw [hsizes]
      exact h.idle hnone

theorem run (h : empty.run? events = some r) : ShownInv events r :=
  Machine.run_induction (f := Registry.step) start
    (fun _ _ _ _ hrun ih hstep => ih.step hrun hstep) h

end ShownInv

/-! ## Calls that show in turn -/

/-- If no call overtakes another, the calls that have shown what they read are the oldest ones. -/
theorem waiting_in_turn (h : empty.run? events = some r)
    (hturn : ∀ i, .display i ∈ events → i = 0) :
    ∃ n ≤ (Calls.after events).begun,
      (Calls.after events).waiting = List.range' n ((Calls.after events).begun - n) ∧
      ∀ k, (Calls.after events).last = some k → k + 1 = n := by
  refine Machine.run_induction (f := Registry.step)
    (motive := fun es _ => (∀ i, .display i ∈ es → i = 0) →
      ∃ n ≤ (Calls.after es).begun,
        (Calls.after es).waiting = List.range' n ((Calls.after es).begun - n) ∧
        ∀ k, (Calls.after es).last = some k → k + 1 = n)
    (fun _ => ⟨0, Nat.le_refl _, rfl, nofun⟩) ?_ h hturn
  intro es ev t u hrun ih hstep hturn
  obtain ⟨n, hn, hwaiting, hlast⟩ := ih fun i hi => hturn i (List.mem_append_left _ hi)
  rw [Calls.after_concat]
  cases shows_of_eq_some hstep with
  | changed hev hnext =>
    refine ⟨n, ?_, ?_, ?_⟩
    all_goals rw [hnext]
    · exact Nat.le_succ_of_le hn
    · simp only
      rw [hwaiting, Nat.succ_sub hn, List.range'_1_concat, Nat.add_sub_cancel' hn]
    · exact hlast
  | @displayed i size hi =>
    obtain rfl : i = 0 := hturn i (List.mem_append_right _ List.mem_cons_self)
    obtain ⟨k, hk, -⟩ := (ShownInv.run hrun).waiting_eq hi
    -- The call that shows what it read is the oldest one that had not.
    have hlt : n < (Calls.after es).begun := by
      refine Nat.lt_of_le_of_ne hn fun heq => ?_
      rw [hwaiting, heq, Nat.sub_self] at hk
      cases hk
    have hsplit : (Calls.after es).waiting =
        n :: List.range' (n + 1) ((Calls.after es).begun - (n + 1)) := by
      rw [hwaiting, ← List.range'_succ]
      congr 1
      omega
    refine ⟨n + 1, hlt, ?_, fun j hj => ?_⟩
    · change (Calls.after es).waiting.eraseIdx 0 = _
      rw [hsplit]
      rfl
    · change (Calls.after es).waiting[0]? = some j at hj
      rw [hsplit] at hj
      exact congrArg (· + 1) (Option.some.inj hj).symm
  | issued => exact ⟨n, hn, hwaiting, hlast⟩

/-! ## All calls over -/

/-- **What is shown when all calls are over.** It is what the call read that was the last to show
anything. So it is the number of entries just if that call read the number that is left, and it is
if no call overtook another. If it is not, the next call that is undisturbed puts it right. -/
theorem shown_eq_size_iff (h : empty.run? events = some r) (hdone : r.unshown = []) :
    (∀ k, (Calls.after events).last = some k → r.shown = (sizes events)[k]?) ∧
    (r.shown.getD 0 = r.directory.size ↔
      ∀ k, (Calls.after events).last = some k → (sizes events)[k]? = (sizes events).getLast?) ∧
    ((∀ i, .display i ∈ events → i = 0) → r.shown.getD 0 = r.directory.size) ∧
    ∀ ev r₁ r₂, ev.isChange = true → r.step ev = some r₁ → r₁.step (.display 0) = some r₂ →
      r₂.unshown = [] ∧ r₂.shown = some r₂.directory.size := by
  have hinv : ShownInv events r := .run h
  have hread : ∀ k, (Calls.after events).last = some k → r.shown = (sizes events)[k]? := by
    intro k hk
    obtain ⟨size, hshown, hsize⟩ := hinv.shown_eq hk
    rw [hshown, hsize]
  have hiff : r.shown.getD 0 = r.directory.size ↔
      ∀ k, (Calls.after events).last = some k → (sizes events)[k]? = (sizes events).getLast? := by
    rw [hinv.size]
    cases hlast : (Calls.after events).last with
    | none =>
      -- Nobody has shown anything, so nobody has read anything.
      have hnone := hinv.shown_eq_none hlast
      have hidle := hinv.idle hnone
      rw [hdone] at hidle
      simp [hnone, List.eq_nil_of_length_eq_zero hidle.symm]
    | some k =>
      obtain ⟨size, hshown, hsize⟩ := hinv.shown_eq hlast
      obtain ⟨last, hlast'⟩ : ∃ last, (sizes events).getLast? = some last := by
        cases hl : (sizes events).getLast? with
        | some last => exact ⟨last, rfl⟩
        | none =>
          rw [List.getLast?_eq_none_iff.mp hl] at hsize
          cases hsize
      simp [hshown, hsize, hlast']
  refine ⟨hread, hiff, fun hturn => hiff.mpr fun k hk => ?_, fun ev r₁ r₂ hev hstep hshow => ?_⟩
  · obtain ⟨n, hn, hwaiting, hlast⟩ := waiting_in_turn h hturn
    have hnil : (Calls.after events).waiting = [] := by
      have hunshown := hinv.unshown
      rwa [hdone, List.map_nil, List.map_eq_nil_iff] at hunshown
    have hlength : (sizes events).length = k + 1 := by
      rw [← hinv.begun, hlast k hk]
      rw [hwaiting, List.range'_eq_nil_iff] at hnil
      omega
    rw [List.getLast?_eq_getElem?, hlength]
    rfl
  · cases shows_of_eq_some hstep with
    | displayed => cases hev
    | issued => cases hev
    | @changed _ directory hev hnext =>
      have hone : (r.change directory).unshown = [directory.size] := by
        simp [change, hdone]
      simp only [step, display, hone, List.getElem?_cons_zero] at hshow
      cases hshow
      exact ⟨rfl, rfl⟩

namespace Sample

def handle : Handle := ⟨1, Shared.Sample.address, 0⟩

/-- Two calls overlap, and show in the order of their changes. -/
def inTurn : List Event := [.add "a" handle, .add "b" handle, .display 0, .display 0]

/-- Two calls overlap, and the second one shows first. -/
def overtaken : List Event := [.add "a" handle, .add "b" handle, .display 1, .display 0]

end Sample

/-- Calls that overlap do no harm if they show in turn. -/
theorem shown_eq_size_in_turn : ∃ r, empty.run? Sample.inTurn = some r ∧ r.unshown = [] ∧
    r.directory.size = 2 ∧ r.shown.getD 0 = r.directory.size := by
  obtain ⟨r, h, hdone, hsize⟩ : ∃ r, empty.run? Sample.inTurn = some r ∧ r.unshown = [] ∧
    r.directory.size = 2 := ⟨_, rfl, rfl, rfl⟩
  refine ⟨r, h, hdone, hsize, (shown_eq_size_iff h hdone).2.2.1 fun i hi => ?_⟩
  simpa [Sample.inTurn] using hi

/-- The first call shows one entry after the second one has shown two. -/
theorem not_shown_eq_size : ¬ ∀ events r, empty.run? events = some r → r.unshown = [] →
    r.shown.getD 0 = r.directory.size := by
  intro hall
  obtain ⟨r, h, hdone, hsize, hshown⟩ : ∃ r, empty.run? Sample.overtaken = some r ∧
    r.unshown = [] ∧ r.directory.size = 2 ∧ r.shown = some 1 := ⟨_, rfl, rfl, rfl, rfl⟩
  have heq := hall _ r h hdone
  rw [hsize, hshown] at heq
  cases heq

end SealedGateway.Registry
