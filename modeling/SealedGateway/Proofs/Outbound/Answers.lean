import Mathlib.Data.List.Nodup
import SealedGateway.Proofs.Outbound.Step

/-!
# What calls are told

What a run of a mailbox shows of its calls, and that each of them is told one thing at most.

- **`entered`**, **`taken`**, **`failures`** and **`answers`** are what a run shows: the calls that
  were queued, the pushes that the owner took, the writes that failed, and what calls were told.
- **`AnswersInv`**: what calls were told is what their stages say, and they were told it once.
-/

namespace SealedGateway.Mailbox

variable {capacity : Nat} {events : List Event} {m m' : Mailbox} {e : Event} {k : Nat}

/-! ## What a run shows -/

/-- The call that an event queues. -/
def Event.entered? : Event → Option Nat
  | .enqueue k => some k
  | _ => none

/-- The calls that were queued, oldest first. -/
def entered (events : List Event) : List Nat := events.filterMap Event.entered?

/-- The push that an event, which leads to a state, has the owner take. -/
def Event.taken? (e : Event) (after : Mailbox) : Option Nat :=
  match e, after.owner with
  | .receive, .writing k _ => some k
  | _, _ => none

/-- The pushes that the owner took, oldest first. -/
def taken (capacity : Nat) (events : List Event) : List Nat :=
  Machine.trace Mailbox.step (fun _ e m' => (e.taken? m').toList) (empty capacity) events

/-- The push that an event finds impossible to write, and why. -/
def failure? (m : Mailbox) (e : Event) : Option (Nat × Failure) :=
  match e, m.owner with
  | .failWrite f, .writing k _ => some (k, f)
  | _, _ => none

/-- The pushes that could not be written, oldest first. -/
def failures (capacity : Nat) (events : List Event) : List (Nat × Failure) :=
  Machine.trace Mailbox.step (fun m e _ => (m.failure? e).toList) (empty capacity) events

/-- The call that an event answers, and what it is told. -/
def answer? (m : Mailbox) : Event → Option (Nat × Option Failure)
  | .enqueue k =>
    match m.calls[k]? with
    | some ⟨.close, _⟩ => some (k, none)
    | _ => none
  | .turnAway k => some (k, some closedFailure)
  | .lose k => some (k, some lostFailure)
  | .answer =>
    match m.owner with
    | .answering k f => some (k, f)
    | _ => none
  | _ => none

/-- What calls were told, oldest first. -/
def answers (capacity : Nat) (events : List Event) : List (Nat × Option Failure) :=
  Machine.trace Mailbox.step (fun m e _ => (m.answer? e).toList) (empty capacity) events

theorem entered_concat (events : List Event) (e : Event) :
    entered (events ++ [e]) = entered events ++ e.entered?.toList := by
  rw [entered, List.filterMap_append]
  cases h : e.entered? <;> simp [entered, h]

theorem taken_concat (h : (empty capacity).run? events = some m) (hstep : m.step e = some m') :
    taken capacity (events ++ [e]) = taken capacity events ++ (e.taken? m').toList :=
  Machine.trace_concat h hstep

theorem failures_concat (h : (empty capacity).run? events = some m) (hstep : m.step e = some m') :
    failures capacity (events ++ [e]) = failures capacity events ++ (m.failure? e).toList :=
  Machine.trace_concat h hstep

theorem answers_concat (h : (empty capacity).run? events = some m) (hstep : m.step e = some m') :
    answers capacity (events ++ [e]) = answers capacity events ++ (m.answer? e).toList :=
  Machine.trace_concat h hstep

/-! ## Answers -/

/-- What calls were told is what their stages say, and each was told once. -/
structure AnswersInv (R : List (Nat × Option Failure)) (m : Mailbox) : Prop where
  told : ∀ k f, (k, f) ∈ R ↔ ∃ request, m.calls[k]? = some ⟨request, .answered f⟩
  once : (R.map Prod.fst).Nodup

namespace AnswersInv

variable {R : List (Nat × Option Failure)} {request : OutboundRequest} {s : CallStage}

theorem start (capacity : Nat) : AnswersInv [] (empty capacity) :=
  ⟨fun k f => by simp [empty], List.nodup_nil⟩

/-- Nobody is told anything. -/
theorem quiet (h : AnswersInv R m)
    (hcalls : ∀ (k : Nat) f request, m'.calls[k]? = some ⟨request, .answered f⟩ ↔
      m.calls[k]? = some ⟨request, .answered f⟩) : AnswersInv R m' :=
  ⟨fun k f => (h.told k f).trans (exists_congr fun request => (hcalls k f request).symm), h.once⟩

/-- A call is told what became of it, and was told nothing before. -/
theorem tell (h : AnswersInv R m) (hc : m.calls[k]? = some ⟨request, s⟩)
    (hs : ∀ f, s ≠ .answered f) {f : Option Failure}
    (hcalls : m'.calls = (m.setStage k (.answered f)).calls) :
    AnswersInv (R ++ [(k, f)]) m' := by
  have hself : m'.calls[k]? = some ⟨request, .answered f⟩ := by
    rw [hcalls]
    exact getElem?_setStage_self hc
  have hnew : ∀ f, (k, f) ∉ R := by
    intro f hf
    obtain ⟨request', hc'⟩ := (h.told k f).mp hf
    exact hs f (congrArg Call.stage (Option.some.inj (hc.symm.trans hc')))
  refine ⟨fun j f' => ?_, ?_⟩
  · rw [List.mem_append, List.mem_singleton]
    by_cases hj : k = j
    · subst hj
      rw [hself]
      simp [hnew f', eq_comm]
    · rw [hcalls, getElem?_setStage_ne hj, ← h.told j f']
      simp [Ne.symm hj]
  · rw [List.map_append]
    refine List.nodup_append.mpr ⟨h.once, List.nodup_singleton _, fun j hj i hi => ?_⟩
    obtain ⟨⟨j, f'⟩, hmem, rfl⟩ := List.mem_map.mp hj
    obtain rfl : i = k := List.mem_singleton.mp hi
    rintro rfl
    exact hnew f' hmem

theorem step (h : AnswersInv R m) (hs : Step m e m')
    (howner : ∀ k f, m.owner = .answering k f → ∃ request, m.calls[k]? = some ⟨request, .queued⟩) :
    AnswersInv (R ++ (m.answer? e).toList) m' := by
  have hsame (hnone : m.answer? e = none)
      (hcalls : ∀ (k : Nat) f request, m'.calls[k]? = some ⟨request, .answered f⟩ ↔
        m.calls[k]? = some ⟨request, .answered f⟩) :
      AnswersInv (R ++ (m.answer? e).toList) m' := by
    rw [hnone, Option.toList_none, List.append_nil]
    exact h.quiet hcalls
  cases hs with
  | called =>
    refine hsame rfl fun k f request => ?_
    rw [List.getElem?_append]
    split
    · rfl
    · next hge =>
      rw [List.getElem?_eq_none (Nat.le_of_not_lt hge)]
      rcases k - m.calls.length with _ | n <;> simp
  | @queued k payload hk ho hq =>
    refine hsame (by simp only [answer?, hk]) fun j f request => ?_
    show (m.setStage k .queued).calls[j]? = _ ↔ _
    by_cases hj : k = j
    · subst hj
      rw [getElem?_setStage_self hk, hk]
      simp
    · rw [getElem?_setStage_ne hj]
  | requested hk ho hq =>
    simp only [answer?, hk]
    exact h.tell hk nofun rfl
  | turnedAway hk ho => exact h.tell hk nofun rfl
  | @answeredSent k ho =>
    obtain ⟨request, hk⟩ := howner k none ho
    simp only [answer?, ho]
    exact h.tell hk nofun rfl
  | @answeredFailed k f ho =>
    obtain ⟨request, hk⟩ := howner k (some f) ho
    simp only [answer?, ho]
    exact h.tell hk nofun rfl
  | lost hk ho => exact h.tell hk nofun rfl
  | _ => exact hsame rfl fun k f request => Iff.rfl

end AnswersInv

end SealedGateway.Mailbox
