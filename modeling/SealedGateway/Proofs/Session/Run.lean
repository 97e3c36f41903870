import SealedGateway.Proofs.Session.Step
import SealedGateway.Session.Run

/-!
# The history of a session

- **`feed_induction`**: what holds of a run and is kept by each way of `Step` holds after any
  frames.
- **`events_step`**, **`events_suffix`**: every event of a run is a step, and the history only
  grows.
-/

namespace SealedGateway.Session

namespace Event

theorem acknowledged_iff {ev : Event} :
    ev.acknowledged = true ↔ ∃ ack, ev.result = .ok (.acknowledged ack) := by
  unfold acknowledged
  split <;> simp_all

theorem accepted_iff {ev : Event} : ev.accepted = true ↔ ∃ m, ev.result = .ok (.accepted m) := by
  unfold accepted
  split <;> simp_all

end Event

namespace Run

theorem feed_append (r : Run) (xs ys : List Bytes) : r.feed (xs ++ ys) = (r.feed xs).feed ys :=
  List.foldl_append

theorem feed_concat (r : Run) (xs : List Bytes) (frame : Bytes) :
    r.feed (xs ++ [frame]) = (r.feed xs).next frame := feed_append r xs [frame]

theorem next_of_process {r : Run} {frame : Bytes} {result : Except Failure Outcome} {s : Session}
    {e : Entropy} (h : r.session.process r.entropy frame = (result, s, e)) :
    r.next frame = r.record frame result s e := by
  unfold next
  rw [h]

/-- One more frame is one step. -/
theorem next_step (r : Run) (frame : Bytes) :
    ∃ result s e, Step r.session r.entropy frame result s e ∧
      r.next frame = r.record frame result s e :=
  ⟨_, _, _, process_step r.session r.entropy frame, rfl⟩

theorem feed_induction {P : Run → Prop} {r : Run} (h₀ : P r)
    (hstep : ∀ r frame result s e, Step r.session r.entropy frame result s e → P r →
      P (r.record frame result s e)) (frames : List Bytes) : P (r.feed frames) := by
  induction frames generalizing r with
  | nil => exact h₀
  | cons frame frames ih =>
    obtain ⟨result, s, e, h, hr⟩ := r.next_step frame
    exact ih (hr ▸ hstep r frame result s e h h₀)

/-- Every event of a run is a step. -/
theorem events_step {r : Run}
    (h₀ : ∀ ev ∈ r.events, ∃ e e', Step ev.before e ev.frame ev.result ev.after e')
    (frames : List Bytes) :
    ∀ ev ∈ (r.feed frames).events, ∃ e e', Step ev.before e ev.frame ev.result ev.after e' := by
  refine feed_induction (P := fun r => ∀ ev ∈ r.events, ∃ e e',
    Step ev.before e ev.frame ev.result ev.after e') h₀ (fun r frame result s e h ih => ?_) frames
  intro ev hev
  rcases List.mem_cons.mp hev with rfl | hev
  · exact ⟨r.entropy, e, h⟩
  · exact ih ev hev

/-- The history only grows. -/
theorem events_suffix (r : Run) (frames : List Bytes) : r.events <:+ (r.feed frames).events :=
  feed_induction (P := fun r' => r.events <:+ r'.events) (List.suffix_refl _)
    (fun _ _ _ _ _ _ ih => ih.trans (List.suffix_cons _ _)) frames

end Run

theorem run_append (connectionId : String) (nonceLimit : Nat) (e : Entropy) (xs ys : List Bytes) :
    run connectionId nonceLimit e (xs ++ ys) = (run connectionId nonceLimit e xs).feed ys :=
  Run.feed_append _ xs ys

end SealedGateway.Session
