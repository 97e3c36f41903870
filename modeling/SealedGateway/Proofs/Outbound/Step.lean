import SealedGateway.Outbound.Mailbox
import SealedGateway.Proofs.Machine

/-!
# What one event does to a mailbox

`Mailbox.step` is a partial function with many branches. Here they are said once:

- **`Step`**: one constructor for each thing that can happen, with its guards and the whole state
  after it; `step_of_eq_some` takes an event that is enabled apart.
- **`eq_or_of_setStage`**: one call goes on to a stage, and the others stay as they are.
- **`Step.of_stopped`**: an owner that has ended writes nothing any more.
- **`answered_of_run`**: a push that nothing comes between is answered.
-/

namespace SealedGateway.Mailbox

/-- What an event can do to a mailbox. -/
inductive Step (m : Mailbox) : Event → Mailbox → Prop where
  | called {request : OutboundRequest} :
      Step m (.call request) { m with calls := m.calls ++ [⟨request, .waitingForSpace⟩] }
  | queued {k : Nat} {payload : Bytes}
      (hk : m.calls[k]? = some ⟨.push payload, .waitingForSpace⟩) (ho : m.owner ≠ .stopped)
      (hq : m.queue.length < m.capacity) :
      Step m (.enqueue k) { m.setStage k .queued with queue := m.queue ++ [k] }
  /-- A request to close is over once it is queued. -/
  | requested {k : Nat} (hk : m.calls[k]? = some ⟨.close, .waitingForSpace⟩)
      (ho : m.owner ≠ .stopped) (hq : m.queue.length < m.capacity) :
      Step m (.enqueue k) { m.setStage k (.answered none) with queue := m.queue ++ [k] }
  | turnedAway {k : Nat} {request : OutboundRequest}
      (hk : m.calls[k]? = some ⟨request, .waitingForSpace⟩) (ho : m.owner = .stopped) :
      Step m (.turnAway k) (m.setStage k (.answered (some closedFailure)))
  | took {k : Nat} {rest : List Nat} {payload : Bytes} {stage : CallStage}
      (ho : m.owner = .receiving) (hq : m.queue = k :: rest)
      (hk : m.calls[k]? = some ⟨.push payload, stage⟩) :
      Step m .receive { m with queue := rest, owner := .writing k payload }
  /-- The owner takes a request to close, and ends. -/
  | tookClose {k : Nat} {rest : List Nat} {stage : CallStage} (ho : m.owner = .receiving)
      (hq : m.queue = k :: rest) (hk : m.calls[k]? = some ⟨.close, stage⟩) :
      Step m .receive m.halt
  | wrote {k : Nat} {payload : Bytes} (ho : m.owner = .writing k payload) :
      Step m .write
        { m with owner := .answering k none, written := m.written ++ [(k, payload)] }
  | failed {k : Nat} {payload : Bytes} {f : Failure} (ho : m.owner = .writing k payload) :
      Step m (.failWrite f) { m with owner := .answering k (some f) }
  | answeredSent {k : Nat} (ho : m.owner = .answering k none) :
      Step m .answer { m.setStage k (.answered none) with owner := .receiving }
  /-- The owner answers a call whose payload it could not write, and ends. -/
  | answeredFailed {k : Nat} {f : Failure} (ho : m.owner = .answering k (some f)) :
      Step m .answer (m.setStage k (.answered (some f))).halt
  | stopped (ho : m.owner = .receiving) : Step m .stop m.halt
  | lost {k : Nat} {request : OutboundRequest} (hk : m.calls[k]? = some ⟨request, .queued⟩)
      (ho : m.owner = .stopped) :
      Step m (.lose k) (m.setStage k (.answered (some lostFailure)))

variable {m m' : Mailbox} {e : Event} {k j : Nat} {c : Call} {s : CallStage}

theorem enqueue_step (h : m.enqueue k = some m') : Step m (.enqueue k) m' := by
  unfold enqueue at h
  split at h
  case h_2 => cases h
  case h_1 request hk =>
    split at h
    case isFalse => cases h
    case isTrue hfree =>
      cases h
      cases request with
      | push payload => exact .queued hk hfree.1 hfree.2
      | close => exact .requested hk hfree.1 hfree.2

theorem receive_step (h : m.receive = some m') : Step m .receive m' := by
  unfold receive at h
  split at h
  case h_2 => cases h
  case h_1 k rest ho hq =>
    split at h
    case h_1 hk =>
      cases h
      exact .took ho hq hk
    case h_2 hk =>
      cases h
      exact .tookClose ho hq hk
    case h_3 => cases h

theorem answer_step (h : m.answer = some m') : Step m .answer m' := by
  unfold answer at h
  split at h
  case h_2 => cases h
  case h_1 k failure ho =>
    cases failure with
    | none =>
      cases h
      exact .answeredSent ho
    | some f =>
      cases h
      exact .answeredFailed ho

/-- An event that is enabled does one of the things that `Step` lists. -/
theorem step_of_eq_some (h : m.step e = some m') : Step m e m' := by
  cases e with
  | call request =>
    cases h
    exact .called
  | enqueue k => exact enqueue_step h
  | turnAway k =>
    simp only [step, turnAway] at h
    split at h
    case h_2 => cases h
    case h_1 hk ho =>
      cases h
      exact .turnedAway hk ho
  | receive => exact receive_step h
  | write =>
    simp only [step, write] at h
    split at h
    case h_2 => cases h
    case h_1 k payload ho =>
      cases h
      exact .wrote ho
  | failWrite f =>
    simp only [step, failWrite] at h
    split at h
    case h_2 => cases h
    case h_1 k payload ho =>
      cases h
      exact .failed ho
  | answer => exact answer_step h
  | stop =>
    simp only [step, stop] at h
    split at h
    case h_2 => cases h
    case h_1 ho =>
      cases h
      exact .stopped ho
  | lose k =>
    simp only [step, lose] at h
    split at h
    case h_2 => cases h
    case h_1 hk ho =>
      cases h
      exact .lost hk ho

/-! ## Calls -/

theorem getElem?_setStage (m : Mailbox) (k : Nat) (s : CallStage) (j : Nat) :
    (m.setStage k s).calls[j]? =
      if k = j then m.calls[j]?.map fun c => { c with stage := s } else m.calls[j]? := by
  rw [setStage, List.getElem?_modify]
  split
  · rfl
  · exact Option.map_id'

theorem getElem?_setStage_self (h : m.calls[k]? = some c) :
    (m.setStage k s).calls[k]? = some { c with stage := s } := by
  rw [getElem?_setStage, if_pos rfl, h, Option.map_some]

theorem getElem?_setStage_ne (h : k ≠ j) : (m.setStage k s).calls[j]? = m.calls[j]? := by
  rw [getElem?_setStage, if_neg h]

/-- A call stays what it was, or it is the one that goes on to a stage. -/
theorem eq_or_of_setStage (h : (m.setStage k s).calls[j]? = some c) :
    (k ≠ j ∧ m.calls[j]? = some c) ∨
      k = j ∧ ∃ before, m.calls[j]? = some ⟨c.request, before⟩ ∧ c = ⟨c.request, s⟩ := by
  rw [getElem?_setStage] at h
  split at h
  case isFalse hne => exact .inl ⟨hne, h⟩
  case isTrue heq =>
    obtain ⟨before, hbefore, rfl⟩ := Option.map_eq_some_iff.mp h
    exact .inr ⟨heq, before.stage, hbefore, rfl⟩

/-- A call keeps its number and its request. -/
theorem Step.request (h : Step m e m') {request : OutboundRequest}
    (hc : m.calls[j]? = some ⟨request, s⟩) : ∃ after, m'.calls[j]? = some ⟨request, after⟩ := by
  have hset (k : Nat) (after : CallStage) :
      ∃ stage, (m.setStage k after).calls[j]? = some ⟨request, stage⟩ := by
    by_cases heq : k = j
    · exact ⟨after, heq ▸ getElem?_setStage_self (heq ▸ hc)⟩
    · exact ⟨s, (getElem?_setStage_ne heq).trans hc⟩
  cases h with
  | called => exact ⟨s, Machine.getElem?_newcomer hc⟩
  | @queued k | @requested k | @turnedAway k | @answeredSent k | @answeredFailed k | @lost k =>
    exact hset k _
  | _ => exact ⟨s, hc⟩

/-- What a mailbox has written stays written. -/
theorem written_grows (h : m.step e = some m') : m.written <+: m'.written := by
  cases step_of_eq_some h with
  | wrote ho => exact List.prefix_append _ _
  | _ => exact List.prefix_rfl

/-- An owner that has ended does not come back, and writes nothing any more. -/
theorem Step.of_stopped (h : Step m e m') (ho : m.owner = .stopped) :
    m'.owner = .stopped ∧ m'.written = m.written := by
  cases h with
  | took h | wrote h | failed h | answeredSent h => cases ho.symm.trans h
  | tookClose | answeredFailed | stopped => exact ⟨rfl, rfl⟩
  | _ => exact ⟨ho, rfl⟩

/-- With the owner gone there is no queue. -/
theorem Step.queue_eq_nil (h : Step m e m') (hq : m.owner = .stopped → m.queue = [])
    (ho : m'.owner = .stopped) : m'.queue = [] := by
  cases h with
  | queued _ hopen _ | requested _ hopen _ => exact absurd ho hopen
  | tookClose | answeredFailed | stopped => rfl
  | took | wrote | failed | answeredSent => cases ho
  | _ => exact hq ho

theorem halt_eq_self (hq : m.queue = []) (ho : m.owner = .stopped) : m.halt = m := by
  rw [halt, ← hq, ← ho]

/-! ## A push that nothing comes between -/

section Push

variable {payload : Bytes} {rest : List Nat}

theorem Step.eq_of_enqueue (h : Step m (.enqueue k) m')
    (hk : m.calls[k]? = some ⟨.push payload, .waitingForSpace⟩) :
    m' = { m.setStage k .queued with queue := m.queue ++ [k] } := by
  cases h with
  | queued => rfl
  | requested hk' => cases hk.symm.trans hk'

theorem Step.eq_of_receive (h : Step m .receive m') (hq : m.queue = k :: rest)
    (hk : m.calls[k]? = some ⟨.push payload, s⟩) :
    m' = { m with queue := rest, owner := .writing k payload } := by
  cases h with
  | took _ hq' hk' =>
    cases hq.symm.trans hq'
    cases hk.symm.trans hk'
    rfl
  | tookClose _ hq' hk' =>
    cases hq.symm.trans hq'
    cases hk.symm.trans hk'

theorem Step.eq_of_write (h : Step m .write m') (ho : m.owner = .writing k payload) :
    m' = { m with owner := .answering k none, written := m.written ++ [(k, payload)] } := by
  cases h with
  | wrote ho' =>
    cases ho.symm.trans ho'
    rfl

theorem Step.eq_of_answer (h : Step m .answer m') (ho : m.owner = .answering k none) :
    m' = { m.setStage k (.answered none) with owner := .receiving } := by
  cases h with
  | answeredSent ho' =>
    cases ho.symm.trans ho'
    rfl
  | answeredFailed ho' => cases ho.symm.trans ho'

/-- A push that finds the queue empty, and is taken, written and answered at once, is answered. -/
theorem answered_of_run (hq : m.queue = [])
    (h : m.run? [.call (.push payload), .enqueue m.calls.length, .receive, .write, .answer] =
      some m') : m'.calls[m.calls.length]? = some ⟨.push payload, .answered none⟩ := by
  obtain ⟨m₁, hcall, h⟩ := Machine.run_cons_iff.mp h
  obtain ⟨m₂, henqueue, h⟩ := Machine.run_cons_iff.mp h
  obtain ⟨m₃, hreceive, h⟩ := Machine.run_cons_iff.mp h
  obtain ⟨m₄, hwrite, h⟩ := Machine.run_cons_iff.mp h
  obtain ⟨m₅, hanswer, h⟩ := Machine.run_cons_iff.mp h
  obtain rfl : m₅ = m' := Option.some.inj h
  have h₁ : m₁ = { m with calls := m.calls ++ [⟨.push payload, .waitingForSpace⟩] } :=
    (Option.some.inj hcall).symm
  have hwaiting : m₁.calls[m.calls.length]? = some ⟨.push payload, .waitingForSpace⟩ := by
    rw [h₁]
    exact List.getElem?_concat_length
  have h₂ := (step_of_eq_some henqueue).eq_of_enqueue hwaiting
  have hqueued : m₂.calls[m.calls.length]? = some ⟨.push payload, .queued⟩ := by
    rw [h₂]
    exact getElem?_setStage_self hwaiting
  have hqueue : m₂.queue = [m.calls.length] := by
    rw [h₂, h₁]
    exact congrArg (· ++ _) hq
  have h₃ := (step_of_eq_some hreceive).eq_of_receive hqueue hqueued
  have h₄ := (step_of_eq_some hwrite).eq_of_write (congrArg owner h₃)
  have h₅ := (step_of_eq_some hanswer).eq_of_answer (congrArg owner h₄)
  have hsame : m₄.calls = m₂.calls := by rw [h₄, h₃]
  rw [h₅]
  exact getElem?_setStage_self (hsame ▸ hqueued)

end Push

end SealedGateway.Mailbox
