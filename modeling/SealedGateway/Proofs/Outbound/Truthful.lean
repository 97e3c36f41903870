import SealedGateway.Proofs.Outbound.Owner

/-!
# What pushes are told is what happened

- **`Truthful`**: a push is told of success just if its payload was written, a failed write is the
  failure of one push, and what was never taken is never written.
- **`Truthful.of_run`** has it for a run, whatever comes first in it.
-/

namespace SealedGateway.Mailbox

variable {capacity : Nat} {events : List Event} {m m' : Mailbox} {k : Nat}

namespace PushInv

variable {E T : List Nat} {F : List (Nat × Failure)}

/-- What was written is the payload of a push that is told so, or is about to be. -/
theorem of_written (h : PushInv E T F m) {payload : Bytes} (hw : (k, payload) ∈ m.written) :
    ∃ stage, m.calls[k]? = some ⟨.push payload, stage⟩ ∧
      (stage = .answered none ∨ stage = .queued ∧ m.owner = .answering k none) := by
  have hmem : k ∈ m.written.map Prod.fst := List.mem_map_of_mem hw
  have ht := h.written_mem hw
  have hin := h.taken_prefix.subset ht
  obtain ⟨stage, hk⟩ := h.written k payload hw
  refine ⟨stage, hk, ?_⟩
  cases h.placed k _ hk with
  | waiting hnot | turnedAway hnot _ => exact absurd hin hnot
  | queued _ hbusy => exact .inr ⟨rfl, h.owner.of_written h.nodup_taken hmem (hbusy ht)⟩
  | sent _ => exact .inl rfl
  | failed hf => exact absurd hmem (h.owner.of_failed h.nodup_taken hf).2.1
  | lost _ hnot _ => exact absurd ht hnot

/-- A push that could not be written is told why, or is about to be. -/
theorem of_failed (h : PushInv E T F m) {f : Failure} (hf : (k, f) ∈ F) :
    ∃ payload stage, m.calls[k]? = some ⟨.push payload, stage⟩ ∧
      k ∉ m.written.map Prod.fst ∧
      (stage = .answered (some f) ∨ stage = .queued ∧ m.owner = .answering k (some f)) := by
  obtain ⟨ht, hnot, hone⟩ := h.owner.of_failed h.nodup_taken hf
  have hin := h.taken_prefix.subset ht
  obtain ⟨payload, stage, hk⟩ := h.takes k ht
  refine ⟨payload, stage, hk, hnot, ?_⟩
  cases h.placed k _ hk with
  | waiting hout | turnedAway hout _ => exact absurd hin hout
  | queued _ hbusy => exact .inr ⟨rfl, h.owner.failing hf (hbusy ht)⟩
  | sent hw => exact absurd (List.mem_map_of_mem hw) hnot
  | failed hf' => exact .inl (by rw [hone _ hf'])
  | lost _ hout _ => exact absurd ht hout

/-- A push that is told of a failure is told of its own, or that it was never taken. -/
theorem of_told (h : PushInv E T F m) {payload : Bytes} {f : Failure}
    (hk : m.calls[k]? = some ⟨.push payload, .answered (some f)⟩) :
    (k, f) ∈ F ∨ k ∉ T ∧ (f = closedFailure ∨ f = lostFailure) := by
  cases h.placed k _ hk with
  | failed hf => exact .inl hf
  | turnedAway hnot _ => exact .inr ⟨fun ht => hnot (h.taken_prefix.subset ht), .inl rfl⟩
  | lost _ hnot _ => exact .inr ⟨hnot, .inr rfl⟩

end PushInv

/-! ## Runs -/

/-- What is told is what happened. -/
structure Truthful (capacity : Nat) (events : List Event) (m : Mailbox) : Prop where
  /-- A call is told one thing at most, -/
  once : ((answers capacity events).map Prod.fst).Nodup
  /-- and from then on that is what it has been told. -/
  told : ∀ k f, (k, f) ∈ answers capacity events ↔
    ∃ request, m.calls[k]? = some ⟨request, .answered f⟩
  /-- A push that is told anything is told of success just if its own payload was written. -/
  success : ∀ (k : Nat) payload f, m.calls[k]? = some ⟨.push payload, .answered f⟩ →
    (f = none ↔ (k, payload) ∈ m.written)
  /-- Nothing is written twice, -/
  writtenOnce : (m.written.map Prod.fst).Nodup
  /-- and whatever is written is the payload of a push that is told so, if not now then next. -/
  written : ∀ k payload, (k, payload) ∈ m.written →
    ∃ stage, m.calls[k]? = some ⟨.push payload, stage⟩ ∧
      (stage = .answered none ∨ stage = .queued ∧ m.owner = .answering k none)
  /-- A push that could not be written is told why, if not now then next, -/
  failed : ∀ k f, (k, f) ∈ failures capacity events →
    ∃ payload stage, m.calls[k]? = some ⟨.push payload, stage⟩ ∧
      k ∉ m.written.map Prod.fst ∧
      (stage = .answered (some f) ∨ stage = .queued ∧ m.owner = .answering k (some f))
  /-- and no other push is told of it: who is told of a failure that is not its own was never
  taken. -/
  others : ∀ (k : Nat) payload f, m.calls[k]? = some ⟨.push payload, .answered (some f)⟩ →
    (k, f) ∈ failures capacity events ∨
      k ∉ taken capacity events ∧ (f = closedFailure ∨ f = lostFailure)
  /-- A push that was taken is seen through. -/
  seen : ∀ k ∈ taken capacity events, k ∈ m.written.map Prod.fst ∨
    (∃ f, (k, f) ∈ failures capacity events) ∨ ∃ payload, m.owner = .writing k payload
  /-- A push that was not taken is not written, is told of nothing but a failure to transport it,
  and can be told that as soon as the owner has ended. -/
  untaken : ∀ (k : Nat) payload stage, m.calls[k]? = some ⟨.push payload, stage⟩ →
    k ∉ taken capacity events →
      k ∉ m.written.map Prod.fst ∧
      (∀ f, stage = .answered f → ∃ detail, f = some (.transport detail)) ∧
      (m.owner = .stopped → (∀ f, stage ≠ .answered f) → ∃ e m' detail,
        m.step e = some m' ∧ m.answer? e = some (k, some (.transport detail)))
  /-- Payloads are written in the order in which they were queued, without a gap. -/
  inOrder : m.written.map Prod.fst <+: taken capacity events ∧
    taken capacity events <+: entered events
  /-- Nothing is written once the owner has ended. -/
  silent : ∀ before after m', events = before ++ after →
    (empty capacity).run? before = some m' → m'.owner = .stopped →
      m.owner = .stopped ∧ m.written = m'.written

/-- Who has not been told anything when the owner has ended can be told now. -/
theorem exists_answer {payload : Bytes} {stage : CallStage}
    (hk : m.calls[k]? = some ⟨.push payload, stage⟩) (ho : m.owner = .stopped)
    (hs : ∀ f, stage ≠ .answered f) : ∃ e m' detail,
      m.step e = some m' ∧ m.answer? e = some (k, some (.transport detail)) := by
  cases stage with
  | waitingForSpace =>
    exact ⟨.turnAway k, m.setStage k (.answered (some closedFailure)), _,
      by simp only [Mailbox.step, turnAway, hk, ho], rfl⟩
  | queued =>
    exact ⟨.lose k, m.setStage k (.answered (some lostFailure)), _,
      by simp only [Mailbox.step, lose, hk, ho], rfl⟩
  | answered f => exact absurd rfl (hs f)

/-- An owner that has ended writes nothing in a run. -/
theorem run_of_stopped (ho : m.owner = .stopped) (h : m.run? events = some m') :
    m'.owner = .stopped ∧ m'.written = m.written := by
  refine Machine.run_invariant (f := Mailbox.step)
    (P := fun t => t.owner = .stopped ∧ t.written = m.written) ⟨ho, rfl⟩ ?_ h
  rintro t e u ⟨hstopped, hwritten⟩ hstep
  obtain ⟨hstopped', hsame⟩ := (step_of_eq_some hstep).of_stopped hstopped
  exact ⟨hstopped', hsame.trans hwritten⟩

/-- Whatever comes first in a mailbox, what is told is what happened. -/
theorem Truthful.of_run (h : (empty capacity).run? events = some m) :
    Truthful capacity events m := by
  obtain ⟨hpush, hanswers⟩ := PushInv.run h
  refine
    { once := hanswers.once
      told := hanswers.told
      success := fun k payload f hk => ⟨?_, fun hw => ?_⟩
      writtenOnce := hpush.nodup_taken.sublist hpush.owner.written_prefix.sublist
      written := fun k payload hw => hpush.of_written hw
      failed := fun k f hf => hpush.of_failed hf
      others := fun k payload f hk => hpush.of_told hk
      seen := fun k ht => hpush.owner.of_taken ht
      untaken := fun k payload stage hk hnot =>
        ⟨fun hw => hnot (hpush.owner.written_prefix.subset hw), ?_, exists_answer hk⟩
      inOrder := ⟨hpush.owner.written_prefix, hpush.taken_prefix⟩
      silent := ?_ }
  · rintro rfl
    cases hpush.placed k _ hk with
    | sent hw => exact hw
  · obtain ⟨stage, hk', hstage⟩ := hpush.of_written hw
    have heq : CallStage.answered f = stage :=
      congrArg Call.stage (Option.some.inj (hk.symm.trans hk'))
    rcases hstage with rfl | ⟨rfl, -⟩
    · exact CallStage.answered.inj heq
    · cases heq
  · rintro f rfl
    cases f with
    | none =>
      cases hpush.placed k _ hk with
      | sent hw => exact absurd (hpush.written_mem hw) hnot
    | some f =>
      rcases hpush.of_told hk with hf | ⟨-, rfl | rfl⟩
      · exact absurd (hpush.owner.of_failed hpush.nodup_taken hf).1 hnot
      · exact ⟨_, rfl⟩
      · exact ⟨_, rfl⟩
  · intro before after m' hsplit hm' ho
    subst hsplit
    obtain ⟨t, ht, hafter⟩ := Machine.run_append_iff.mp h
    obtain rfl : t = m' := Option.some.inj (ht.symm.trans hm')
    exact run_of_stopped ho hafter

end SealedGateway.Mailbox
