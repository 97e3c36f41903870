import SealedGateway.Proofs.Outbound.Answers

/-!
# The owner of a mailbox and its calls

Any number of calls, a bounded queue, and an owner that can end between two items or because a write
failed. Whatever comes first, a call is where the history of the run says it is.

- **`Placed`**: where a call can be, and what it was told there; `Placed.mono` says what leaves it
  there.
- **`OwnerInv`**: what the owner has in hand, and what became of the rest of what it took.
- **`PushInv`** is the invariant of a run, `PushInv.step` its step.
-/

namespace SealedGateway

/-- The call whose payload the owner has in hand. -/
def Owner.call? : Owner → Option Nat
  | .writing k _ | .answering k _ => some k
  | .receiving | .stopped => none

namespace Mailbox

variable {capacity : Nat} {events : List Event} {m m' : Mailbox} {e : Event} {k : Nat} {c : Call}
  {E E' T T' : List Nat} {F F' : List (Nat × Failure)}

/-- Where a call can be, if `E` were queued, `T` were taken and `F` could not be written: and what
it was told, if it was told anything. -/
inductive Placed (E T : List Nat) (F : List (Nat × Failure)) (m : Mailbox) (k : Nat) :
    Call → Prop where
  | waiting {request : OutboundRequest} (he : k ∉ E) : Placed E T F m k ⟨request, .waitingForSpace⟩
  /-- A push is in the queue, in the hands of the owner, or dropped. -/
  | queued {payload : Bytes} (he : k ∈ E) (ht : k ∈ T → m.owner.call? = some k) :
      Placed E T F m k ⟨.push payload, .queued⟩
  | requested (he : k ∈ E) : Placed E T F m k ⟨.close, .answered none⟩
  | sent {payload : Bytes} (hw : (k, payload) ∈ m.written) :
      Placed E T F m k ⟨.push payload, .answered none⟩
  | failed {payload : Bytes} {f : Failure} (hf : (k, f) ∈ F) :
      Placed E T F m k ⟨.push payload, .answered (some f)⟩
  | turnedAway {request : OutboundRequest} (he : k ∉ E) (ho : m.owner = .stopped) :
      Placed E T F m k ⟨request, .answered (some closedFailure)⟩
  | lost {payload : Bytes} (he : k ∈ E) (ht : k ∉ T) (ho : m.owner = .stopped) :
      Placed E T F m k ⟨.push payload, .answered (some lostFailure)⟩

/-- What happens to other calls leaves a call where it is. -/
theorem Placed.mono (h : Placed E T F m k c) (hkeep : ∀ j ∈ E, j ∈ E') (he : k ∈ E' → k ∈ E)
    (ht : k ∈ T' → k ∈ T) (hcall : m.owner.call? = some k → m'.owner.call? = some k)
    (hstop : m.owner = .stopped → m'.owner = .stopped) (hf : ∀ f, (k, f) ∈ F → (k, f) ∈ F')
    (hw : ∀ w, (k, w) ∈ m.written → (k, w) ∈ m'.written) : Placed E' T' F' m' k c := by
  cases h with
  | waiting hnot => exact .waiting fun hin => hnot (he hin)
  | queued hin hbusy => exact .queued (hkeep k hin) fun htaken => hcall (hbusy (ht htaken))
  | requested hin => exact .requested (hkeep k hin)
  | sent hwritten => exact .sent (hw _ hwritten)
  | failed hfailed => exact .failed (hf _ hfailed)
  | turnedAway hnot ho => exact .turnedAway (fun hin => hnot (he hin)) (hstop ho)
  | lost hin hnot ho => exact .lost (hkeep k hin) (fun htaken => hnot (ht htaken)) (hstop ho)

/-- What the owner has in hand, and what it has done with the rest of what it took. At most one
write fails, and the owner ends with it. -/
def OwnerInv (T : List Nat) (F : List (Nat × Failure)) (m : Mailbox) : Prop :=
  match m.owner with
  | .receiving => T = m.written.map Prod.fst ∧ F = []
  | .writing k payload =>
    T = m.written.map Prod.fst ++ [k] ∧ F = [] ∧ m.calls[k]? = some ⟨.push payload, .queued⟩
  | .answering k none =>
    T = m.written.map Prod.fst ∧ F = [] ∧
      ∃ payload, (k, payload) ∈ m.written ∧ m.calls[k]? = some ⟨.push payload, .queued⟩
  | .answering k (some f) =>
    T = m.written.map Prod.fst ++ [k] ∧ F = [(k, f)] ∧
      ∃ payload, m.calls[k]? = some ⟨.push payload, .queued⟩
  | .stopped => T = m.written.map Prod.fst ++ F.map Prod.fst ∧ F.length ≤ 1

/-- What the owner does is no business of calls that stay in the queue. -/
theorem OwnerInv.of_calls (h : OwnerInv T F m) (howner : m'.owner = m.owner)
    (hwritten : m'.written = m.written)
    (hcalls : ∀ (k : Nat) payload, m.calls[k]? = some ⟨.push payload, .queued⟩ →
      m'.calls[k]? = some ⟨.push payload, .queued⟩) : OwnerInv T F m' := by
  cases ho : m.owner with
  | receiving | stopped =>
    simp only [OwnerInv, howner, ho, hwritten] at h ⊢
    exact h
  | writing k payload =>
    simp only [OwnerInv, howner, ho, hwritten] at h ⊢
    obtain ⟨ht, hf, hk⟩ := h
    exact ⟨ht, hf, hcalls k _ hk⟩
  | answering k f =>
    cases f with
    | none =>
      simp only [OwnerInv, howner, ho, hwritten] at h ⊢
      obtain ⟨ht, hf, payload, hw, hk⟩ := h
      exact ⟨ht, hf, payload, hw, hcalls k _ hk⟩
    | some f =>
      simp only [OwnerInv, howner, ho, hwritten] at h ⊢
      obtain ⟨ht, hf, payload, hk⟩ := h
      exact ⟨ht, hf, payload, hcalls k _ hk⟩

/-- What was written was taken before, in the same order. -/
theorem OwnerInv.written_prefix (h : OwnerInv T F m) : m.written.map Prod.fst <+: T := by
  unfold OwnerInv at h
  split at h
  · exact h.1 ▸ List.prefix_rfl
  · exact h.1 ▸ List.prefix_append _ _
  · exact h.1 ▸ List.prefix_rfl
  · exact h.1 ▸ List.prefix_append _ _
  · exact h.1 ▸ List.prefix_append _ _

/-- What could not be written was taken, and is not among what was written. -/
theorem OwnerInv.of_failed (h : OwnerInv T F m) (hn : T.Nodup) {f : Failure} (hf : (k, f) ∈ F) :
    k ∈ T ∧ k ∉ m.written.map Prod.fst ∧ ∀ f', (k, f') ∈ F → f' = f := by
  have hlast {rest : List Nat} (ht : T = m.written.map Prod.fst ++ rest) (hk : k ∈ rest) :
      k ∈ T ∧ k ∉ m.written.map Prod.fst := by
    subst ht
    obtain ⟨-, -, hdisjoint⟩ := List.nodup_append.mp hn
    exact ⟨List.mem_append_right _ hk, fun hw => hdisjoint k hw k hk rfl⟩
  unfold OwnerInv at h
  split at h
  · rw [h.2] at hf
    cases hf
  · rw [h.2.1] at hf
    cases hf
  · rw [h.2.1] at hf
    cases hf
  · obtain ⟨ht, rfl, -⟩ := h
    obtain ⟨rfl, rfl⟩ := Prod.mk.inj (List.mem_singleton.mp hf)
    obtain ⟨hin, hnot⟩ := hlast ht (List.mem_singleton_self _)
    exact ⟨hin, hnot, fun f' hf' => (Prod.mk.inj (List.mem_singleton.mp hf')).2⟩
  · obtain ⟨ht, hlength⟩ := h
    obtain ⟨hin, hnot⟩ := hlast ht (List.mem_map_of_mem hf)
    obtain ⟨x, rfl⟩ := List.length_eq_one_iff.mp
      (Nat.le_antisymm hlength (List.length_pos_of_mem hf))
    refine ⟨hin, hnot, fun f' hf' => ?_⟩
    exact (Prod.mk.inj ((List.mem_singleton.mp hf').trans (List.mem_singleton.mp hf).symm)).2

/-- What was written and is still in the hands of the owner is about to be told so. -/
theorem OwnerInv.of_written (h : OwnerInv T F m) (hn : T.Nodup)
    (hw : k ∈ m.written.map Prod.fst) (hc : m.owner.call? = some k) :
    m.owner = .answering k none := by
  have hlast (ht : T = m.written.map Prod.fst ++ [k]) : False := by
    subst ht
    exact (List.nodup_append.mp hn).2.2 k hw k (List.mem_singleton_self _) rfl
  cases ho : m.owner with
  | receiving | stopped =>
    rw [ho] at hc
    cases hc
  | writing j payload =>
    rw [ho] at hc
    obtain rfl : j = k := Option.some.inj hc
    simp only [OwnerInv, ho] at h
    exact (hlast h.1).elim
  | answering j f =>
    rw [ho] at hc
    obtain rfl : j = k := Option.some.inj hc
    cases f with
    | none => rfl
    | some f =>
      simp only [OwnerInv, ho] at h
      exact (hlast h.1).elim

/-- What could not be written and is still in the hands of the owner is about to be told so. -/
theorem OwnerInv.failing (h : OwnerInv T F m) {f : Failure} (hf : (k, f) ∈ F)
    (hc : m.owner.call? = some k) : m.owner = .answering k (some f) := by
  cases ho : m.owner with
  | receiving | stopped =>
    rw [ho] at hc
    cases hc
  | writing j payload =>
    simp only [OwnerInv, ho] at h
    rw [h.2.1] at hf
    cases hf
  | answering j f' =>
    cases f' with
    | none =>
      simp only [OwnerInv, ho] at h
      rw [h.2.1] at hf
      cases hf
    | some f' =>
      simp only [OwnerInv, ho] at h
      rw [h.2.1] at hf
      obtain ⟨rfl, rfl⟩ := Prod.mk.inj (List.mem_singleton.mp hf)
      rfl

/-- What was taken was written, or could not be, or is being written. -/
theorem OwnerInv.of_taken (h : OwnerInv T F m) (ht : k ∈ T) :
    k ∈ m.written.map Prod.fst ∨ (∃ f, (k, f) ∈ F) ∨ ∃ payload, m.owner = .writing k payload := by
  unfold OwnerInv at h
  split at h
  · exact .inl (h.1 ▸ ht)
  · next j payload ho =>
    rw [h.1, List.mem_append, List.mem_singleton] at ht
    rcases ht with ht | rfl
    · exact .inl ht
    · exact .inr (.inr ⟨payload, ho⟩)
  · exact .inl (h.1 ▸ ht)
  · rw [h.1, List.mem_append, List.mem_singleton] at ht
    rcases ht with ht | rfl
    · exact .inl ht
    · exact .inr (.inl ⟨_, h.2.1 ▸ List.mem_singleton_self _⟩)
  · rw [h.1, List.mem_append] at ht
    rcases ht with ht | ht
    · exact .inl ht
    · obtain ⟨⟨j, f⟩, hf, rfl⟩ := List.mem_map.mp ht
      exact .inr (.inl ⟨f, hf⟩)

/-- The invariant of a run: `E` were queued, `T` were taken, `F` could not be written. -/
structure PushInv (E T : List Nat) (F : List (Nat × Failure)) (m : Mailbox) : Prop where
  /-- What was queued was taken, is in the queue, or was dropped when the owner ended. -/
  order : ∃ dropped, E = T ++ (m.queue ++ dropped) ∧ (m.owner ≠ .stopped → dropped = [])
  nodup : E.Nodup
  known : ∀ k ∈ E, ∃ c, m.calls[k]? = some c
  owner : OwnerInv T F m
  takes : ∀ k ∈ T, ∃ payload stage, m.calls[k]? = some ⟨.push payload, stage⟩
  written : ∀ k payload, (k, payload) ∈ m.written →
    ∃ stage, m.calls[k]? = some ⟨.push payload, stage⟩
  placed : ∀ (k : Nat) c, m.calls[k]? = some c → Placed E T F m k c

namespace PushInv

theorem start (capacity : Nat) : PushInv [] [] [] (empty capacity) where
  order := ⟨[], rfl, fun _ => rfl⟩
  nodup := List.nodup_nil
  known := nofun
  owner := ⟨rfl, rfl⟩
  takes := nofun
  written := nofun
  placed := fun k c hc => by cases hc

theorem taken_prefix (h : PushInv E T F m) : T <+: E := by
  obtain ⟨dropped, heq, -⟩ := h.order
  exact ⟨_, heq.symm⟩

theorem nodup_taken (h : PushInv E T F m) : T.Nodup := h.nodup.sublist h.taken_prefix.sublist

theorem written_mem (h : PushInv E T F m) {w : Bytes} (hw : (k, w) ∈ m.written) : k ∈ T :=
  h.owner.written_prefix.subset (List.mem_map_of_mem hw)

/-- As long as the owner has not ended, nothing is dropped. -/
theorem entered_eq (h : PushInv E T F m) (ho : m.owner ≠ .stopped) : E = T ++ m.queue := by
  obtain ⟨dropped, heq, hdropped⟩ := h.order
  rwa [hdropped ho, List.append_nil] at heq

/-- A call that waits was not queued, and was not taken. -/
theorem of_waiting (h : PushInv E T F m) {request : OutboundRequest}
    (hk : m.calls[k]? = some ⟨request, .waitingForSpace⟩) : k ∉ E ∧ k ∉ T := by
  cases h.placed k _ hk with
  | waiting hnot => exact ⟨hnot, fun hin => hnot (h.taken_prefix.subset hin)⟩

/-- A push that is next in the queue is one that nobody has been told about. -/
theorem of_queue (h : PushInv E T F m) (ho : m.owner ≠ .stopped) {rest : List Nat}
    (hq : m.queue = k :: rest) {payload : Bytes} {stage : CallStage}
    (hk : m.calls[k]? = some ⟨.push payload, stage⟩) : k ∈ E ∧ k ∉ T ∧ stage = .queued := by
  have hentered := h.entered_eq ho
  rw [hq] at hentered
  have hin : k ∈ E := hentered ▸ List.mem_append_right _ List.mem_cons_self
  have hnot : k ∉ T := fun ht =>
    (List.nodup_append.mp (hentered ▸ h.nodup)).2.2 k ht k List.mem_cons_self rfl
  refine ⟨hin, hnot, ?_⟩
  cases h.placed k _ hk with
  | waiting he => exact absurd hin he
  | queued _ _ => rfl
  | sent hw => exact absurd (h.written_mem hw) hnot
  | failed hf => exact absurd (h.owner.of_failed h.nodup_taken hf).1 hnot
  | turnedAway _ hstop | lost _ _ hstop => exact absurd hstop ho

/-! ### Steps -/

/-- What a step leaves alone. -/
theorem of_step (h : PushInv E T F m) (hs : Step m e m')
    (order : ∃ dropped, E' = T' ++ (m'.queue ++ dropped) ∧ (m'.owner ≠ .stopped → dropped = []))
    (nodup : E'.Nodup) (known : ∀ k ∈ E', k ∈ E ∨ ∃ c, m'.calls[k]? = some c)
    (owner : OwnerInv T' F' m')
    (takes : ∀ k ∈ T', k ∈ T ∨ ∃ payload stage, m'.calls[k]? = some ⟨.push payload, stage⟩)
    (written : ∀ k payload, (k, payload) ∈ m'.written → (k, payload) ∈ m.written ∨
      ∃ stage, m'.calls[k]? = some ⟨.push payload, stage⟩)
    (placed : ∀ (k : Nat) c, m'.calls[k]? = some c → Placed E' T' F' m' k c) :
    PushInv E' T' F' m' := by
  refine ⟨order, nodup, fun k hk => ?_, owner, fun k hk => ?_, fun k payload hk => ?_, placed⟩
  · rcases known k hk with hk | hk
    · obtain ⟨c, hc⟩ := h.known k hk
      obtain ⟨stage, hc'⟩ := hs.request hc
      exact ⟨_, hc'⟩
    · exact hk
  · rcases takes k hk with hk | hk
    · obtain ⟨payload, stage, hc⟩ := h.takes k hk
      exact ⟨payload, hs.request hc⟩
    · exact hk
  · rcases written k payload hk with hk | hk
    · obtain ⟨stage, hc⟩ := h.written k payload hk
      exact hs.request hc
    · exact hk

/-- A new call waits. -/
theorem called (h : PushInv E T F m) {request : OutboundRequest} :
    PushInv E T F { m with calls := m.calls ++ [⟨request, .waitingForSpace⟩] } := by
  refine h.of_step .called h.order h.nodup (fun k hk => .inl hk)
    (h.owner.of_calls rfl rfl fun k payload hk => Machine.getElem?_newcomer hk)
    (fun k hk => .inl hk) (fun k payload hk => .inl hk) fun k c hc => ?_
  rcases Machine.eq_or_of_newcomer hc with hold | ⟨rfl, rfl⟩
  · exact (h.placed k c hold).mono (fun _ => id) id id id id (fun _ => id) fun _ => id
  · refine .waiting fun hk => ?_
    obtain ⟨c, hc⟩ := h.known _ hk
    exact absurd (List.getElem?_eq_some_iff.mp hc).1 (Nat.lt_irrefl _)

/-- A call enters the queue. -/
theorem queued (h : PushInv E T F m) {request : OutboundRequest} {s : CallStage}
    (hk : m.calls[k]? = some ⟨request, .waitingForSpace⟩) (ho : m.owner ≠ .stopped)
    (hs : Step m (.enqueue k) { m.setStage k s with queue := m.queue ++ [k] })
    (hplaced : Placed (E ++ [k]) T F { m.setStage k s with queue := m.queue ++ [k] } k
      ⟨request, s⟩) :
    PushInv (E ++ [k]) T F { m.setStage k s with queue := m.queue ++ [k] } := by
  obtain ⟨hnot, -⟩ := h.of_waiting hk
  refine h.of_step hs ⟨[], ?_, fun _ => rfl⟩ ?_ (fun j hj => ?_)
    (h.owner.of_calls rfl rfl fun j payload hj => ?_) (fun j hj => .inl hj)
    (fun j payload hj => .inl hj) fun j c hc => ?_
  · change E ++ [k] = T ++ (m.queue ++ [k] ++ [])
    rw [h.entered_eq ho, List.append_nil, List.append_assoc]
  · refine List.nodup_append.mpr ⟨h.nodup, by simp, fun i hi j hj => ?_⟩
    rw [List.mem_singleton.mp hj]
    rintro rfl
    exact hnot hi
  · rcases List.mem_append.mp hj with hj | hj
    · exact .inl hj
    · rw [List.mem_singleton.mp hj]
      exact .inr ⟨_, getElem?_setStage_self hk⟩
  · have hne : k ≠ j := by
      rintro rfl
      cases hk.symm.trans hj
    exact (getElem?_setStage_ne hne).trans hj
  · rcases eq_or_of_setStage hc with ⟨hne, hc⟩ | ⟨rfl, before, hc, hstage⟩
    · refine (h.placed j c hc).mono (fun i => List.mem_append_left _) (fun hin => ?_) id id id
        (fun _ => id) fun _ => id
      exact (List.mem_append.mp hin).resolve_right fun hin => hne (List.mem_singleton.mp hin).symm
    · rw [hk] at hc
      obtain rfl : request = c.request := congrArg Call.request (Option.some.inj hc)
      exact hstage ▸ hplaced

/-- With its owner gone, a call is told so. -/
theorem told (h : PushInv E T F m) {request : OutboundRequest} {before s : CallStage}
    (hk : m.calls[k]? = some ⟨request, before⟩) (ho : m.owner = .stopped)
    (hs : Step m e (m.setStage k s)) (hplaced : Placed E T F (m.setStage k s) k ⟨request, s⟩) :
    PushInv E T F (m.setStage k s) := by
  have howner : OwnerInv T F (m.setStage k s) := by
    have hstopped : (m.setStage k s).owner = .stopped := ho
    have hinv := h.owner
    simp only [OwnerInv, ho, hstopped] at hinv ⊢
    exact hinv
  refine h.of_step hs h.order h.nodup (fun j hj => .inl hj) howner (fun j hj => .inl hj)
    (fun j payload hj => .inl hj) fun j c hc => ?_
  rcases eq_or_of_setStage hc with ⟨hne, hc⟩ | ⟨rfl, before, hc, hstage⟩
  · exact (h.placed j c hc).mono (fun _ => id) id id id id (fun _ => id) fun _ => id
  · rw [hk] at hc
    obtain rfl : request = c.request := congrArg Call.request (Option.some.inj hc)
    exact hstage ▸ hplaced

/-- The owner takes a push. -/
theorem took (h : PushInv E T F m) {rest : List Nat} {payload : Bytes} {stage : CallStage}
    (ho : m.owner = .receiving) (hq : m.queue = k :: rest)
    (hk : m.calls[k]? = some ⟨.push payload, stage⟩) :
    PushInv E (T ++ [k]) F { m with queue := rest, owner := .writing k payload } := by
  have hopen : m.owner ≠ .stopped := by simp [ho]
  obtain ⟨hin, hnot, rfl⟩ := h.of_queue hopen hq hk
  have hinv := h.owner
  simp only [OwnerInv, ho] at hinv
  obtain ⟨ht, hf⟩ := hinv
  refine h.of_step (.took ho hq hk) ⟨[], ?_, fun _ => rfl⟩ h.nodup (fun j hj => .inl hj)
    ⟨by rw [ht], hf, hk⟩ (fun j hj => ?_) (fun j payload hj => .inl hj) fun j c hc => ?_
  · rw [h.entered_eq hopen, hq, List.append_nil, List.append_assoc, List.singleton_append]
  · rcases List.mem_append.mp hj with hj | hj
    · exact .inl hj
    · rw [List.mem_singleton.mp hj]
      exact .inr ⟨payload, _, hk⟩
  · by_cases hj : k = j
    · subst hj
      obtain rfl := Option.some.inj (hk.symm.trans hc)
      exact .queued hin fun _ => rfl
    · refine (h.placed j c hc).mono (fun _ => id) id (fun hin => ?_) (by simp [ho, Owner.call?])
        (by simp [ho]) (fun _ => id) fun _ => id
      exact (List.mem_append.mp hin).resolve_right fun hin => hj (List.mem_singleton.mp hin).symm

/-- The owner ends between two items. -/
theorem halted (h : PushInv E T F m) (ho : m.owner = .receiving) (hs : Step m e m.halt) :
    PushInv E T F m.halt := by
  have hopen : m.owner ≠ .stopped := by simp [ho]
  have hinv := h.owner
  simp only [OwnerInv, ho] at hinv
  obtain ⟨ht, rfl⟩ := hinv
  refine h.of_step hs ⟨m.queue, h.entered_eq hopen, fun hne => absurd rfl hne⟩ h.nodup
    (fun j hj => .inl hj) ⟨?_, Nat.zero_le _⟩ (fun j hj => .inl hj)
    (fun j payload hj => .inl hj) fun j c hc => ?_
  · rw [ht]
    exact (List.append_nil _).symm
  · exact (h.placed j c hc).mono (fun _ => id) id id (by simp [ho, Owner.call?]) (by simp [ho])
      (fun _ => id) fun _ => id

/-- The owner writes the payload that it has in hand. -/
theorem wrote (h : PushInv E T F m) {payload : Bytes} (ho : m.owner = .writing k payload) :
    PushInv E T F
      { m with owner := .answering k none, written := m.written ++ [(k, payload)] } := by
  have hinv := h.owner
  simp only [OwnerInv, ho] at hinv
  obtain ⟨ht, hf, hk⟩ := hinv
  refine h.of_step (.wrote ho) ⟨[], ?_, fun _ => rfl⟩ h.nodup (fun j hj => .inl hj)
    ⟨?_, hf, payload, List.mem_append_right _ (List.mem_singleton_self _), hk⟩
    (fun j hj => .inl hj) (fun j w hj => ?_) fun j c hc => ?_
  · rw [h.entered_eq (by simp [ho]), List.append_nil]
  · rw [ht, List.map_append]
    rfl
  · rcases List.mem_append.mp hj with hj | hj
    · exact .inl hj
    · obtain ⟨rfl, rfl⟩ := Prod.mk.inj (List.mem_singleton.mp hj)
      exact .inr ⟨_, hk⟩
  · exact (h.placed j c hc).mono (fun _ => id) id id (by simp [ho, Owner.call?]) (by simp [ho])
      (fun _ => id) fun w => List.mem_append_left _

/-- The owner cannot write the payload that it has in hand. -/
theorem failed (h : PushInv E T F m) {payload : Bytes} {f : Failure}
    (ho : m.owner = .writing k payload) :
    PushInv E T (F ++ [(k, f)]) { m with owner := .answering k (some f) } := by
  have hinv := h.owner
  simp only [OwnerInv, ho] at hinv
  obtain ⟨ht, rfl, hk⟩ := hinv
  refine h.of_step (.failed ho) ⟨[], ?_, fun _ => rfl⟩ h.nodup (fun j hj => .inl hj)
    ⟨ht, rfl, payload, hk⟩ (fun j hj => .inl hj) (fun j w hj => .inl hj) fun j c hc => ?_
  · rw [h.entered_eq (by simp [ho]), List.append_nil]
  · exact (h.placed j c hc).mono (fun _ => id) id id (by simp [ho, Owner.call?]) (by simp [ho])
      (fun _ => List.mem_append_left _) fun _ => id

/-- The owner tells a push that its payload was written. -/
theorem answeredSent (h : PushInv E T F m) (ho : m.owner = .answering k none) :
    PushInv E T F { m.setStage k (.answered none) with owner := .receiving } := by
  have hinv := h.owner
  simp only [OwnerInv, ho] at hinv
  obtain ⟨ht, hf, payload, hw, hk⟩ := hinv
  refine h.of_step (.answeredSent ho) ⟨[], ?_, fun _ => rfl⟩ h.nodup (fun j hj => .inl hj)
    ⟨ht, hf⟩ (fun j hj => .inl hj) (fun j w hj => .inl hj) fun j c hc => ?_
  · rw [h.entered_eq (by simp [ho]), List.append_nil]
    rfl
  · rcases eq_or_of_setStage hc with ⟨hne, hc⟩ | ⟨rfl, before, hc, hstage⟩
    · exact (h.placed j c hc).mono (fun _ => id) id id (by simp [ho, Owner.call?, hne])
        (by simp [ho]) (fun _ => id) fun _ => id
    · rw [hk] at hc
      rw [hstage, ← congrArg Call.request (Option.some.inj hc)]
      exact .sent hw

/-- The owner tells a push why its payload could not be written, and ends. -/
theorem answeredFailed (h : PushInv E T F m) {f : Failure}
    (ho : m.owner = .answering k (some f)) :
    PushInv E T F (m.setStage k (.answered (some f))).halt := by
  have hinv := h.owner
  simp only [OwnerInv, ho] at hinv
  obtain ⟨ht, rfl, payload, hk⟩ := hinv
  refine h.of_step (.answeredFailed ho) ⟨m.queue, h.entered_eq (by simp [ho]),
    fun hne => absurd rfl hne⟩ h.nodup (fun j hj => .inl hj) ⟨ht, Nat.le_refl _⟩
    (fun j hj => .inl hj) (fun j w hj => .inl hj) fun j c hc => ?_
  rcases eq_or_of_setStage hc with ⟨hne, hc⟩ | ⟨rfl, before, hc, hstage⟩
  · exact (h.placed j c hc).mono (fun _ => id) id id (by simp [ho, Owner.call?, hne]) (by simp [ho])
      (fun _ => id) fun _ => id
  · rw [hk] at hc
    rw [hstage, ← congrArg Call.request (Option.some.inj hc)]
    exact .failed (List.mem_singleton_self _)

theorem step (h : PushInv E T F m) (hs : Step m e m') :
    PushInv (E ++ e.entered?.toList) (T ++ (e.taken? m').toList) (F ++ (m.failure? e).toList)
      m' := by
  cases hs with
  | called => simpa [Event.entered?, Event.taken?, failure?] using h.called
  | queued hk ho hq =>
    have hnot := (h.of_waiting hk).2
    simpa [Event.entered?, Event.taken?, failure?] using h.queued hk ho (.queued hk ho hq)
      (.queued (List.mem_append_right _ (List.mem_singleton_self _)) fun hin => absurd hin hnot)
  | requested hk ho hq =>
    simpa [Event.entered?, Event.taken?, failure?] using h.queued hk ho (.requested hk ho hq)
      (.requested (List.mem_append_right _ (List.mem_singleton_self _)))
  | turnedAway hk ho =>
    simpa [Event.entered?, Event.taken?, failure?] using
      h.told hk ho (.turnedAway hk ho) (.turnedAway (h.of_waiting hk).1 ho)
  | took ho hq hk =>
    simpa [Event.entered?, Event.taken?, failure?] using h.took ho hq hk
  | tookClose ho hq hk =>
    simpa [Event.entered?, Event.taken?, failure?, halt] using h.halted ho (.tookClose ho hq hk)
  | wrote ho => simpa [Event.entered?, Event.taken?, failure?] using h.wrote ho
  | failed ho => simpa [Event.entered?, Event.taken?, failure?, ho] using h.failed ho
  | answeredSent ho =>
    simpa [Event.entered?, Event.taken?, failure?] using h.answeredSent ho
  | answeredFailed ho =>
    simpa [Event.entered?, Event.taken?, failure?] using h.answeredFailed ho
  | stopped ho =>
    simpa [Event.entered?, Event.taken?, failure?] using h.halted ho (.stopped ho)
  | @lost k request hk ho =>
    have hplaced := h.placed k _ hk
    cases hplaced with
    | queued hin hbusy =>
      have hnot : k ∉ T := fun htaken => by
        have hcall := hbusy htaken
        rw [ho] at hcall
        cases hcall
      simpa [Event.entered?, Event.taken?, failure?] using
        h.told hk ho (.lost hk ho) (.lost hin hnot ho)

/-- Who answers a push answers one that was told nothing. -/
theorem of_answering (h : PushInv E T F m) {f : Option Failure} (ho : m.owner = .answering k f) :
    ∃ request, m.calls[k]? = some ⟨request, .queued⟩ := by
  have hinv := h.owner
  cases f with
  | none =>
    simp only [OwnerInv, ho] at hinv
    obtain ⟨-, -, payload, -, hk⟩ := hinv
    exact ⟨_, hk⟩
  | some f =>
    simp only [OwnerInv, ho] at hinv
    obtain ⟨-, -, payload, hk⟩ := hinv
    exact ⟨_, hk⟩

/-- A call that was told something has been told just that. -/
theorem answered_kept (h : PushInv E T F m) (hs : Step m e m') {request : OutboundRequest}
    {f : Option Failure} (hk : m.calls[k]? = some ⟨request, .answered f⟩) :
    m'.calls[k]? = some ⟨request, .answered f⟩ := by
  have hother {j : Nat} {request' : OutboundRequest} {before s : CallStage}
      (hj : m.calls[j]? = some ⟨request', before⟩) (hbefore : before ≠ .answered f) :
      (m.setStage j s).calls[k]? = some ⟨request, .answered f⟩ := by
    have hne : j ≠ k := by
      rintro rfl
      exact hbefore (congrArg Call.stage (Option.some.inj (hj.symm.trans hk)))
    exact (getElem?_setStage_ne hne).trans hk
  cases hs with
  | called => exact Machine.getElem?_newcomer hk
  | queued hj | requested hj | turnedAway hj | lost hj => exact hother hj nofun
  | answeredSent ho | answeredFailed ho =>
    obtain ⟨request', hj⟩ := h.of_answering ho
    exact hother hj nofun
  | _ => exact hk

theorem run (h : (empty capacity).run? events = some m) :
    PushInv (entered events) (taken capacity events) (failures capacity events) m ∧
      AnswersInv (answers capacity events) m := by
  refine Machine.run_induction (f := Mailbox.step) (motive := fun es m =>
    PushInv (entered es) (taken capacity es) (failures capacity es) m ∧
      AnswersInv (answers capacity es) m) ⟨.start capacity, .start capacity⟩ ?_ h
  intro es e t u hrun ⟨hpush, hanswers⟩ hstep
  have hs := step_of_eq_some hstep
  rw [entered_concat, taken_concat hrun hstep, failures_concat hrun hstep,
    answers_concat hrun hstep]
  exact ⟨hpush.step hs, hanswers.step hs fun k f ho => hpush.of_answering ho⟩

end PushInv

end Mailbox

end SealedGateway
