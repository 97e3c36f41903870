import Mathlib.Data.List.Nodup
import Mathlib.Data.List.Perm.Basic
import SealedGateway.Pool.Basic
import SealedGateway.Proofs.Machine

/-!
# What one event does to a pool

`Pool.step` is a partial function with many branches. Here they are said once, for all that is
proved about runs:

- **`Step`**: one constructor for each thing that can happen, with its guards and the whole state
  after it; `step_of_eq_some` takes an event that is enabled apart.
- **One worker goes on to another stage**: with numbers that differ, it is the only one that changes
  (`setStage_split`, `stage?_setStage_ne`), and it keeps its place and number (`map_setStage`).
- **`teardownEvents`**: the events of the teardown that lie behind a point of it. They come once
  and in order (`teardown_events`), so a state can be told from the history.
-/

namespace SealedGateway

namespace Pool

variable {J : Type}

/-! ## Events -/

/-- The workers that a change of size leaves: a retired worker is forgotten once it has ended. -/
def remembered (ws : List (Worker J)) : List (Worker J) :=
  ws.filter fun w => !(w.place == .retiring && w.finished)

/-- What an event can do to a pool. -/
inductive Step (p : Pool J) : Event J → Pool J → Prop where
  /-- A submission finds the pool closed. -/
  | turnedAway {job : J} (hc : p.isClosed = true) :
      Step p (.submit job) { p with refused := p.refused ++ [job] }
  | offered {job : J} (hc : p.isClosed = false) :
      Step p (.submit job) { p with offers := p.offers ++ [job] }
  | enqueued {i : Nat} {job : J} (ho : p.offers[i]? = some job)
      (hq : p.queue.length < p.sizing.queueSize) :
      Step p (.enqueue i)
        { p with
          queue := p.queue ++ [job]
          offers := p.offers.eraseIdx i
          accepted := p.accepted ++ [job] }
  | refused {i : Nat} {job : J} (ho : p.offers[i]? = some job) (hc : p.isCancelled = true) :
      Step p (.refuse i)
        { p with
          offers := p.offers.eraseIdx i
          refused := p.refused ++ [job] }
  /-- A worker between two jobs finds that it is asked to stop. -/
  | stopped {n : Nat} {w : Worker J} (hw : p.worker? n = some w) (hs : w.stage = .polling)
      (hc : p.stops w = true) : Step p (.poll n) (p.setStage n .exited)
  | waited {n : Nat} {w : Worker J} (hw : p.worker? n = some w) (hs : w.stage = .polling)
      (hc : p.stops w = false) : Step p (.poll n) (p.setStage n .waiting)
  | woke {n : Nat} {w : Worker J} (hw : p.worker? n = some w) (hs : w.stage = .waiting) :
      Step p (.wake n) (p.setStage n .polling)
  | took {n : Nat} {w : Worker J} {job : J} {rest : List J} (hw : p.worker? n = some w)
      (hs : w.stage = .waiting) (hq : p.queue = job :: rest) :
      Step p (.take n)
        { p.setStage n (.busy job) with queue := rest, started := p.started ++ [job] }
  | finished {n : Nat} {w : Worker J} {job : J} {ok : Bool} (hw : p.worker? n = some w)
      (hs : w.stage = .busy job) :
      Step p (.finish n ok)
        { p.setStage n .polling with handled := p.handled ++ [(job, ok)] }
  | crashed {n : Nat} {w : Worker J} {job : J} (hw : p.worker? n = some w)
      (hs : w.stage = .busy job) : Step p (.crash n) (p.setStage n .crashed)
  | locked {target : Nat} (hr : p.resize = none) :
      Step p (.beginResize target) { p with resize := some ⟨p.sizing.clamp target, false⟩ }
  /-- A resize finds the pool open. -/
  | admitted {target : Nat} (hr : p.resize = some ⟨target, false⟩) (hc : p.isClosed = false) :
      Step p .confirm { p with resize := some ⟨target, true⟩ }
  /-- A resize finds the pool closed. -/
  | gaveUp {target : Nat} (hr : p.resize = some ⟨target, false⟩) (hc : p.isClosed = true) :
      Step p .confirm { p with resize := none }
  | grew {target : Nat} (hr : p.resize = some ⟨target, true⟩) (hlt : p.workerCount < target) :
      Step p .adjust
        { p with
          workers := .fresh p.nextNumber :: p.workers
          nextNumber := p.nextNumber + 1 }
  | shrank {target : Nat} (hr : p.resize = some ⟨target, true⟩) (hlt : target < p.workerCount) :
      Step p .adjust { p with workers := retireLatest p.workers }
  | published {target : Nat} (hr : p.resize = some ⟨target, true⟩)
      (heq : p.workerCount = target) :
      Step p .publish
        { p with
          workers := remembered p.workers
          shown := p.workerCount
          resize := none }
  | readBacklog : Step p .readBacklog p.readBacklog
  | readCount {i backlog : Nat} (hr : p.resize = none)
      (hi : p.readings[i]? = some ⟨backlog, none⟩) :
      Step p (.readCount i)
        { p with readings := p.readings.set i ⟨backlog, some p.workerCount⟩ }
  /-- The controller asks for another number of workers. -/
  | rescaled {i backlog active target : Nat} (hi : p.readings[i]? = some ⟨backlog, some active⟩)
      (ht : p.sizing.scaled backlog active = some target) (hr : p.resize = none) :
      Step p (.act i)
        { p with
          readings := p.readings.eraseIdx i
          resize := some ⟨p.sizing.clamp target, false⟩ }
  /-- The controller leaves the number of workers as it is. -/
  | content {i backlog active : Nat} (hi : p.readings[i]? = some ⟨backlog, some active⟩)
      (ht : p.sizing.scaled backlog active = none) :
      Step p (.act i) { p with readings := p.readings.eraseIdx i }
  | closed (ht : p.teardown = .notBegun) : Step p .close { p with teardown := .closed }
  | cancelled (ht : p.teardown = .closed) : Step p .cancel { p with teardown := .cancelled }
  | collected (hr : p.resize = none) (ht : p.teardown = .cancelled) :
      Step p .collect
        { p with
          workers := p.workers.map fun w => { w with place := .awaited }
          teardown := .awaiting }
  | emptied (ht : p.teardown = .awaiting) (hf : p.workers.all Worker.finished = true) :
      Step p .awaitWorkers { p with shown := 0, teardown := .emptied }
  | released (ht : p.teardown = .emptied) : Step p .release { p with teardown := .complete }

variable {p q : Pool J} {e : Event J}

theorem advance_eq_some_iff {before after : Teardown} :
    p.advance before after = some q ↔ p.teardown = before ∧ { p with teardown := after } = q := by
  unfold advance
  split <;> simp_all

theorem stage?_eq_some_iff {n : Nat} {s : Stage J} :
    p.stage? n = some s ↔ ∃ w, p.worker? n = some w ∧ w.stage = s := by
  simp [stage?]

theorem poll_step {n : Nat} (h : p.poll n = some q) : Step p (.poll n) q := by
  unfold poll at h
  split at h
  case h_2 => cases h
  case h_1 w hw =>
    split at h
    case h_2 => cases h
    case h_1 hs =>
      cases hc : p.stops w with
      | true =>
        rw [hc] at h
        cases h
        exact .stopped hw hs hc
      | false =>
        rw [hc] at h
        cases h
        exact .waited hw hs hc

theorem act_step {i : Nat} (h : p.act i = some q) : Step p (.act i) q := by
  unfold act at h
  split at h
  case h_2 => cases h
  case h_1 backlog active hi =>
    simp only at h
    split at h
    case h_2 ht =>
      cases h
      exact .content hi ht
    case h_1 target ht =>
      unfold beginResize at h
      split at h
      case h_2 => cases h
      case h_1 hr =>
        cases h
        exact .rescaled hi ht hr

theorem adjust_step (h : p.adjust = some q) : Step p .adjust q := by
  unfold adjust at h
  split at h
  case h_2 => cases h
  case h_1 target hr =>
    split at h
    case isTrue hlt =>
      cases h
      exact .grew hr hlt
    case isFalse =>
      split at h
      case isFalse => cases h
      case isTrue hlt =>
        cases h
        exact .shrank hr hlt

theorem confirm_step (h : p.confirm = some q) : Step p .confirm q := by
  unfold confirm at h
  split at h
  case h_2 => cases h
  case h_1 target hr =>
    cases hc : p.isClosed with
    | true =>
      rw [hc] at h
      cases h
      exact .gaveUp hr hc
    | false =>
      rw [hc] at h
      cases h
      exact .admitted hr hc

/-- An event that is enabled does one of the things that `Step` lists. -/
theorem step_of_eq_some (h : p.step e = some q) : Step p e q := by
  cases e with
  | submit job =>
    obtain rfl : p.submit job = q := Option.some.inj h
    unfold submit
    split
    case isTrue hc => exact .turnedAway hc
    case isFalse hc => exact .offered (Bool.eq_false_iff.mpr hc)
  | enqueue i =>
    simp only [step, enqueue] at h
    split at h
    case h_2 => cases h
    case h_1 job ho =>
      split at h
      case isFalse => cases h
      case isTrue hq =>
        cases h
        exact .enqueued ho hq
  | refuse i =>
    simp only [step, refuse] at h
    split at h
    case h_2 => cases h
    case h_1 job ho =>
      split at h
      case isFalse => cases h
      case isTrue hc =>
        cases h
        exact .refused ho hc
  | poll n => exact poll_step h
  | wake n =>
    simp only [step, wake] at h
    split at h
    case h_2 => cases h
    case h_1 hs =>
      obtain ⟨w, hw, hs⟩ := stage?_eq_some_iff.mp hs
      cases h
      exact .woke hw hs
  | take n =>
    simp only [step, take] at h
    split at h
    case h_2 => cases h
    case h_1 job rest hs hq =>
      obtain ⟨w, hw, hs⟩ := stage?_eq_some_iff.mp hs
      cases h
      exact .took hw hs hq
  | finish n ok =>
    simp only [step, finish] at h
    split at h
    case h_2 => cases h
    case h_1 job hs =>
      obtain ⟨w, hw, hs⟩ := stage?_eq_some_iff.mp hs
      cases h
      exact .finished hw hs
  | crash n =>
    simp only [step, crash] at h
    split at h
    case h_2 => cases h
    case h_1 job hs =>
      obtain ⟨w, hw, hs⟩ := stage?_eq_some_iff.mp hs
      cases h
      exact .crashed hw hs
  | beginResize target =>
    simp only [step, beginResize] at h
    split at h
    case h_2 => cases h
    case h_1 hr =>
      cases h
      exact .locked hr
  | confirm => exact confirm_step h
  | adjust => exact adjust_step h
  | publish =>
    simp only [step, publish] at h
    split at h
    case h_2 => cases h
    case h_1 target hr =>
      split at h
      case isFalse => cases h
      case isTrue heq =>
        cases h
        exact .published hr heq
  | readBacklog =>
    obtain rfl : p.readBacklog = q := Option.some.inj h
    exact .readBacklog
  | readCount i =>
    simp only [step, readCount] at h
    split at h
    case h_2 => cases h
    case h_1 backlog hr hi =>
      cases h
      exact .readCount hr hi
  | act i => exact act_step h
  | close =>
    obtain ⟨ht, rfl⟩ := advance_eq_some_iff.mp h
    exact .closed ht
  | cancel =>
    obtain ⟨ht, rfl⟩ := advance_eq_some_iff.mp h
    exact .cancelled ht
  | collect =>
    simp only [step, collect] at h
    split at h
    case h_2 => cases h
    case h_1 hr =>
      obtain ⟨ht, rfl⟩ := advance_eq_some_iff.mp h
      exact .collected hr ht
  | awaitWorkers =>
    simp only [step, awaitWorkers] at h
    split at h
    case isFalse => cases h
    case isTrue hf =>
      obtain ⟨ht, rfl⟩ := advance_eq_some_iff.mp h
      exact .emptied ht hf
  | release =>
    obtain ⟨ht, rfl⟩ := advance_eq_some_iff.mp h
    exact .released ht

/-- A pool that can be made has a size that it can honour. -/
theorem create_eq_ok {sizing : Sizing} (h : create sizing = .ok p) :
    sizing.fault? = none ∧ p = start sizing := by
  unfold create at h
  split at h
  case h_1 => cases h
  case h_2 hfault =>
    split at h
    case isFalse => cases h
    case isTrue =>
      cases h
      exact ⟨hfault, rfl⟩

/-- Only submissions change what is on offer. -/
theorem Step.offers_eq (h : Step p e q) (hsubmit : ∀ job, e ≠ .submit job)
    (henqueue : ∀ i, e ≠ .enqueue i) (hrefuse : ∀ i, e ≠ .refuse i) : q.offers = p.offers := by
  cases h with
  | turnedAway _ | offered _ => exact absurd rfl (hsubmit _)
  | enqueued _ _ => exact absurd rfl (henqueue _)
  | refused _ _ => exact absurd rfl (hrefuse _)
  | _ => rfl

/-- Only what enters the queue is accepted. -/
theorem Step.accepted_eq (h : Step p e q) (henqueue : ∀ i, e ≠ .enqueue i) :
    q.accepted = p.accepted := by
  cases h with
  | enqueued _ _ => exact absurd rfl (henqueue _)
  | _ => rfl

/-- Only what is finished was handled. -/
theorem Step.handled_eq (h : Step p e q) (hfinish : ∀ n ok, e ≠ .finish n ok) :
    q.handled = p.handled := by
  cases h with
  | finished _ _ => exact absurd rfl (hfinish _ _)
  | _ => rfl

/-- A pool that is closed stays closed. -/
theorem Step.isClosed (h : Step p e q) (hc : p.isClosed = true) : q.isClosed = true := by
  cases h with
  | closed _ | cancelled _ | collected _ _ | emptied _ _ | released _ => rfl
  | _ => exact hc

/-- Only a submission can be refused: at once, or while it waits. -/
theorem Step.refused_eq (h : Step p e q) (hsubmit : ∀ job, e = .submit job → p.isClosed = false)
    (hrefuse : ∀ i, e ≠ .refuse i) : q.refused = p.refused := by
  cases h with
  | turnedAway hc => cases hc.symm.trans (hsubmit _ rfl)
  | refused _ _ => exact absurd rfl (hrefuse _)
  | _ => rfl

/-- Only the first event of the teardown closes a pool. -/
theorem Step.isClosed_eq (h : Step p e q) (hclose : e ≠ .close) : q.isClosed = p.isClosed := by
  cases h with
  | closed _ => exact absurd rfl hclose
  | cancelled ht | collected _ ht | emptied ht _ | released ht =>
    rw [Pool.isClosed, Pool.isClosed, ht]
    rfl
  | _ => rfl

/-- Only the last event of the teardown releases the handler. -/
theorem Step.isReleased_eq (h : Step p e q) (hrelease : e ≠ .release) :
    q.isReleased = p.isReleased := by
  cases h with
  | released _ => exact absurd rfl hrelease
  | closed ht | cancelled ht | collected _ ht | emptied ht _ =>
    rw [isReleased, isReleased, ht]
    rfl
  | _ => rfl

/-- A handler that was released stays released. -/
theorem Step.isReleased (h : Step p e q) (hp : p.isReleased = true) : q.isReleased = true := by
  cases h with
  | released _ => rfl
  | closed ht | cancelled ht | collected _ ht | emptied ht _ =>
    rw [Pool.isReleased, ht] at hp
    cases hp
  | _ => exact hp

theorem isClosed_of_isCancelled (h : p.isCancelled = true) : p.isClosed = true := by
  cases ht : p.teardown <;> simp_all [isCancelled, Pool.isClosed]

theorem offers_perm {i : Nat} {job : J} (h : p.offers[i]? = some job) :
    p.offers.Perm ([job] ++ p.offers.eraseIdx i) := by
  obtain ⟨hi, rfl⟩ := List.getElem?_eq_some_iff.mp h
  exact (List.getElem_cons_eraseIdx_perm hi).symm

/-! ## Workers by number -/

section Workers

variable {n m : Nat} {w : Worker J} {s : Stage J} {α : Type}

theorem mem_of_worker?_eq_some (h : p.worker? n = some w) : w ∈ p.workers :=
  List.mem_of_find?_eq_some h

theorem number_of_worker?_eq_some (h : p.worker? n = some w) : w.number = n :=
  beq_iff_eq.mp (List.find?_some (p := fun w : Worker J => w.number == n) h)

theorem worker?_setStage (n : Nat) (s : Stage J) (m : Nat) :
    (p.setStage n s).worker? m =
      (p.worker? m).map fun w => if w.number = n then { w with stage := s } else w := by
  have hnumber : (fun w : Worker J => w.number == m) ∘
      (fun w => if w.number = n then { w with stage := s } else w) = fun w => w.number == m := by
    funext w
    simp only [Function.comp_apply]
    split <;> rfl
  rw [worker?, worker?, setStage, List.find?_map, hnumber]

theorem stage?_setStage_ne (h : m ≠ n) : (p.setStage n s).stage? m = p.stage? m := by
  rw [stage?, worker?_setStage, stage?]
  cases hw : p.worker? m with
  | none => rfl
  | some w =>
    have hne : w.number ≠ n := number_of_worker?_eq_some hw ▸ h
    simp only [Option.map_some, if_neg hne]

/-- With numbers that differ, the worker of a number is the only one that changes. -/
theorem setStage_split (hn : (p.workers.map Worker.number).Nodup) (hw : p.worker? n = some w) :
    ∃ before after, p.workers = before ++ w :: after ∧
      ∀ s, (p.setStage n s).workers = before ++ { w with stage := s } :: after := by
  obtain ⟨before, after, hsplit⟩ := List.append_of_mem (mem_of_worker?_eq_some hw)
  have hnumber := number_of_worker?_eq_some hw
  rw [hsplit, List.map_append, List.map_cons] at hn
  obtain ⟨-, hafter, hbefore⟩ := List.nodup_append.mp hn
  refine ⟨before, after, hsplit, fun s => ?_⟩
  have hsame : ∀ v ∈ before ++ after, (if v.number = n then { v with stage := s } else v) = v := by
    intro v hv
    refine if_neg fun heq => ?_
    rcases List.mem_append.mp hv with hv | hv
    · exact hbefore _ (List.mem_map_of_mem hv) _ List.mem_cons_self (heq.trans hnumber.symm)
    · exact (List.nodup_cons.mp hafter).1 (hnumber.trans heq.symm ▸ List.mem_map_of_mem hv)
  simp only [setStage, hsplit, List.map_append, List.map_cons, hnumber, ↓reduceIte]
  rw [List.map_congr_left fun v hv => hsame v (List.mem_append_left _ hv),
    List.map_congr_left fun v hv => hsame v (List.mem_append_right _ hv)]
  simp

theorem map_setStage {f : Worker J → α} (hf : ∀ w s, f { w with stage := s } = f w) (n : Nat)
    (s : Stage J) : (p.setStage n s).workers.map f = p.workers.map f := by
  rw [setStage, List.map_map]
  refine List.map_congr_left fun w _ => ?_
  simp only [Function.comp_apply]
  split
  · exact hf w s
  · rfl

theorem map_retireLatest {f : Worker J → α} (hf : ∀ w place, f { w with place } = f w)
    (ws : List (Worker J)) : (retireLatest ws).map f = ws.map f := by
  induction ws with
  | nil => rfl
  | cons w ws ih =>
    rw [retireLatest]
    split
    · rw [List.map_cons, List.map_cons, hf]
    · rw [List.map_cons, List.map_cons, ih]

end Workers

/-! ## The teardown -/

/-- Whether an event is one of the teardown. -/
def Event.isTeardown : Event J → Bool
  | .close | .cancel | .collect | .awaitWorkers | .release => true
  | _ => false

/-- The events of the teardown that lie behind a point of it. -/
def teardownEvents : Teardown → List (Event J)
  | .notBegun => []
  | .closed => [.close]
  | .cancelled => [.close, .cancel]
  | .awaiting => [.close, .cancel, .collect]
  | .emptied => [.close, .cancel, .collect, .awaitWorkers]
  | .complete => [.close, .cancel, .collect, .awaitWorkers, .release]

theorem nodup_teardownEvents (t : Teardown) : (teardownEvents t : List (Event J)).Nodup := by
  cases t <;> simp [teardownEvents]

theorem Step.teardownEvents_eq (h : Step p e q) :
    teardownEvents q.teardown = teardownEvents p.teardown ++ [e].filter Event.isTeardown := by
  cases h with
  | closed ht => simp only [ht]; rfl
  | cancelled ht => simp only [ht]; rfl
  | collected _ ht => simp only [ht]; rfl
  | emptied ht _ => simp only [ht]; rfl
  | released ht => simp only [ht]; rfl
  | _ => exact (List.append_nil _).symm

/-- The teardown goes through its points once and in order. -/
theorem teardown_events {sizing : Sizing} {events : List (Event J)}
    (h : (start sizing).run? events = some p) :
    events.filter Event.isTeardown = teardownEvents p.teardown := by
  refine Machine.run_induction (f := step)
    (motive := fun es p => es.filter Event.isTeardown = teardownEvents p.teardown) rfl ?_ h
  intro es e t u _ ih hstep
  rw [List.filter_append, ih, (step_of_eq_some hstep).teardownEvents_eq]

theorem mem_teardownEvents {sizing : Sizing} {events : List (Event J)}
    (h : (start sizing).run? events = some p) (he : e.isTeardown = true) :
    e ∈ events ↔ e ∈ teardownEvents p.teardown := by
  rw [← teardown_events h, List.mem_filter, and_iff_left he]

end Pool

end SealedGateway
