import Mathlib.Logic.Function.Iterate
import SealedGateway.Pool.Schedule
import SealedGateway.Proofs.Pool.Scaling
import SealedGateway.Proofs.Pool.Size

/-!
# The controller comes to rest

A look of the controller takes several steps, and whatever else goes on in the pool can come in
between: jobs are submitted, taken and finished. As long as nothing else resizes or closes the pool,
the look leaves the number of workers that the rule asks for.

- **`Looking`** says how far a look has come; `Looking.step` is the step of the run.
- **`AtRest.look`**: what a look does to the number of workers; `AtRest.looks` is a run of them.
- **`autoscaled_look`**: an uninterrupted look is one, and it keeps the backlog.
- **`ReadInv`** bounds what looks read in any run.
- **`autoscale_converges`**: looks that find one backlog come to rest, without turning round.
-/

namespace SealedGateway.Pool

variable {J : Type} {sizing : Sizing} {b c : Nat} {p q : Pool J} {e : Event J}

/-- Whether an event leaves the controller alone: it begins no look, no other resize, and no part of
the teardown. -/
def Event.isAside : Event J → Bool
  | .readBacklog | .beginResize _ => false
  | e => !e.isTeardown

/-- An open pool with `c` workers, in which nothing resizes and no look is under way. -/
structure AtRest (sizing : Sizing) (c : Nat) (p : Pool J) : Prop where
  sizing_eq : p.sizing = sizing
  isClosed_eq : p.isClosed = false
  readings_eq : p.readings = []
  resize_eq : p.resize = none
  workerCount_eq : p.workerCount = c

/-- A look of the controller that finds the backlog `b`, between two pools. What else happens
meanwhile leaves the controller alone. -/
structure Look (b : Nat) (p q : Pool J) : Prop where
  found : ∃ before mid after, p.run? before = some mid ∧ mid.backlog = b ∧
    mid.run? (.readBacklog :: after) = some q ∧ ∀ e ∈ before ++ after, e.isAside = true
  readings_eq : q.readings = []
  resize_eq : q.resize = none

/-- How far a look has come that finds the backlog `b` and `c` workers, and whether it has read the
backlog. -/
inductive Looking (sizing : Sizing) (b c : Nat) : Bool → Pool J → Prop where
  | waiting {p : Pool J} (hreadings : p.readings = []) (hresize : p.resize = none)
      (hcount : p.workerCount = c) : Looking sizing b c false p
  | backlogRead {p : Pool J} (hreadings : p.readings = [⟨b, none⟩]) (hresize : p.resize = none)
      (hcount : p.workerCount = c) : Looking sizing b c true p
  | countRead {p : Pool J} (hreadings : p.readings = [⟨b, some c⟩]) (hresize : p.resize = none)
      (hcount : p.workerCount = c) : Looking sizing b c true p
  | resizing {p : Pool J} {admitted : Bool} (hreadings : p.readings = [])
      (hresize : p.resize = some ⟨sizing.next b c, admitted⟩)
      (hcount : p.workerCount = c ∨ p.workerCount = sizing.next b c) : Looking sizing b c true p
  | complete {p : Pool J} (hreadings : p.readings = []) (hresize : p.resize = none)
      (hcount : p.workerCount = sizing.next b c) : Looking sizing b c true p

/-! ## Steps -/

theorem workerCount_setStage (n : Nat) (stage : Stage J) :
    (p.setStage n stage).workerCount = p.workerCount :=
  workerCount_congr (map_setStage (fun _ _ => rfl) n stage)

/-- The pool with one worker more. -/
def grown (p : Pool J) : Pool J :=
  { p with workers := .fresh p.nextNumber :: p.workers, nextNumber := p.nextNumber + 1 }

/-- The pool with one worker fewer. -/
def shrunk (p : Pool J) : Pool J := { p with workers := retireLatest p.workers }

theorem workerCount_grown (p : Pool J) : p.grown.workerCount = p.workerCount + 1 :=
  List.countP_cons_of_pos rfl

theorem workerCount_shrunk (h : 0 < p.workerCount) : p.shrunk.workerCount + 1 = p.workerCount :=
  countP_runs_retireLatest h

/-- What leaves the controller alone neither closes the pool nor changes its bounds. -/
theorem Step.aside (hs : Step p e q) (he : e.isAside = true) :
    q.sizing = p.sizing ∧ q.isClosed = p.isClosed := by
  cases hs with
  | closed _ | cancelled _ | collected _ _ | emptied _ _ | released _ => cases he
  | _ => exact ⟨rfl, rfl⟩

namespace Looking

variable {begun : Bool}

/-- What is no business of the controller leaves a look where it is. -/
theorem of_same (h : Looking sizing b c begun p) (hreadings : q.readings = p.readings)
    (hresize : q.resize = p.resize) (hcount : q.workerCount = p.workerCount) :
    Looking sizing b c begun q := by
  cases h with
  | waiting h₁ h₂ h₃ => exact .waiting (hreadings.trans h₁) (hresize.trans h₂) (hcount.trans h₃)
  | backlogRead h₁ h₂ h₃ =>
    exact .backlogRead (hreadings.trans h₁) (hresize.trans h₂) (hcount.trans h₃)
  | countRead h₁ h₂ h₃ =>
    exact .countRead (hreadings.trans h₁) (hresize.trans h₂) (hcount.trans h₃)
  | resizing h₁ h₂ h₃ => exact .resizing (hreadings.trans h₁) (hresize.trans h₂) (hcount ▸ h₃)
  | complete h₁ h₂ h₃ => exact .complete (hreadings.trans h₁) (hresize.trans h₂) (hcount.trans h₃)

/-- A lock is held for nothing but the number that the rule asks for. -/
theorem of_resize (h : Looking sizing b c begun p) {target : Nat} {admitted : Bool}
    (hr : p.resize = some ⟨target, admitted⟩) :
    begun = true ∧ p.readings = [] ∧ target = sizing.next b c ∧
      (p.workerCount = c ∨ p.workerCount = sizing.next b c) := by
  cases h with
  | resizing hreadings hresize hcount =>
    rw [hresize] at hr
    cases hr
    exact ⟨rfl, hreadings, rfl, hcount⟩
  | waiting _ hresize _ | backlogRead _ hresize _ | countRead _ hresize _ | complete _ hresize _ =>
    rw [hresize] at hr
    cases hr

/-- There is one reading at most, and it is that of the look. -/
theorem of_reading (h : Looking sizing b c begun p) {i : Nat} {r : Reading}
    (hi : p.readings[i]? = some r) :
    begun = true ∧ i = 0 ∧ p.readings = [r] ∧ r.backlog = b ∧ p.resize = none ∧
      p.workerCount = c ∧ ∀ active, r.active = some active → active = c := by
  cases h with
  | waiting hreadings _ _ | resizing hreadings _ _ | complete hreadings _ _ =>
    rw [hreadings] at hi
    cases hi
  | backlogRead hreadings hresize hcount =>
    rw [hreadings, List.getElem?_singleton] at hi
    split at hi
    case isFalse => cases hi
    case isTrue hzero =>
      cases hi
      exact ⟨rfl, hzero, hreadings, rfl, hresize, hcount, nofun⟩
  | countRead hreadings hresize hcount =>
    rw [hreadings, List.getElem?_singleton] at hi
    split at hi
    case isFalse => cases hi
    case isTrue hzero =>
      cases hi
      exact ⟨rfl, hzero, hreadings, rfl, hresize, hcount, fun _ h => (Option.some.inj h).symm⟩

theorem step (h : Looking sizing b c begun p) (hsizing : p.sizing = sizing)
    (hopen : p.isClosed = false) (hmin : sizing.minWorkers ≤ c) (hmax : c ≤ sizing.maxWorkers)
    (hs : Step p e q) (he : e.isAside = true) : Looking sizing b c begun q := by
  have hwithin := Sizing.next_within (b := b) hmin hmax
  cases hs with
  | locked _ | readBacklog | closed _ | cancelled _ | collected _ _ | emptied _ _ | released _ =>
    cases he
  | turnedAway _ | offered _ | enqueued _ _ | refused _ _ => exact h.of_same rfl rfl rfl
  | stopped _ _ _ | waited _ _ _ | woke _ _ | took _ _ _ | finished _ _ | crashed _ _ =>
    exact h.of_same rfl rfl (workerCount_setStage _ _)
  | gaveUp _ hc =>
    rw [hopen] at hc
    cases hc
  | admitted hr _ =>
    obtain ⟨rfl, hreadings, rfl, hcount⟩ := h.of_resize hr
    exact .resizing hreadings rfl hcount
  | grew hr hlt =>
    -- The rule asks for a number next to the old one, so one worker more is all there is to do.
    obtain ⟨rfl, hreadings, rfl, hcount⟩ := h.of_resize hr
    have hmore : p.grown.workerCount = p.workerCount + 1 := workerCount_grown p
    exact .resizing hreadings hr (.inr (hmore.trans (by omega)))
  | shrank hr hlt =>
    obtain ⟨rfl, hreadings, rfl, hcount⟩ := h.of_resize hr
    have hfewer : p.shrunk.workerCount + 1 = p.workerCount :=
      workerCount_shrunk (Nat.zero_lt_of_lt hlt)
    exact .resizing hreadings hr (.inr (show p.shrunk.workerCount = _ by omega))
  | published hr heq =>
    obtain ⟨rfl, hreadings, rfl, -⟩ := h.of_resize hr
    exact .complete hreadings rfl ((countP_runs_remembered p.workers).trans heq)
  | readCount hr hi =>
    obtain ⟨rfl, rfl, hreadings, rfl, -, hcount, -⟩ := h.of_reading hi
    refine .countRead ?_ hr hcount
    rw [hreadings, hcount]
    rfl
  | @rescaled i backlog active target hi ht hr =>
    obtain ⟨rfl, rfl, hreadings, rfl, -, hcount, hactive⟩ := h.of_reading hi
    obtain rfl := hactive active rfl
    have hnone : p.readings.eraseIdx 0 = [] := by
      rw [hreadings]
      rfl
    have hlock : some (Resize.mk (p.sizing.clamp target) false) =
        some ⟨sizing.next backlog active, false⟩ := by
      rw [hsizing] at ht ⊢
      rw [← Sizing.next_of_some ht, Sizing.clamp_next hmin hmax]
    exact .resizing hnone hlock (.inl hcount)
  | content hi ht =>
    obtain ⟨rfl, rfl, hreadings, rfl, hr, hcount, hactive⟩ := h.of_reading hi
    obtain rfl := hactive _ rfl
    refine .complete ?_ hr (hcount.trans (Sizing.next_of_none (hsizing ▸ ht)).symm)
    rw [hreadings]
    rfl

theorem run (h : Looking sizing b c begun p) (hsizing : p.sizing = sizing)
    (hopen : p.isClosed = false) (hmin : sizing.minWorkers ≤ c) (hmax : c ≤ sizing.maxWorkers)
    {events : List (Event J)} (hrun : p.run? events = some q)
    (haside : ∀ e ∈ events, e.isAside = true) :
    q.sizing = sizing ∧ q.isClosed = false ∧ Looking sizing b c begun q := by
  revert haside
  refine Machine.run_induction (f := Pool.step)
    (motive := fun es t => (∀ e ∈ es, e.isAside = true) →
      t.sizing = sizing ∧ t.isClosed = false ∧ Looking sizing b c begun t)
    (fun _ => ⟨hsizing, hopen, h⟩) ?_ hrun
  intro es e t u _ ih hstep haside
  obtain ⟨hes, he⟩ := List.forall_mem_append.mp haside
  have hs := step_of_eq_some hstep
  have he : e.isAside = true := he e List.mem_cons_self
  obtain ⟨htsizing, htopen, ht⟩ := ih hes
  obtain ⟨husizing, huclosed⟩ := hs.aside he
  exact ⟨husizing.trans htsizing, huclosed.trans htopen, ht.step htsizing htopen hmin hmax hs he⟩

end Looking

/-! ## Looks -/

/-- A look takes a pool at rest to a pool at rest, with the number of workers that the rule asks
for. -/
theorem AtRest.look (h : AtRest sizing c p) (hmin : sizing.minWorkers ≤ c)
    (hmax : c ≤ sizing.maxWorkers) (hlook : Look b p q) : AtRest sizing (sizing.next b c) q := by
  obtain ⟨before, mid, after, hbefore, hbacklog, hafter, haside⟩ := hlook.found
  obtain ⟨hbeforeAside, hafterAside⟩ := List.forall_mem_append.mp haside
  obtain ⟨read, hread, hafter⟩ := Machine.run_cons_iff.mp hafter
  obtain rfl : mid.readBacklog = read := Option.some.inj hread
  have hwaiting : Looking sizing b c false p :=
    .waiting h.readings_eq h.resize_eq h.workerCount_eq
  obtain ⟨hsizing, hopen, hmid⟩ :=
    hwaiting.run h.sizing_eq h.isClosed_eq hmin hmax hbefore hbeforeAside
  have hbegun : Looking sizing b c true mid.readBacklog := by
    cases hmid with
    | waiting hreadings hresize hcount =>
      refine .backlogRead ?_ hresize hcount
      rw [readBacklog, hreadings, hbacklog]
      rfl
  obtain ⟨hsizing, hopen, hlast⟩ := hbegun.run hsizing hopen hmin hmax hafter hafterAside
  -- Of the points of a look that has begun, only the last has neither a reading nor the lock.
  have hcount : q.workerCount = sizing.next b c := by
    have hreadings := hlook.readings_eq
    have hresize := hlook.resize_eq
    cases hlast with
    | complete _ _ hcount => exact hcount
    | backlogRead h _ _ | countRead h _ _ =>
      rw [hreadings] at h
      cases h
    | resizing _ h _ =>
      rw [hresize] at h
      cases h
  exact ⟨hsizing, hopen, hlook.readings_eq, hlook.resize_eq, hcount⟩

/-- Looks that follow each other go on to where the first number comes to rest. -/
theorem AtRest.looks {n : Nat} {s : Nat → Pool J} (h : AtRest sizing c (s 0))
    (hmin : sizing.minWorkers ≤ c) (hmax : c ≤ sizing.maxWorkers)
    (hlook : ∀ i < n, Look b (s i) (s (i + 1))) :
    ∀ i ≤ n, AtRest sizing (Sizing.paced (sizing.resting b c) c i) (s i) := by
  have hresting := Sizing.resting_bounds (b := b) (c := c) (Nat.le_trans hmin hmax)
  intro i hi
  induction i with
  | zero => exact (Sizing.paced_zero _ c).symm ▸ h
  | succ i ih =>
    obtain ⟨hlo, hhi⟩ := Sizing.paced_bounds (i := i) hresting hmin hmax
    rw [← Sizing.next_paced hmin hmax]
    exact (ih (Nat.le_of_succ_le hi)).look hlo hhi (hlook i hi)

/-! ## Looks without interruption -/

/-- The way to the target, one worker at a time, and its end. -/
theorem run_adjusting {target d : Nat} (hr : p.resize = some ⟨target, true⟩)
    (hd : d = (target - p.workerCount) + (p.workerCount - target)) :
    ∃ q, p.run? (List.replicate d .adjust ++ [.publish]) = some q ∧ q.resize = none ∧
      q.readings = p.readings ∧ q.queue = p.queue := by
  induction d generalizing p with
  | zero =>
    have heq : p.workerCount = target := by omega
    have hstep : p.step .publish = some
        { p with workers := remembered p.workers, shown := p.workerCount, resize := none } := by
      simp only [step, publish, hr, if_pos heq]
      rfl
    exact ⟨_, Machine.run_cons_iff.mpr ⟨_, hstep, rfl⟩, rfl, rfl, rfl⟩
  | succ d ih =>
    rcases Nat.lt_or_gt_of_ne (show p.workerCount ≠ target by omega) with hlt | hgt
    · have hstep : p.step .adjust = some p.grown := by
        simp only [step, adjust, hr, if_pos hlt, grown]
      have hmore := workerCount_grown p
      obtain ⟨q, hrun, hq⟩ := ih (p := p.grown) hr (by omega)
      exact ⟨q, Machine.run_cons_iff.mpr ⟨_, hstep, hrun⟩, hq⟩
    · have hstep : p.step .adjust = some p.shrunk := by
        simp only [step, adjust, hr, if_neg (Nat.lt_asymm hgt), if_pos hgt, shrunk]
      have hfewer := workerCount_shrunk (Nat.zero_lt_of_lt hgt)
      obtain ⟨q, hrun, hq⟩ := ih (p := p.shrunk) hr (by omega)
      exact ⟨q, Machine.run_cons_iff.mpr ⟨_, hstep, hrun⟩, hq⟩

/-- A resize that holds the lock of an open pool reaches its end. -/
theorem run_resizeEvents {target : Nat} (hr : p.resize = some ⟨target, false⟩)
    (hopen : p.isClosed = false) :
    ∃ q, p.run? (p.resizeEvents target) = some q ∧ q.resize = none ∧ q.readings = p.readings ∧
      q.queue = p.queue := by
  have hstep : p.step .confirm = some { p with resize := some ⟨target, true⟩ } := by
    simp [step, confirm, hr, hopen]
  have hlock : ({ p with resize := some ⟨target, true⟩ } : Pool J).resize =
      some ⟨target, true⟩ := rfl
  obtain ⟨q, hrun, hq⟩ := run_adjusting hlock rfl
  have hevents : p.resizeEvents target =
      .confirm :: (List.replicate ((target - p.workerCount) + (p.workerCount - target)) .adjust ++
        [.publish]) := by
    rw [resizeEvents, hopen]
    rfl
  exact ⟨q, hevents ▸ Machine.run_cons_iff.mpr ⟨_, hstep, hrun⟩, hq⟩

theorem isAside_of_mem_resizeEvents {target : Nat} (he : e ∈ p.resizeEvents target) :
    e.isAside = true := by
  unfold resizeEvents at he
  split at he
  · obtain rfl := List.mem_singleton.mp he
    rfl
  · simp only [List.mem_cons, List.mem_append, List.mem_replicate, List.not_mem_nil,
      or_false] at he
    rcases he with rfl | ⟨-, rfl⟩ | rfl <;> rfl

/-- The events of a look without interruption, behind its first one. -/
def lookEvents (p : Pool J) : List (Event J) :=
  .readCount 0 :: .act 0 ::
    match p.sizing.scaled p.backlog p.workerCount with
    | some target => p.resizeEvents (p.sizing.clamp target)
    | none => []

theorem isAside_of_mem_lookEvents (he : e ∈ p.lookEvents) : e.isAside = true := by
  rcases List.mem_cons.mp he with rfl | he
  · rfl
  rcases List.mem_cons.mp he with rfl | he
  · rfl
  split at he
  · exact isAside_of_mem_resizeEvents he
  · cases he

theorem run_lookEvents (h : AtRest sizing c p) :
    ∃ q, p.run? (.readBacklog :: p.lookEvents) = some q ∧ q.resize = none ∧ q.readings = [] ∧
      q.queue = p.queue := by
  have hread : p.readBacklog.step (.readCount 0) =
      some { p with readings := [⟨p.backlog, some p.workerCount⟩] } := by
    simp [step, readCount, readBacklog, h.readings_eq, h.resize_eq, workerCount]
  cases hscaled : p.sizing.scaled p.backlog p.workerCount with
  | none =>
    have hact : ({ p with readings := [⟨p.backlog, some p.workerCount⟩] } : Pool J).step (.act 0) =
        some { p with readings := [] } := by
      simp [step, act, hscaled]
    refine ⟨{ p with readings := [] }, ?_, h.resize_eq, rfl, rfl⟩
    rw [lookEvents, hscaled]
    exact Machine.run_cons_iff.mpr ⟨_, rfl, Machine.run_cons_iff.mpr
      ⟨_, hread, Machine.run_cons_iff.mpr ⟨_, hact, rfl⟩⟩⟩
  | some target =>
    have hact : ({ p with readings := [⟨p.backlog, some p.workerCount⟩] } : Pool J).step (.act 0) =
        some { p with readings := [], resize := some ⟨p.sizing.clamp target, false⟩ } := by
      simp [step, act, hscaled, beginResize, h.resize_eq]
    have hlock : ({ p with readings := [], resize := some ⟨p.sizing.clamp target, false⟩ } :
        Pool J).resize = some ⟨p.sizing.clamp target, false⟩ := rfl
    obtain ⟨q, hrun, hresize, hreadings, hqueue⟩ := run_resizeEvents hlock h.isClosed_eq
    refine ⟨q, ?_, hresize, hreadings, hqueue⟩
    rw [lookEvents, hscaled]
    exact Machine.run_cons_iff.mpr ⟨_, rfl, Machine.run_cons_iff.mpr
      ⟨_, hread, Machine.run_cons_iff.mpr ⟨_, hact, hrun⟩⟩⟩

/-- The look of the schedule is one, and leaves the queue alone. -/
theorem autoscaled_look (h : AtRest sizing c p) :
    Look p.backlog p p.autoscaled ∧ p.autoscaled.backlog = p.backlog := by
  obtain ⟨q, hrun, hresize, hreadings, hqueue⟩ := run_lookEvents h
  have hq : p.autoscaled = q := by
    have hevents : p.autoscaled = (p.run? (.readBacklog :: p.lookEvents)).getD p := by
      rw [autoscaled, h.readings_eq]
      rfl
    rw [hevents, hrun, Option.getD_some]
  rw [hq]
  exact ⟨⟨⟨[], p, p.lookEvents, rfl, rfl, hrun, fun e he => isAside_of_mem_lookEvents he⟩,
    hreadings, hresize⟩, congrArg List.length hqueue⟩

/-- Looks of the schedule, one after the other, all find the backlog that the first one finds. -/
theorem autoscaled_looks (h : AtRest sizing c p) (hmin : sizing.minWorkers ≤ c)
    (hmax : c ≤ sizing.maxWorkers) (i : Nat) :
    Look p.backlog (autoscaled^[i] p) (autoscaled^[i + 1] p) := by
  have hrest : (autoscaled^[i] p).backlog = p.backlog ∧ ∃ d, AtRest sizing d (autoscaled^[i] p) ∧
      sizing.minWorkers ≤ d ∧ d ≤ sizing.maxWorkers := by
    induction i with
    | zero => exact ⟨rfl, c, h, hmin, hmax⟩
    | succ i ih =>
      obtain ⟨hbacklog, d, hd, hlo, hhi⟩ := ih
      obtain ⟨hlook, hsame⟩ := autoscaled_look hd
      rw [Function.iterate_succ_apply']
      exact ⟨hsame.trans hbacklog, _, hd.look hlo hhi hlook, Sizing.next_bounds hlo hhi⟩
  obtain ⟨hbacklog, d, hd, -, -⟩ := hrest
  rw [Function.iterate_succ_apply', ← hbacklog]
  exact (autoscaled_look hd).1

/-! ## What looks read -/

theorem SizeInv.workerCount_le (h : SizeInv sizing p) : p.workerCount ≤ sizing.maxWorkers := by
  cases htook : p.tookOver with
  | false => exact (h.bounds htook).2
  | true =>
    rw [h.workerCount_eq_zero htook]
    exact Nat.zero_le _

/-- No more jobs wait than the queue has room for, and no look has read anything else. -/
structure ReadInv (sizing : Sizing) (p : Pool J) : Prop where
  queue : p.queue.length ≤ sizing.queueSize
  readings : ∀ r ∈ p.readings,
    r.backlog ≤ sizing.queueSize ∧ ∀ active, r.active = some active → active ≤ sizing.maxWorkers

namespace ReadInv

theorem step (h : ReadInv sizing p) (hsize : SizeInv sizing p) (hs : Step p e q) :
    ReadInv sizing q := by
  cases hs with
  | enqueued ho hq =>
    refine ⟨?_, h.readings⟩
    rw [hsize.sizing_eq] at hq
    rw [List.length_append]
    exact hq
  | took hw hs hq =>
    refine ⟨?_, h.readings⟩
    have hle := h.queue
    rw [hq] at hle
    exact Nat.le_of_succ_le hle
  | readBacklog =>
    refine ⟨h.queue, fun r hr => ?_⟩
    rcases List.mem_append.mp hr with hr | hr
    · exact h.readings r hr
    · obtain rfl := List.mem_singleton.mp hr
      exact ⟨h.queue, nofun⟩
  | readCount _ hi =>
    refine ⟨h.queue, fun r hr => ?_⟩
    rcases List.mem_or_eq_of_mem_set hr with hr | rfl
    · exact h.readings r hr
    · refine ⟨(h.readings _ (List.mem_of_getElem? hi)).1, fun active hactive => ?_⟩
      obtain rfl := Option.some.inj hactive
      exact hsize.workerCount_le
  | rescaled _ _ _ | content _ _ =>
    exact ⟨h.queue, fun r hr => h.readings r (List.mem_of_mem_eraseIdx hr)⟩
  | _ => exact ⟨h.queue, h.readings⟩

theorem run {events : List (Event J)} (hs : sizing.fault? = none)
    (hrun : (start sizing).run? events = some p) : ReadInv sizing p := by
  have hstart : ReadInv sizing (start sizing : Pool J) := ⟨Nat.zero_le _, nofun⟩
  refine (Machine.run_invariant (f := Pool.step)
    (P := fun t => SizeInv sizing t ∧ ReadInv sizing t) ⟨.start hs, hstart⟩ ?_ hrun).2
  rintro t e u ⟨hsize, hread⟩ hstep
  exact ⟨hsize.step (step_of_eq_some hstep), hread.step hsize (step_of_eq_some hstep)⟩

end ReadInv

/-- A pool that can be made has a queue that can be made. -/
theorem isValid_of_create (h : create sizing = .ok p) :
    Capacity.isValid sizing.queueSize = true := by
  unfold create at h
  split at h
  · cases h
  · split at h
    · assumption
    · cases h

/-! ## Convergence -/

/-- **The controller comes to rest, without turning round.** As long as its looks find one backlog
and nothing else resizes the pool, each look changes the number of workers by one at most, all of
them in one direction, and after as many as the bounds are apart the number is the nearest one that
is neither below the backlog nor more than one above it, as far as the bounds admit. No later look
changes it. Looks can follow each other so as long as one likes. And in machine words, nothing that
the rule computes from what a look has read is out of range. -/
theorem autoscale_converges {p₀ : Pool J} (hcreate : create sizing = .ok p₀) :
    (∀ (b c n : Nat) (s : Nat → Pool J), AtRest sizing c (s 0) → sizing.minWorkers ≤ c →
      c ≤ sizing.maxWorkers → (∀ i < n, Look b (s i) (s (i + 1))) →
        ((∀ i < n, (s i).workerCount ≤ (s (i + 1)).workerCount ∧
            (s (i + 1)).workerCount ≤ (s i).workerCount + 1) ∨
          ∀ i < n, (s (i + 1)).workerCount ≤ (s i).workerCount ∧
            (s i).workerCount ≤ (s (i + 1)).workerCount + 1) ∧
        ∀ i ≤ n, sizing.maxWorkers - sizing.minWorkers ≤ i →
          (s i).workerCount =
            min (max c (max sizing.minWorkers (min b sizing.maxWorkers)))
              (min sizing.maxWorkers (max (b + 1) sizing.minWorkers))) ∧
    (∀ (c : Nat) (p : Pool J), AtRest sizing c p → sizing.minWorkers ≤ c → c ≤ sizing.maxWorkers →
      ∀ i, Look p.backlog (autoscaled^[i] p) (autoscaled^[i + 1] p)) ∧
    (sizing.maxWorkers < 2 ^ 64 → ∀ events p, p₀.run? events = some p →
      ∀ b c, ⟨b, some c⟩ ∈ p.readings → b ≤ sizing.queueSize ∧ c ≤ sizing.maxWorkers ∧
        Sizing.scaledWord? (.ofNat sizing.minWorkers) (.ofNat sizing.maxWorkers)
          (.ofNat sizing.queueSize) (.ofNat (sizing.queueSize - b)) (.ofNat c) =
            some ((sizing.scaled b c).map .ofNat)) := by
  have hqueue := isValid_of_create hcreate
  obtain ⟨hfault, rfl⟩ := create_eq_ok hcreate
  obtain ⟨-, hordered, -, -⟩ := Sizing.fault?_eq_none_iff.mp hfault
  refine ⟨fun b c n s hrest hmin hmax hlook => ?_,
    fun c p hrest hmin hmax => autoscaled_looks hrest hmin hmax,
    fun hword events p hrun b c hread => ?_⟩
  · have hcount : ∀ i ≤ n, (s i).workerCount = Sizing.paced (sizing.resting b c) c i :=
      fun i hi => (hrest.looks hmin hmax hlook i hi).workerCount_eq
    refine ⟨?_, fun i hi hlong => ?_⟩
    · rcases Nat.le_total c (sizing.resting b c) with hle | hge
      · refine .inl fun i hi => ?_
        rw [hcount i (Nat.le_of_lt hi), hcount (i + 1) hi]
        exact Sizing.paced_grows hle i
      · refine .inr fun i hi => ?_
        rw [hcount i (Nat.le_of_lt hi), hcount (i + 1) hi]
        exact Sizing.paced_shrinks hge i
    · rw [hcount i hi]
      exact Sizing.paced_eq (Sizing.resting_bounds hordered) hmin hmax hlong
  · obtain ⟨hb, hc⟩ := (ReadInv.run hfault hrun).readings _ hread
    exact ⟨hb, hc c rfl, Sizing.scaledWord?_eq hordered hword hqueue hb (hc c rfl)⟩

namespace Sample

def growing : Sizing := ⟨1, 3, 4, 1⟩

/-- Four jobs wait, and the only worker has not looked yet. -/
def crowded : List (Event Nat) :=
  [.submit 0, .submit 1, .submit 2, .submit 3, .enqueue 0, .enqueue 0, .enqueue 0, .enqueue 0]

end Sample

/-- From one worker to three in two looks, and what the first of them reads in machine words. -/
theorem autoscale_converges_crowded :
    ∃ p, (start Sample.growing).run? Sample.crowded = some p ∧ p.workerCount = 1 ∧ p.backlog = 4 ∧
      (autoscaled^[2] p).workerCount = 3 ∧ (autoscaled^[5] p).workerCount = 3 ∧
      Sizing.scaledWord? 1 3 4 0 1 = some (some 2) := by
  have hcreate : create Sample.growing = .ok (start Sample.growing : Pool Nat) := rfl
  obtain ⟨hrest, hlooks, hwords⟩ := autoscale_converges hcreate
  obtain ⟨p, hp, hp₀⟩ : ∃ p, (start Sample.growing).run? Sample.crowded = some p ∧
      AtRest Sample.growing 1 p ∧ p.backlog = 4 := ⟨_, rfl, ⟨rfl, rfl, rfl, rfl, rfl⟩, rfl⟩
  obtain ⟨hstart, hbacklog⟩ := hp₀
  have hlook (i : Nat) : Look 4 (autoscaled^[i] p) (autoscaled^[i + 1] p) :=
    hbacklog ▸ hlooks 1 p hstart (by decide) (by decide) i
  obtain ⟨-, hcount⟩ := hrest 4 1 5 (fun i => autoscaled^[i] p) hstart (by decide) (by decide)
    fun i _ => hlook i
  obtain ⟨q, hq, hread⟩ : ∃ q, (start Sample.growing).run?
      (Sample.crowded ++ [.readBacklog, .readCount 0]) = some q ∧ ⟨4, some 1⟩ ∈ q.readings :=
    ⟨_, rfl, by decide⟩
  obtain ⟨-, -, hword⟩ := hwords (by decide) _ q hq 4 1 hread
  exact ⟨p, hp, hstart.workerCount_eq, hbacklog, hcount 2 (by decide) (by decide),
    hcount 5 (by decide) (by decide), hword⟩

end SealedGateway.Pool
