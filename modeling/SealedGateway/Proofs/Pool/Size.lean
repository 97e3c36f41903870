import SealedGateway.Proofs.Pool.Step

/-!
# How many workers a pool has

The number of workers stays between its bounds until the teardown takes the workers over, and is
zero from then on. The controller acts on what it read some time ago, and a resize can have found
the pool open just before it was closed; neither matters, because a resize aims at what the bounds
admit, and because the teardown waits for the lock that a resize holds.

- **`SizeInv`** is the invariant of a run, `SizeInv.step` its step.
- **`Step.numbers`**: who there is changes only under an admitted resize. So workers have numbers of
  their own (`Numbered`), none is started once they are taken over (`run_tookOver`), and none is
  forgotten before it has ended (`present_or_ended`).
- **`size_bounded`** has the bounds, what the teardown leaves behind, and the number that is shown.
-/

namespace SealedGateway

theorem Sizing.clamp_bounds {s : Sizing} (h : s.minWorkers ≤ s.maxWorkers) (n : Nat) :
    s.minWorkers ≤ s.clamp n ∧ s.clamp n ≤ s.maxWorkers := by
  unfold clamp
  omega

namespace Pool

variable {J : Type} {sizing : Sizing} {p q : Pool J} {e : Event J}

/-- Whether the teardown has taken over the workers. -/
def tookOver (p : Pool J) : Bool :=
  match p.teardown with
  | .notBegun | .closed | .cancelled => false
  | .awaiting | .emptied | .complete => true

/-- Whether the teardown has seen all workers end. -/
def sawEnd (p : Pool J) : Bool :=
  match p.teardown with
  | .notBegun | .closed | .cancelled | .awaiting => false
  | .emptied | .complete => true

theorem tookOver_eq_false_of_open (h : p.isClosed = false) : p.tookOver = false := by
  cases ht : p.teardown <;> simp_all [isClosed, tookOver]

theorem sawEnd_of_isReleased (h : p.isReleased = true) : p.sawEnd = true := by
  cases ht : p.teardown <;> simp_all [isReleased, sawEnd]

theorem isClosed_of_sawEnd (h : p.sawEnd = true) : p.isClosed = true := by
  cases ht : p.teardown <;> simp_all [sawEnd, isClosed]

theorem tookOver_of_sawEnd (h : p.sawEnd = true) : p.tookOver = true := by
  cases ht : p.teardown <;> simp_all [sawEnd, tookOver]

theorem collect_mem_iff {events : List (Event J)} (h : (start sizing).run? events = some p) :
    .collect ∈ events ↔ p.tookOver = true := by
  rw [mem_teardownEvents h rfl]
  cases ht : p.teardown <;> simp [teardownEvents, tookOver, ht]

theorem awaitWorkers_mem_iff {events : List (Event J)} (h : (start sizing).run? events = some p) :
    .awaitWorkers ∈ events ↔ p.sawEnd = true := by
  rw [mem_teardownEvents h rfl]
  cases ht : p.teardown <;> simp [teardownEvents, sawEnd, ht]

/-! ## Counting workers -/

theorem workerCount_eq_count (p : Pool J) :
    p.workerCount = (p.workers.map Worker.place).count .running := by
  rw [workerCount, List.count, List.countP_map]
  rfl

theorem workerCount_congr (h : q.workers.map Worker.place = p.workers.map Worker.place) :
    q.workerCount = p.workerCount := by
  rw [workerCount_eq_count, workerCount_eq_count, h]

theorem countP_runs_retireLatest {ws : List (Worker J)} (h : 0 < ws.countP Worker.runs) :
    (retireLatest ws).countP Worker.runs + 1 = ws.countP Worker.runs := by
  induction ws with
  | nil => cases h
  | cons w ws ih =>
    rw [retireLatest]
    by_cases hw : w.runs = true
    · rw [if_pos hw, List.countP_cons_of_pos hw, List.countP_cons_of_neg (by simp [Worker.runs])]
    · rw [List.countP_cons_of_neg hw] at h
      rw [if_neg hw, List.countP_cons_of_neg hw, List.countP_cons_of_neg hw, ih h]

/-- Retired workers do not count, so it does not matter when they are forgotten. -/
theorem countP_runs_remembered (ws : List (Worker J)) :
    (remembered ws).countP Worker.runs = ws.countP Worker.runs := by
  rw [remembered, List.countP_filter]
  refine List.countP_congr fun w _ => ?_
  cases hplace : w.place <;> simp [Worker.runs, hplace]

/-! ## The invariant -/

/-- The size of a pool is in order. -/
structure SizeInv (sizing : Sizing) (p : Pool J) : Prop where
  sizing_eq : p.sizing = sizing
  ordered : sizing.minWorkers ≤ sizing.maxWorkers
  target : ∀ r, p.resize = some r →
    sizing.minWorkers ≤ r.target ∧ r.target ≤ sizing.maxWorkers
  bounds : p.tookOver = false →
    sizing.minWorkers ≤ p.workerCount ∧ p.workerCount ≤ sizing.maxWorkers
  shown : p.tookOver = false → (∀ target, p.resize ≠ some ⟨target, true⟩) →
    p.shown = p.workerCount
  taken : p.tookOver = true →
    (∀ w ∈ p.workers, w.place = .awaited) ∧ ∀ target, p.resize ≠ some ⟨target, true⟩
  ended : p.sawEnd = true → p.shown = 0 ∧ ∀ w ∈ p.workers, w.finished = true

namespace SizeInv

theorem start (h : sizing.fault? = none) : SizeInv sizing (start sizing : Pool J) := by
  obtain ⟨-, hordered, -, -⟩ := Sizing.fault?_eq_none_iff.mp h
  have hcount : (Pool.start sizing : Pool J).workerCount = sizing.minWorkers := by
    have hruns (n : Nat) : (Worker.fresh n : Worker J).runs = true := rfl
    simp [workerCount, Pool.start, List.countP_map, Function.comp_def, hruns]
  refine ⟨rfl, hordered, nofun, fun _ => ?_, fun _ _ => hcount.symm, nofun, nofun⟩
  rw [hcount]
  exact ⟨Nat.le_refl _, hordered⟩

/-- What is no business of the size: it stays in order as long as places, lock, teardown and the
number shown are the same. -/
theorem of_same (h : SizeInv sizing p) (hsizing : q.sizing = p.sizing)
    (hplaces : q.workers.map Worker.place = p.workers.map Worker.place)
    (hresize : q.resize = p.resize) (hteardown : q.teardown = p.teardown)
    (hshown : q.shown = p.shown)
    (hended : p.sawEnd = true → ∀ w ∈ q.workers, w.finished = true) : SizeInv sizing q := by
  have htook : q.tookOver = p.tookOver := by rw [tookOver, tookOver, hteardown]
  have hsaw : q.sawEnd = p.sawEnd := by rw [sawEnd, sawEnd, hteardown]
  refine ⟨hsizing.trans h.sizing_eq, h.ordered, ?_, ?_, ?_, ?_, ?_⟩
  · rw [hresize]
    exact h.target
  · rw [htook, workerCount_congr hplaces]
    exact h.bounds
  · rw [htook, hresize, hshown, workerCount_congr hplaces]
    exact h.shown
  · rw [htook, hresize]
    refine fun ht => ⟨fun w hw => ?_, (h.taken ht).2⟩
    obtain ⟨v, hv, hplace⟩ := List.mem_map.mp (hplaces ▸ List.mem_map_of_mem hw)
    exact hplace ▸ (h.taken ht).1 v hv
  · rw [hsaw, hshown]
    exact fun he => ⟨(h.ended he).1, hended he⟩

/-- While a worker is not finished, the teardown has not seen the end. -/
theorem sawEnd_eq_false (h : SizeInv sizing p) {n : Nat} {w : Worker J}
    (hw : p.worker? n = some w) (hf : w.finished = false) : p.sawEnd = false := by
  refine Bool.eq_false_iff.mpr fun he => ?_
  rw [(h.ended he).2 w (mem_of_worker?_eq_some hw)] at hf
  cases hf

/-- A worker that is not finished goes on to another stage. -/
theorem setStage (h : SizeInv sizing p) {n : Nat} {w : Worker J} (hw : p.worker? n = some w)
    (hf : w.finished = false) (s : Stage J) : SizeInv sizing (p.setStage n s) := by
  refine h.of_same rfl (map_setStage (fun _ _ => rfl) n s) rfl rfl rfl fun he => ?_
  rw [h.sawEnd_eq_false hw hf] at he
  cases he

/-- A resize that was not admitted yet takes the lock, or gives it up. -/
theorem of_resize (h : SizeInv sizing p) {r : Option Resize}
    (hp : ∀ target, p.resize ≠ some ⟨target, true⟩)
    (htarget : ∀ a, r = some a → sizing.minWorkers ≤ a.target ∧ a.target ≤ sizing.maxWorkers)
    (hr : ∀ target, r ≠ some ⟨target, true⟩) : SizeInv sizing { p with resize := r } :=
  ⟨h.sizing_eq, h.ordered, htarget, h.bounds, fun ht _ => h.shown ht hp,
    fun ht => ⟨(h.taken ht).1, hr⟩, h.ended⟩

theorem locked (h : SizeInv sizing p) (hr : p.resize = none) (target : Nat) :
    SizeInv sizing { p with resize := some ⟨p.sizing.clamp target, false⟩ } := by
  refine h.of_resize (by simp [hr]) (fun a ha => ?_) (by simp)
  obtain rfl := Option.some.inj ha
  rw [h.sizing_eq]
  exact Sizing.clamp_bounds h.ordered target

/-- A resize that was admitted holds the lock, and the workers are not taken over. -/
theorem tookOver_eq_false (h : SizeInv sizing p) {target : Nat}
    (hr : p.resize = some ⟨target, true⟩) : p.tookOver = false :=
  Bool.eq_false_iff.mpr fun ht => (h.taken ht).2 target hr

theorem sawEnd_eq_false_of_admitted (h : SizeInv sizing p) {target : Nat}
    (hr : p.resize = some ⟨target, true⟩) : p.sawEnd = false :=
  Bool.eq_false_iff.mpr fun he =>
    Bool.eq_false_iff.mp (h.tookOver_eq_false hr) (tookOver_of_sawEnd he)

theorem step (h : SizeInv sizing p) (hs : Step p e q) : SizeInv sizing q := by
  cases hs with
  | turnedAway _ | offered _ | enqueued _ _ | refused _ _ | readBacklog | readCount _ _
  | content _ _ => exact h.of_same rfl rfl rfl rfl rfl fun he => (h.ended he).2
  | stopped hw hs _ => exact h.setStage hw (by simp [Worker.finished, hs]) _
  | waited hw hs _ => exact h.setStage hw (by simp [Worker.finished, hs]) _
  | woke hw hs => exact h.setStage hw (by simp [Worker.finished, hs]) _
  | crashed hw hs => exact h.setStage hw (by simp [Worker.finished, hs]) _
  | @took n w job rest hw hs hq =>
    have hset := h.setStage hw (by simp [Worker.finished, hs]) (.busy job)
    exact hset.of_same rfl rfl rfl rfl rfl fun he => (hset.ended he).2
  | finished hw hs =>
    have hset := h.setStage hw (by simp [Worker.finished, hs]) .polling
    exact hset.of_same rfl rfl rfl rfl rfl fun he => (hset.ended he).2
  | locked hr => exact h.locked hr _
  | @rescaled i backlog active target hi ht hr =>
    have hlocked := h.locked hr target
    exact hlocked.of_same rfl rfl rfl rfl rfl fun he => (hlocked.ended he).2
  | gaveUp hr hc => exact h.of_resize (by simp [hr]) nofun nofun
  | @admitted target hr hc =>
    -- The pool is open at this moment, so its workers are not taken over.
    have htook : p.tookOver = false := tookOver_eq_false_of_open hc
    have htarget := h.target _ hr
    refine ⟨h.sizing_eq, h.ordered, fun r hr' => ?_, h.bounds, fun _ hn => ?_, fun ht => ?_,
      h.ended⟩
    · obtain rfl := Option.some.inj hr'
      exact htarget
    · exact absurd rfl (hn target)
    · exact absurd ht (Bool.eq_false_iff.mp htook)
  | @grew target hr hlt =>
    have htook := h.tookOver_eq_false hr
    have hcount : Pool.workerCount
        { p with workers := .fresh p.nextNumber :: p.workers, nextNumber := p.nextNumber + 1 } =
          p.workerCount + 1 := List.countP_cons_of_pos rfl
    obtain ⟨hmin, -⟩ := h.bounds htook
    obtain ⟨-, hmax⟩ := h.target _ hr
    refine ⟨h.sizing_eq, h.ordered, h.target, fun _ => ?_, fun _ hn => absurd hr (hn target),
      fun ht => absurd ht (Bool.eq_false_iff.mp htook),
      fun he => absurd he (Bool.eq_false_iff.mp (h.sawEnd_eq_false_of_admitted hr))⟩
    rw [hcount]
    exact ⟨Nat.le_succ_of_le hmin, Nat.le_trans hlt hmax⟩
  | @shrank target hr hlt =>
    have htook := h.tookOver_eq_false hr
    have hcount : Pool.workerCount { p with workers := retireLatest p.workers } + 1 =
        p.workerCount := countP_runs_retireLatest (Nat.zero_lt_of_lt hlt)
    obtain ⟨-, hmax⟩ := h.bounds htook
    have hmin : sizing.minWorkers ≤ target := (h.target _ hr).1
    refine ⟨h.sizing_eq, h.ordered, h.target, fun _ => ?_, fun _ hn => absurd hr (hn target),
      fun ht => absurd ht (Bool.eq_false_iff.mp htook),
      fun he => absurd he (Bool.eq_false_iff.mp (h.sawEnd_eq_false_of_admitted hr))⟩
    omega
  | @published target hr heq =>
    have htook := h.tookOver_eq_false hr
    have hcount := countP_runs_remembered p.workers
    refine ⟨h.sizing_eq, h.ordered, nofun, fun _ => ?_, fun _ _ => hcount.symm,
      fun ht => absurd ht (Bool.eq_false_iff.mp htook),
      fun he => absurd he (Bool.eq_false_iff.mp (h.sawEnd_eq_false_of_admitted hr))⟩
    rw [workerCount, hcount]
    exact h.bounds htook
  | closed ht =>
    have htook : p.tookOver = false := by simp [tookOver, ht]
    exact ⟨h.sizing_eq, h.ordered, h.target, fun _ => h.bounds htook, fun _ => h.shown htook,
      nofun, nofun⟩
  | cancelled ht =>
    have htook : p.tookOver = false := by simp [tookOver, ht]
    exact ⟨h.sizing_eq, h.ordered, h.target, fun _ => h.bounds htook, fun _ => h.shown htook,
      nofun, nofun⟩
  | collected hr ht =>
    refine ⟨h.sizing_eq, h.ordered, h.target, nofun, nofun, fun _ => ⟨fun w hw => ?_, ?_⟩, nofun⟩
    · obtain ⟨v, -, rfl⟩ := List.mem_map.mp hw
      rfl
    · simp [hr]
  | emptied ht hf =>
    have htook : p.tookOver = true := by simp [tookOver, ht]
    exact ⟨h.sizing_eq, h.ordered, h.target, nofun, nofun, fun _ => h.taken htook,
      fun _ => ⟨rfl, List.all_eq_true.mp hf⟩⟩
  | released ht =>
    have hsaw : p.sawEnd = true := by simp [sawEnd, ht]
    exact ⟨h.sizing_eq, h.ordered, h.target, nofun, nofun,
      fun _ => h.taken (tookOver_of_sawEnd hsaw), fun _ => h.ended hsaw⟩

theorem run {events : List (Event J)} (h : SizeInv sizing p)
    (hrun : p.run? events = some q) : SizeInv sizing q :=
  Machine.run_invariant (f := Pool.step) h (fun _ _ _ hi hs => hi.step (step_of_eq_some hs))
    hrun

theorem workerCount_eq_zero (h : SizeInv sizing p) (ht : p.tookOver = true) :
    p.workerCount = 0 := by
  refine List.countP_eq_zero.mpr fun w hw => ?_
  simp [Worker.runs, (h.taken ht).1 w hw]

end SizeInv

/-! ## Who there is -/

/-- Who there is changes only when a resize that was admitted starts a worker, or forgets some. -/
theorem Step.numbers (h : Step p e q) :
    (q.workers.map Worker.number = p.workers.map Worker.number ∧ q.nextNumber = p.nextNumber) ∨
      (∃ target, p.resize = some ⟨target, true⟩) ∧
        (q.workers = .fresh p.nextNumber :: p.workers ∧ q.nextNumber = p.nextNumber + 1 ∨
          q.workers = remembered p.workers ∧ q.nextNumber = p.nextNumber) := by
  cases h with
  | stopped _ _ _ | waited _ _ _ | woke _ _ | took _ _ _ | finished _ _ | crashed _ _ =>
    exact .inl ⟨map_setStage (fun _ _ => rfl) _ _, rfl⟩
  | grew hr _ => exact .inr ⟨⟨_, hr⟩, .inl ⟨rfl, rfl⟩⟩
  | shrank _ _ => exact .inl ⟨map_retireLatest (fun _ _ => rfl) _, rfl⟩
  | published hr _ => exact .inr ⟨⟨_, hr⟩, .inr ⟨rfl, rfl⟩⟩
  | collected _ _ => exact .inl ⟨List.map_map, rfl⟩
  | _ => exact .inl ⟨rfl, rfl⟩

/-- Workers have numbers of their own, below the next number. -/
structure Numbered (p : Pool J) : Prop where
  nodup : (p.workers.map Worker.number).Nodup
  lt_next : ∀ n ∈ p.workers.map Worker.number, n < p.nextNumber

namespace Numbered

theorem start (sizing : Sizing) : Numbered (start sizing : Pool J) := by
  have hmap : (Pool.start sizing : Pool J).workers.map Worker.number =
      (List.range sizing.minWorkers).reverse := by
    rw [Pool.start, List.map_map]
    exact List.map_id _
  refine ⟨?_, fun n hn => ?_⟩
  · rw [hmap]
    exact List.nodup_reverse.mpr List.nodup_range
  · rw [hmap, List.mem_reverse] at hn
    exact List.mem_range.mp hn

theorem step (h : Numbered p) (hs : Step p e q) : Numbered q := by
  rcases hs.numbers with ⟨hnumbers, hnext⟩ | ⟨-, ⟨hworkers, hnext⟩ | ⟨hworkers, hnext⟩⟩
  · refine ⟨?_, ?_⟩ <;> rw [hnumbers]
    · exact h.nodup
    · rw [hnext]
      exact h.lt_next
  · refine ⟨?_, ?_⟩ <;> rw [hworkers, List.map_cons]
    · exact List.nodup_cons.mpr ⟨fun hmem => Nat.lt_irrefl _ (h.lt_next _ hmem), h.nodup⟩
    · rw [hnext]
      exact List.forall_mem_cons.mpr
        ⟨Nat.lt_succ_self _, fun n hn => Nat.lt_succ_of_lt (h.lt_next n hn)⟩
  · have hsub : ((remembered p.workers).map Worker.number).Sublist (p.workers.map Worker.number) :=
      List.filter_sublist.map _
    refine ⟨?_, ?_⟩ <;> rw [hworkers]
    · exact h.nodup.sublist hsub
    · rw [hnext]
      exact fun n hn => h.lt_next n (hsub.subset hn)

theorem run {events : List (Event J)} (h : Numbered p) (hrun : p.run? events = some q) :
    Numbered q :=
  Machine.run_invariant (f := Pool.step) h (fun _ _ _ hi hs => hi.step (step_of_eq_some hs))
    hrun

end Numbered

theorem Step.tookOver (hs : Step p e q) (ht : p.tookOver = true) : q.tookOver = true := by
  cases hs with
  | closed h | cancelled h => simp [Pool.tookOver, h] at ht
  | collected _ _ | emptied _ _ | released _ => rfl
  | _ => exact ht

theorem Step.sawEnd (hs : Step p e q) (hp : p.sawEnd = true) : q.sawEnd = true := by
  cases hs with
  | closed h | cancelled h | collected _ h => simp [Pool.sawEnd, h] at hp
  | emptied _ _ | released _ => rfl
  | _ => exact hp

/-- Once the workers are taken over, none is started and none is forgotten. -/
theorem run_tookOver {events : List (Event J)} (h : SizeInv sizing p) (ht : p.tookOver = true)
    (hrun : p.run? events = some q) :
    q.tookOver = true ∧ q.workers.map Worker.number = p.workers.map Worker.number ∧
      q.nextNumber = p.nextNumber := by
  refine (Machine.run_invariant (f := Pool.step)
    (P := fun t => SizeInv sizing t ∧ t.tookOver = true ∧
      t.workers.map Worker.number = p.workers.map Worker.number ∧ t.nextNumber = p.nextNumber)
    ⟨h, ht, rfl, rfl⟩ ?_ hrun).2
  rintro t e u ⟨hinv, htook, hnumbers, hnext⟩ hstep
  have hs := step_of_eq_some hstep
  refine ⟨hinv.step hs, hs.tookOver htook, ?_⟩
  rcases hs.numbers with ⟨hsame, hnext'⟩ | ⟨⟨target, hr⟩, -⟩
  · exact ⟨hsame.trans hnumbers, hnext'.trans hnext⟩
  · exact absurd hr ((hinv.taken htook).2 target)

/-- The worker of a number has ended by some point of a run. -/
def HasEnded (sizing : Sizing) (events : List (Event J)) (number : Nat) : Prop :=
  ∃ before q, before <+: events ∧ (start sizing).run? before = some q ∧
    ∃ w ∈ q.workers, w.number = number ∧ w.finished = true

theorem HasEnded.append {events : List (Event J)} {number : Nat}
    (h : HasEnded sizing events number) (more : List (Event J)) :
    HasEnded sizing (events ++ more) number := by
  obtain ⟨before, q, hpre, hend⟩ := h
  exact ⟨before, q, hpre.trans (List.prefix_append _ _), hend⟩

/-- A worker that was started is there, or had ended when it was forgotten. -/
theorem present_or_ended {events : List (Event J)} (h : (start sizing).run? events = some p) :
    ∀ n < p.nextNumber, n ∈ p.workers.map Worker.number ∨ HasEnded sizing events n := by
  refine Machine.run_induction (f := step)
    (motive := fun es p => ∀ n < p.nextNumber,
      n ∈ p.workers.map Worker.number ∨ HasEnded sizing es n) (fun n hn => .inl ?_) ?_ h
  · have hlt : n < sizing.minWorkers := hn
    simpa [start, Function.comp_def, Worker.fresh] using hlt
  intro es e t u hrun ih hstep n hn
  rcases (step_of_eq_some hstep).numbers with
    ⟨hnumbers, hnext⟩ | ⟨-, ⟨hworkers, hnext⟩ | ⟨hworkers, hnext⟩⟩
  · rw [hnumbers]
    rw [hnext] at hn
    exact (ih n hn).imp_right (·.append [e])
  · rw [hworkers, List.map_cons]
    rw [hnext] at hn
    rcases Nat.lt_succ_iff_lt_or_eq.mp hn with hlt | rfl
    · exact (ih n hlt).imp (List.mem_cons_of_mem _) (·.append [e])
    · exact .inl List.mem_cons_self
  · rw [hnext] at hn
    rcases ih n hn with hmem | hend
    · obtain ⟨w, hw, rfl⟩ := List.mem_map.mp hmem
      -- Only workers that have ended are forgotten.
      by_cases hf : w.finished = true
      · exact .inr ⟨es, t, List.prefix_append _ _, hrun, w, hw, rfl, hf⟩
      · refine .inl (hworkers ▸ List.mem_map_of_mem (List.mem_filter.mpr ⟨hw, ?_⟩))
        simp [hf]
    · exact .inr (hend.append [e])

/-- When the teardown has seen the workers end, so have all that were ever started. -/
theorem all_ended (hinv : SizeInv sizing p) {events : List (Event J)}
    (h : (start sizing).run? events = some p) (hp : p.sawEnd = true) :
    ∀ n < p.nextNumber, HasEnded sizing events n := by
  intro n hn
  rcases present_or_ended h n hn with hmem | hended
  · obtain ⟨w, hw, hnumber⟩ := List.mem_map.mp hmem
    exact ⟨events, p, List.prefix_rfl, h, w, hw, hnumber, (hinv.ended hp).2 w hw⟩
  · exact hended

/-- **The number of workers is bounded.** From the start until the teardown takes the workers over,
their number lies between the bounds, and it is the one shown whenever no resize is in between. What
the teardown takes over is all that there ever is after it: no worker counts, none is started, and
all are awaited. When it has waited, every worker that was ever started has ended, and nothing but
zero is shown. -/
theorem size_bounded (hs : sizing.fault? = none) {events : List (Event J)}
    (h : (start sizing).run? events = some p) :
    (.collect ∉ events →
      sizing.minWorkers ≤ p.workerCount ∧ p.workerCount ≤ sizing.maxWorkers ∧
        ((∀ target, p.resize ≠ some ⟨target, true⟩) → p.shown = p.workerCount)) ∧
    (∀ before, events = before ++ [.publish] → p.shown = p.workerCount) ∧
    (∀ before after, events = before ++ .collect :: after →
      p.workerCount = 0 ∧ (∀ w ∈ p.workers, w.place = .awaited) ∧
        ∃ q, (start sizing).run? before = some q ∧ p.nextNumber = q.nextNumber ∧
          p.workers.map Worker.number = q.workers.map Worker.number) ∧
    (.awaitWorkers ∈ events →
      p.shown = 0 ∧ (∀ w ∈ p.workers, w.finished = true) ∧
        ∀ n < p.nextNumber, HasEnded sizing events n) := by
  have hstart : SizeInv sizing (start sizing : Pool J) := .start hs
  have hinv : SizeInv sizing p := hstart.run h
  refine ⟨fun hcollect => ?_, fun before hsplit => ?_, fun before after hsplit => ?_,
    fun hawait => ?_⟩
  · have htook : p.tookOver = false :=
      Bool.eq_false_iff.mpr fun ht => hcollect ((collect_mem_iff h).mpr ht)
    obtain ⟨hmin, hmax⟩ := hinv.bounds htook
    exact ⟨hmin, hmax, hinv.shown htook⟩
  · subst hsplit
    obtain ⟨q, hq, hstep⟩ := Machine.run_concat_iff.mp h
    cases step_of_eq_some hstep with
    | published hr _ => exact hinv.shown ((hstart.run hq).tookOver_eq_false hr) nofun
  · subst hsplit
    have htook : p.tookOver = true :=
      (collect_mem_iff h).mp (List.mem_append_right _ List.mem_cons_self)
    obtain ⟨q, hq, hrest⟩ := Machine.run_append_iff.mp h
    obtain ⟨r, hstep, hrest⟩ := Machine.run_cons_iff.mp hrest
    have hcollected := step_of_eq_some hstep
    obtain ⟨hr, hnumbers, hnext⟩ : r.tookOver = true ∧
        r.workers.map Worker.number = q.workers.map Worker.number ∧
        r.nextNumber = q.nextNumber := by
      cases hcollected with
      | collected _ _ => exact ⟨rfl, List.map_map, rfl⟩
    obtain ⟨-, hnumbers', hnext'⟩ := run_tookOver ((hstart.run hq).step hcollected) hr hrest
    exact ⟨hinv.workerCount_eq_zero htook, (hinv.taken htook).1, q, hq, hnext'.trans hnext,
      hnumbers'.trans hnumbers⟩
  · have hsaw : p.sawEnd = true := (awaitWorkers_mem_iff h).mp hawait
    obtain ⟨hshown, hfinished⟩ := hinv.ended hsaw
    exact ⟨hshown, hfinished, all_ended hinv h hsaw⟩

namespace Sample

def smallSizing : Sizing := ⟨1, 2, 2, 1⟩

/-- A resize finds the pool open just before it is closed, and starts its worker after that. The
first worker is busy all the while. -/
def race : List (Event Nat) :=
  [.submit 7, .enqueue 0, .poll 0, .take 0, .beginResize 9, .confirm, .close, .cancel, .adjust,
    .publish, .collect, .poll 1, .finish 0 true, .poll 0, .awaitWorkers, .release]

end Sample

/-- A worker that was started behind the back of the teardown is awaited all the same. -/
theorem size_bounded_race :
    ∃ p, (start Sample.smallSizing).run? Sample.race = some p ∧ p.nextNumber = 2 ∧
      p.workerCount = 0 ∧ p.shown = 0 ∧ ∀ n < 2, HasEnded Sample.smallSizing Sample.race n := by
  obtain ⟨p, hp, hnext⟩ : ∃ p, (start Sample.smallSizing).run? Sample.race = some p ∧
      p.nextNumber = 2 := ⟨_, rfl, rfl⟩
  obtain ⟨-, -, hcollect, hawait⟩ := size_bounded (by decide) hp
  obtain ⟨hzero, -⟩ := hcollect (Sample.race.take 10) (Sample.race.drop 11) rfl
  obtain ⟨hshown, -, hended⟩ := hawait (by decide)
  exact ⟨p, hp, hnext, hzero, hshown, hnext ▸ hended⟩

end Pool

end SealedGateway
