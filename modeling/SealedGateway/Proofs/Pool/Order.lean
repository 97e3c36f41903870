import SealedGateway.Proofs.Pool.Jobs

/-!
# A pool of one worker

Where the bounds leave one worker, there is never another: no resize has anything to do, and nobody
is retired. So the jobs that were handled are those that were taken, in the same order, up to the
one in hand (**`Alone`**).
-/

namespace SealedGateway.Pool

variable {J : Type} {sizing : Sizing} {p q : Pool J} {e : Event J} {n : Nat} {w : Worker J}

/-- There is one worker at most, and it handles jobs in the order in which it took them. -/
structure Alone (p : Pool J) : Prop where
  few : p.workers.length ≤ 1
  started : p.started = p.handled.map Prod.fst ++ p.inFlight

namespace Alone

theorem start (hs : sizing.fault? = none) (hone : sizing.maxWorkers = 1) :
    Alone (start sizing : Pool J) := by
  obtain ⟨-, hordered, -, -⟩ := Sizing.fault?_eq_none_iff.mp hs
  refine ⟨?_, ?_⟩
  · simp only [Pool.start, List.length_map, List.length_reverse, List.length_range]
    omega
  · have hperm := (JobInv.start sizing : JobInv (Pool.start sizing : Pool J)).started
    exact (List.nil_perm.mp (hperm.trans List.perm_append_comm)).symm

/-- The worker of a number is the only one. -/
theorem workers_eq (h : Alone p) (hw : p.worker? n = some w) : p.workers = [w] := by
  have hmem := mem_of_worker?_eq_some hw
  cases hworkers : p.workers with
  | nil =>
    rw [hworkers] at hmem
    cases hmem
  | cons v rest =>
    have hfew := h.few
    rw [hworkers, List.length_cons] at hfew
    rw [List.eq_nil_of_length_eq_zero (by omega : rest.length = 0)] at hworkers ⊢
    rw [hworkers] at hmem
    rw [List.mem_singleton.mp hmem]

/-- What is in hand is what the only worker has in hand. -/
theorem inFlight_eq (h : Alone p) (hw : p.worker? n = some w) :
    p.inFlight = w.stage.job?.toList ∧
      ∀ s : Stage J, (p.setStage n s).inFlight = s.job?.toList := by
  have hworkers := h.workers_eq hw
  have hnumber := number_of_worker?_eq_some hw
  refine ⟨?_, fun s => ?_⟩
  · rw [inFlight, hworkers]
    cases hs : w.stage.job? <;> simp [hs]
  · simp only [inFlight, setStage, hworkers, List.map_cons, List.map_nil, hnumber, ↓reduceIte]
    cases hs : s.job? <;> simp [hs]

/-- What is no business of the jobs leaves their order as it is. -/
theorem of_same (h : Alone p) (hworkers : q.workers.length ≤ p.workers.length)
    (hstarted : q.started = p.started) (hhandled : q.handled = p.handled)
    (hflight : q.inFlight = p.inFlight) : Alone q := by
  refine ⟨Nat.le_trans hworkers h.few, ?_⟩
  rw [hstarted, hhandled, hflight]
  exact h.started

/-- The worker goes on, and has no job in hand before or after. -/
theorem setStage_idle (h : Alone p) (hw : p.worker? n = some w) {s : Stage J}
    (hbefore : w.stage.job? = none) (hafter : s.job? = none) : Alone (p.setStage n s) := by
  obtain ⟨hflight, hnext⟩ := h.inFlight_eq hw
  refine h.of_same (Nat.le_of_eq (by simp [setStage])) rfl rfl ?_
  rw [hflight, hnext, hbefore, hafter]

theorem length_retireLatest (ws : List (Worker J)) : (retireLatest ws).length = ws.length := by
  rw [← List.length_map Worker.number, map_retireLatest fun _ _ => rfl, List.length_map]

theorem step (h : Alone p) (hsize : SizeInv sizing p) (hmin : 1 ≤ sizing.minWorkers)
    (hone : sizing.maxWorkers = 1) (hs : Step p e q) (hcalm : ∀ m, e ≠ .crash m) : Alone q := by
  cases hs with
  | stopped hw hs _ | waited hw hs _ | woke hw hs =>
    exact h.setStage_idle hw (by rw [hs]; rfl) rfl
  | @took m w job rest hw hs hq =>
    obtain ⟨hflight, hnext⟩ := h.inFlight_eq hw
    refine ⟨Nat.le_trans (Nat.le_of_eq (by simp [setStage])) h.few, ?_⟩
    change p.started ++ [job] = p.handled.map Prod.fst ++ (p.setStage m (.busy job)).inFlight
    rw [h.started, hflight, hs, hnext]
    simp [Stage.job?]
  | @finished m w job ok hw hs =>
    obtain ⟨hflight, hnext⟩ := h.inFlight_eq hw
    refine ⟨Nat.le_trans (Nat.le_of_eq (by simp [setStage])) h.few, ?_⟩
    change p.started =
      (p.handled ++ [(job, ok)]).map Prod.fst ++ (p.setStage m .polling).inFlight
    rw [h.started, hflight, hs, hnext]
    simp [Stage.job?]
  | crashed hw hs => exact absurd rfl (hcalm _)
  | @grew target hr hlt =>
    -- The pool has its one worker already.
    obtain ⟨hcount, -⟩ := hsize.bounds (hsize.tookOver_eq_false hr)
    have htarget : target ≤ sizing.maxWorkers := (hsize.target _ hr).2
    omega
  | shrank hr hlt =>
    exact h.of_same (Nat.le_of_eq (length_retireLatest p.workers)) rfl rfl
      (inFlight_congr (map_retireLatest (fun _ _ => rfl) p.workers))
  | published hr heq =>
    exact h.of_same (List.length_filter_le _ _) rfl rfl (filterMap_job?_remembered p.workers)
  | collected hr ht =>
    exact h.of_same (Nat.le_of_eq (List.length_map _)) rfl rfl (inFlight_congr List.map_map)
  | _ => exact h.of_same (Nat.le_refl _) rfl rfl rfl

theorem run (hs : sizing.fault? = none) (hone : sizing.maxWorkers = 1) {events : List (Event J)}
    (hcalm : ∀ n, .crash n ∉ events) (h : (Pool.start sizing).run? events = some p) : Alone p := by
  obtain ⟨hmin, -, -, -⟩ := Sizing.fault?_eq_none_iff.mp hs
  refine Machine.run_induction (f := Pool.step)
    (motive := fun es p => (∀ n, .crash n ∉ es) → Alone p) (fun _ => start hs hone) ?_ h hcalm
  intro es e t u hes ih hstep hcalm
  simp only [List.mem_append, List.mem_singleton, not_or] at hcalm
  exact (ih fun n => (hcalm n).1).step ((SizeInv.start hs).run hes) hmin hone
    (step_of_eq_some hstep) fun n heq => (hcalm n).2 heq.symm

end Alone

end SealedGateway.Pool
