import SealedGateway.Proofs.Pool.Size

/-!
# Where a job is

A job whose submission succeeded is in the queue, in the hands of a worker, or handled, and in one
of these places only. Workers take jobs in the order of the queue, finish what they took, and have
all exited when the handler is released. Jobs do not break down here: no event of a run is a crash.

- **`inFlight`**: the jobs in the hands of workers; `inFlight_setStage` is what one worker does to
  them.
- **`JobInv`** is the invariant of a run, `JobInv.step` its step.
- **`Step.busy`**: a worker with a job does nothing but finish it.
- **`jobs_conserved`** has all of it for a run.
-/

namespace SealedGateway

/-- The job that a worker has in hand. -/
def Stage.job? {J : Type} : Stage J → Option J
  | .busy job => some job
  | .polling | .waiting | .exited | .crashed => none

namespace Pool

variable {J : Type} {sizing : Sizing} {p q : Pool J} {e : Event J} {n : Nat} {w : Worker J}

/-- Jobs in the hands of workers. -/
def inFlight (p : Pool J) : List J := p.workers.filterMap fun w => w.stage.job?

/-- The job that an event submits. -/
def Event.job? : Event J → Option J
  | .submit job => some job
  | _ => none

/-- Whether an event is the end of a job without success. -/
def Event.isFailure : Event J → Bool
  | .finish _ false => true
  | _ => false

/-! ## Workers and their jobs -/

theorem inFlight_congr (h : q.workers.map Worker.stage = p.workers.map Worker.stage) :
    q.inFlight = p.inFlight := by
  have hstages (r : Pool J) : r.inFlight = (r.workers.map Worker.stage).filterMap Stage.job? := by
    rw [List.filterMap_map]
    rfl
  rw [hstages, hstages, h]

/-- Who has ended has no job in hand, so nothing is lost when workers are forgotten. -/
theorem filterMap_job?_remembered (ws : List (Worker J)) :
    (remembered ws).filterMap (fun w => w.stage.job?) = ws.filterMap fun w => w.stage.job? := by
  rw [remembered, List.filterMap_filter]
  refine List.filterMap_congr fun w _ => ?_
  cases hstage : w.stage <;> simp [Worker.finished, Stage.job?, hstage]

/-- What a worker has in hand before and after it goes on. -/
theorem inFlight_setStage (hn : Numbered p) (hw : p.worker? n = some w) (s : Stage J) :
    (w.stage.job?.toList ++ (p.setStage n s).inFlight).Perm (s.job?.toList ++ p.inFlight) := by
  obtain ⟨before, after, hsplit, hset⟩ := setStage_split hn.nodup hw
  have hparts (v : Worker J) : (before ++ v :: after).filterMap (fun w => w.stage.job?) =
      before.filterMap (fun w => w.stage.job?) ++
        (v.stage.job?.toList ++ after.filterMap fun w => w.stage.job?) := by
    rw [List.filterMap_append, List.filterMap_cons]
    cases v.stage.job? <;> rfl
  rw [inFlight, inFlight, hset s, hsplit, hparts, hparts]
  generalize before.filterMap _ = left
  generalize after.filterMap _ = right
  calc
    List.Perm (w.stage.job?.toList ++ (left ++ (s.job?.toList ++ right)))
        (w.stage.job?.toList ++ (s.job?.toList ++ (left ++ right))) :=
      (List.perm_append_comm_assoc _ _ _).append_left _
    List.Perm _ (s.job?.toList ++ (w.stage.job?.toList ++ (left ++ right))) :=
      List.perm_append_comm_assoc _ _ _
    List.Perm _ (s.job?.toList ++ (left ++ (w.stage.job?.toList ++ right))) :=
      (List.perm_append_comm_assoc _ _ _).append_left _

/-- A worker without a job that goes on without one changes nothing. -/
theorem inFlight_setStage_idle (hn : Numbered p) (hw : p.worker? n = some w) {s : Stage J}
    (hbefore : w.stage.job? = none) (hafter : s.job? = none) :
    (p.setStage n s).inFlight.Perm p.inFlight := by
  have h := inFlight_setStage hn hw s
  rwa [hbefore, hafter] at h

/-- With numbers that differ, what the worker of a number does can be read off all of them. -/
theorem stage?_eq_some_iff_mem (hn : Numbered p) {s : Stage J} :
    p.stage? n = some s ↔ (n, s) ∈ p.workers.map fun w => (w.number, w.stage) := by
  rw [stage?_eq_some_iff, List.mem_map]
  constructor
  · rintro ⟨w, hw, rfl⟩
    exact ⟨w, mem_of_worker?_eq_some hw, by rw [number_of_worker?_eq_some hw]⟩
  · rintro ⟨w, hw, heq⟩
    obtain ⟨rfl, rfl⟩ := Prod.mk.inj heq
    cases hfind : p.worker? w.number with
    | none =>
      have hne := List.find?_eq_none.mp hfind w hw
      exact absurd (beq_self_eq_true w.number) hne
    | some v =>
      have hnumber : v.number = w.number := number_of_worker?_eq_some hfind
      have hsame := List.inj_on_of_nodup_map hn.nodup (mem_of_worker?_eq_some hfind) hw hnumber
      exact ⟨v, rfl, hsame ▸ rfl⟩

/-! ## The invariant -/

/-- Every job is where it belongs. -/
structure JobInv (p : Pool J) : Prop where
  accepted : p.accepted = p.started ++ p.queue
  started : p.started.Perm (p.inFlight ++ p.handled.map Prod.fst)
  length_queue : p.queue.length ≤ p.sizing.queueSize
  calm : ∀ w ∈ p.workers, w.stage ≠ .crashed

namespace JobInv

theorem start (sizing : Sizing) : JobInv (start sizing : Pool J) := by
  have hstage : ∀ w ∈ (Pool.start sizing : Pool J).workers, w.stage = .polling := by
    intro w hw
    obtain ⟨n, -, rfl⟩ := List.mem_map.mp hw
    rfl
  have hflight : (Pool.start sizing : Pool J).inFlight = [] := by
    refine List.filterMap_eq_nil_iff.mpr fun w hw => ?_
    rw [hstage w hw]
    rfl
  refine ⟨rfl, ?_, Nat.zero_le _, fun w hw => ?_⟩
  · rw [hflight]
    exact List.Perm.nil
  · rw [hstage w hw]
    exact nofun

/-- What is no business of the jobs leaves them where they are. -/
theorem of_same (h : JobInv p) (hsizing : q.sizing = p.sizing) (haccepted : q.accepted = p.accepted)
    (hstarted : q.started = p.started) (hqueue : q.queue = p.queue)
    (hhandled : q.handled = p.handled) (hflight : q.inFlight.Perm p.inFlight)
    (hcalm : ∀ w ∈ q.workers, w.stage ≠ .crashed) : JobInv q := by
  refine ⟨?_, ?_, ?_, hcalm⟩
  · rw [haccepted, hstarted, hqueue]
    exact h.accepted
  · rw [hstarted, hhandled]
    exact h.started.trans (hflight.symm.append_right _)
  · rw [hqueue, hsizing]
    exact h.length_queue

/-- Workers that do what they did before have the jobs that they had. -/
theorem of_stages (h : JobInv p) (hsizing : q.sizing = p.sizing)
    (haccepted : q.accepted = p.accepted) (hstarted : q.started = p.started)
    (hqueue : q.queue = p.queue) (hhandled : q.handled = p.handled)
    (hstages : q.workers.map Worker.stage = p.workers.map Worker.stage) : JobInv q := by
  refine h.of_same hsizing haccepted hstarted hqueue hhandled
    (inFlight_congr hstages ▸ List.Perm.refl _) fun w hw => ?_
  obtain ⟨v, hv, hstage⟩ := List.mem_map.mp (hstages ▸ List.mem_map_of_mem hw)
  exact hstage ▸ h.calm v hv

theorem calm_setStage (h : JobInv p) {s : Stage J} (hs : s ≠ .crashed) :
    ∀ w ∈ (p.setStage n s).workers, w.stage ≠ .crashed := by
  intro w hw
  obtain ⟨v, hv, rfl⟩ := List.mem_map.mp hw
  split
  · exact hs
  · exact h.calm v hv

/-- A worker without a job goes on without one. -/
theorem setStage_idle (h : JobInv p) (hn : Numbered p) (hw : p.worker? n = some w) {s : Stage J}
    (hbefore : w.stage.job? = none) (hafter : s.job? = none) (hs : s ≠ .crashed) :
    JobInv (p.setStage n s) :=
  h.of_same rfl rfl rfl rfl rfl (inFlight_setStage_idle hn hw hbefore hafter) (h.calm_setStage hs)

/-- A worker takes the oldest job of the queue. -/
theorem took (h : JobInv p) (hn : Numbered p) {job : J} {rest : List J}
    (hw : p.worker? n = some w) (hs : w.stage = .waiting) (hq : p.queue = job :: rest) :
    JobInv { p.setStage n (.busy job) with queue := rest, started := p.started ++ [job] } := by
  have hflight : (p.setStage n (.busy job)).inFlight.Perm (job :: p.inFlight) := by
    have hmove := inFlight_setStage hn hw (.busy job)
    rwa [hs] at hmove
  refine ⟨?_, ?_, ?_, h.calm_setStage nofun⟩
  · change p.accepted = p.started ++ [job] ++ rest
    rw [h.accepted, hq, List.append_assoc, List.singleton_append]
  · change (p.started ++ [job]).Perm
      ((p.setStage n (.busy job)).inFlight ++ p.handled.map Prod.fst)
    calc
      List.Perm (p.started ++ [job]) (job :: p.started) := List.perm_append_singleton _ _
      List.Perm _ (job :: (p.inFlight ++ p.handled.map Prod.fst)) := h.started.cons _
      List.Perm _ ((p.setStage n (.busy job)).inFlight ++ p.handled.map Prod.fst) :=
        hflight.symm.append_right _
  · have hlength := h.length_queue
    rw [hq] at hlength
    exact Nat.le_of_succ_le hlength

/-- A worker is done with its job. -/
theorem finished (h : JobInv p) (hn : Numbered p) {job : J} {ok : Bool}
    (hw : p.worker? n = some w) (hs : w.stage = .busy job) :
    JobInv { p.setStage n .polling with handled := p.handled ++ [(job, ok)] } := by
  have hflight : (job :: (p.setStage n .polling).inFlight).Perm p.inFlight := by
    have hmove := inFlight_setStage hn hw .polling
    rwa [hs] at hmove
  refine ⟨h.accepted, ?_, h.length_queue, h.calm_setStage nofun⟩
  change p.started.Perm
    ((p.setStage n .polling).inFlight ++ (p.handled ++ [(job, ok)]).map Prod.fst)
  rw [List.map_append]
  calc
    List.Perm p.started (p.inFlight ++ p.handled.map Prod.fst) := h.started
    List.Perm _ (job :: (p.setStage n .polling).inFlight ++ p.handled.map Prod.fst) :=
      hflight.symm.append_right _
    List.Perm _ ((p.setStage n .polling).inFlight ++ p.handled.map Prod.fst ++ [job]) :=
      (List.perm_append_singleton _ _).symm
    List.Perm _ ((p.setStage n .polling).inFlight ++ (p.handled.map Prod.fst ++ [job])) :=
      .of_eq (List.append_assoc _ _ _)

theorem step (h : JobInv p) (hn : Numbered p) (hs : Step p e q) (hcalm : ∀ n, e ≠ .crash n) :
    JobInv q := by
  cases hs with
  | @enqueued i job ho hq =>
    refine ⟨?_, h.started, ?_, h.calm⟩
    · change p.accepted ++ [job] = p.started ++ (p.queue ++ [job])
      rw [h.accepted, List.append_assoc]
    · change (p.queue ++ [job]).length ≤ p.sizing.queueSize
      rw [List.length_append]
      exact hq
  | stopped hw hs _ => exact h.setStage_idle hn hw (by rw [hs]; rfl) rfl nofun
  | waited hw hs _ => exact h.setStage_idle hn hw (by rw [hs]; rfl) rfl nofun
  | woke hw hs => exact h.setStage_idle hn hw (by rw [hs]; rfl) rfl nofun
  | took hw hs hq => exact h.took hn hw hs hq
  | finished hw hs => exact h.finished hn hw hs
  | @crashed n w job hw hs => exact absurd rfl (hcalm n)
  | grew hr hlt =>
    refine h.of_same rfl rfl rfl rfl rfl (.refl _) fun w hw => ?_
    rcases List.mem_cons.mp hw with rfl | hw
    · exact nofun
    · exact h.calm w hw
  | shrank hr hlt =>
    exact h.of_stages rfl rfl rfl rfl rfl (map_retireLatest (fun _ _ => rfl) p.workers)
  | published hr heq =>
    refine h.of_same rfl rfl rfl rfl rfl (.of_eq (filterMap_job?_remembered p.workers))
      fun w hw => ?_
    exact h.calm w (List.mem_filter.mp hw).1
  | collected hr ht => exact h.of_stages rfl rfl rfl rfl rfl List.map_map
  | _ => exact h.of_stages rfl rfl rfl rfl rfl rfl

theorem run {events : List (Event J)} (hcalm : ∀ n, .crash n ∉ events)
    (hrun : (Pool.start sizing).run? events = some p) : JobInv p := by
  refine Machine.run_induction (f := Pool.step)
    (motive := fun es p => (∀ n, .crash n ∉ es) → JobInv p) (fun _ => .start sizing) ?_ hrun hcalm
  intro es e t u hes ih hstep hcalm
  simp only [List.mem_append, List.mem_singleton, not_or] at hcalm
  exact (ih fun n => (hcalm n).1).step ((Numbered.start sizing).run hes) (step_of_eq_some hstep)
    fun n heq => (hcalm n).2 heq.symm

end JobInv

/-! ## Histories -/

/-- Every job that was submitted is accepted, refused, or still on offer. -/
theorem submitted_perm {events : List (Event J)} (h : (start sizing).run? events = some p) :
    (events.filterMap Event.job?).Perm (p.accepted ++ (p.refused ++ p.offers)) := by
  refine Machine.run_induction (f := step)
    (motive := fun es p => (es.filterMap Event.job?).Perm (p.accepted ++ (p.refused ++ p.offers)))
    (.refl _) ?_ h
  intro es e t u _ ih hstep
  rw [List.filterMap_append]
  cases step_of_eq_some hstep with
  | @turnedAway job hc =>
    change (es.filterMap Event.job? ++ [job]).Perm (t.accepted ++ (t.refused ++ [job] ++ t.offers))
    calc
      List.Perm (es.filterMap Event.job? ++ [job])
          (t.accepted ++ (t.refused ++ t.offers) ++ [job]) := ih.append_right _
      List.Perm _ (t.accepted ++ (t.refused ++ (t.offers ++ [job]))) :=
        .of_eq (by simp only [List.append_assoc])
      List.Perm _ (t.accepted ++ (t.refused ++ ([job] ++ t.offers))) :=
        (List.perm_append_comm.append_left _).append_left _
      List.Perm _ (t.accepted ++ (t.refused ++ [job] ++ t.offers)) :=
        .of_eq (by simp only [List.append_assoc])
  | @offered job hc =>
    change (es.filterMap Event.job? ++ [job]).Perm
      (t.accepted ++ (t.refused ++ (t.offers ++ [job])))
    rw [← List.append_assoc t.refused, ← List.append_assoc]
    exact ih.append_right _
  | @enqueued i job ho hq =>
    change (es.filterMap Event.job? ++ []).Perm
      (t.accepted ++ [job] ++ (t.refused ++ t.offers.eraseIdx i))
    rw [List.append_nil, List.append_assoc]
    calc
      List.Perm (es.filterMap Event.job?) (t.accepted ++ (t.refused ++ t.offers)) := ih
      List.Perm _ (t.accepted ++ (t.refused ++ ([job] ++ t.offers.eraseIdx i))) :=
        ((offers_perm ho).append_left _).append_left _
      List.Perm _ (t.accepted ++ ([job] ++ (t.refused ++ t.offers.eraseIdx i))) :=
        (List.perm_append_comm_assoc _ _ _).append_left _
  | @refused i job ho hc =>
    change (es.filterMap Event.job? ++ []).Perm
      (t.accepted ++ (t.refused ++ [job] ++ t.offers.eraseIdx i))
    rw [List.append_nil, List.append_assoc]
    exact ih.trans (((offers_perm ho).append_left _).append_left _)
  | _ =>
    rw [List.filterMap_cons_none rfl, List.filterMap_nil, List.append_nil]
    exact ih

/-- Every job that was handled without success is counted. -/
theorem failures_eq_countP {events : List (Event J)} (h : (start sizing).run? events = some p) :
    p.failures = events.countP Event.isFailure := by
  refine Machine.run_induction (f := step)
    (motive := fun es p => p.failures = es.countP Event.isFailure) rfl ?_ h
  intro es e t u _ ih hstep
  rw [List.countP_append, ← ih]
  cases step_of_eq_some hstep with
  | @finished n w job ok hw hs =>
    cases ok <;> exact List.countP_append
  | _ => rfl

/-- A worker with a job does nothing but finish it. -/
theorem Step.busy (hs : Step p e q) (hn : Numbered p) (hcalm : ∀ m, e ≠ .crash m) {job : J}
    (hb : p.stage? n = some (.busy job)) :
    q.stage? n = some (.busy job) ∨ ∃ ok, e = .finish n ok := by
  have hnq : Numbered q := hn.step hs
  have hmem := (stage?_eq_some_iff_mem hn).mp hb
  have hother {m : Nat} {w : Worker J} {s : Stage J} (hw : p.worker? m = some w)
      (hidle : w.stage.job? = none) : (p.setStage m s).stage? n = some (.busy job) := by
    have hne : n ≠ m := by
      rintro rfl
      obtain ⟨v, hv, hstage⟩ := stage?_eq_some_iff.mp hb
      obtain rfl : v = w := Option.some.inj (hv.symm.trans hw)
      rw [hstage] at hidle
      cases hidle
    rw [stage?_setStage_ne hne, hb]
  cases hs with
  | stopped hw hs _ => exact .inl (hother hw (by rw [hs]; rfl))
  | waited hw hs _ => exact .inl (hother hw (by rw [hs]; rfl))
  | woke hw hs => exact .inl (hother hw (by rw [hs]; rfl))
  | took hw hs _ => exact .inl (hother hw (by rw [hs]; rfl))
  | @finished m w job' ok hw hs =>
    by_cases heq : n = m
    · exact .inr ⟨ok, heq ▸ rfl⟩
    · exact .inl ((stage?_setStage_ne heq).trans hb)
  | @crashed m w job' hw hs => exact absurd rfl (hcalm m)
  | grew hr hlt => exact .inl ((stage?_eq_some_iff_mem hnq).mpr (List.mem_cons_of_mem _ hmem))
  | shrank hr hlt =>
    refine .inl ((stage?_eq_some_iff_mem hnq).mpr ?_)
    rwa [map_retireLatest fun _ _ => rfl]
  | published hr heq =>
    -- Only workers that have ended are forgotten, and this one is at work.
    obtain ⟨w, hw, hdoes⟩ := List.mem_map.mp hmem
    refine .inl ((stage?_eq_some_iff_mem hnq).mpr (List.mem_map.mpr ⟨w, ?_, hdoes⟩))
    have hstage : w.stage = .busy job := congrArg Prod.snd hdoes
    exact List.mem_filter.mpr ⟨hw, by simp [Worker.finished, hstage]⟩
  | collected hr ht =>
    refine .inl ((stage?_eq_some_iff_mem hnq).mpr ?_)
    rwa [List.map_map]
  | _ => exact .inl hb

theorem Step.handled_grows (hs : Step p e q) : p.handled <+: q.handled := by
  cases hs with
  | finished _ _ => exact List.prefix_append _ _
  | _ => exact List.prefix_rfl

/-- A worker has its job until it finishes it. -/
theorem busy_run (hn : Numbered q) {after : List (Event J)} (hcalm : ∀ m, .crash m ∉ after)
    {job : J} (hb : q.stage? n = some (.busy job)) (h : q.run? after = some p) :
    p.stage? n = some (.busy job) ∨
      ∃ mid ok rest r, after = mid ++ .finish n ok :: rest ∧ q.run? mid = some r ∧
        r.stage? n = some (.busy job) ∧ r.handled ++ [(job, ok)] <+: p.handled := by
  refine Machine.run_induction (f := step)
    (motive := fun es p => (∀ m, .crash m ∉ es) → p.stage? n = some (.busy job) ∨
      ∃ mid ok rest r, es = mid ++ .finish n ok :: rest ∧ q.run? mid = some r ∧
        r.stage? n = some (.busy job) ∧ r.handled ++ [(job, ok)] <+: p.handled)
    (fun _ => .inl hb) ?_ h hcalm
  intro es e t u hes ih hstep hcalm
  simp only [List.mem_append, List.mem_singleton, not_or] at hcalm
  have hs := step_of_eq_some hstep
  rcases ih fun m => (hcalm m).1 with hbusy | ⟨mid, ok, rest, r, rfl, hr, hbusy, hpre⟩
  · have hother : ∀ m, e ≠ .crash m := fun m heq => (hcalm m).2 heq.symm
    rcases hs.busy (hn.run hes) hother hbusy with hbusy' | ⟨ok, rfl⟩
    · exact .inl hbusy'
    · refine .inr ⟨es, ok, [], t, rfl, hes, hbusy, ?_⟩
      cases hs with
      | finished hw hstage =>
        rw [stage?, hw, Option.map_some, hstage] at hbusy
        cases hbusy
        exact List.prefix_rfl
  · refine .inr ⟨mid, ok, rest ++ [e], r, ?_, hr, hbusy, hpre.trans hs.handled_grows⟩
    rw [List.append_assoc, List.cons_append]

/-- Where all workers have ended, no job is in hand, and none is taken or handled after that. -/
theorem run_sawEnd {events : List (Event J)} (h : SizeInv sizing p) (hp : p.sawEnd = true)
    (hrun : p.run? events = some q) :
    q.inFlight = [] ∧ q.started = p.started ∧ q.handled = p.handled := by
  obtain ⟨hinv, hend, hsame⟩ := Machine.run_invariant (f := Pool.step)
    (P := fun t => SizeInv sizing t ∧ t.sawEnd = true ∧
      t.started = p.started ∧ t.handled = p.handled) ⟨h, hp, rfl, rfl⟩ (by
      rintro t e u ⟨hinv, hend, hsame⟩ hstep
      have hs := step_of_eq_some hstep
      refine ⟨hinv.step hs, hs.sawEnd hend, ?_⟩
      cases hs with
      | took hw hstage _ | finished hw hstage =>
        rw [hinv.sawEnd_eq_false hw (by simp [Worker.finished, hstage])] at hend
        cases hend
      | _ => exact hsame) hrun
  refine ⟨List.filterMap_eq_nil_iff.mpr fun w hw => ?_, hsame⟩
  have hfinished := (hinv.ended hend).2 w hw
  cases hstage : w.stage <;> simp_all [Worker.finished, Stage.job?]

/-- Without a crash, a worker that has ended has exited. -/
theorem HasEnded.exited {events : List (Event J)} (hcalm : ∀ m, .crash m ∉ events)
    (h : HasEnded sizing events n) :
    ∃ mid r, mid <+: events ∧ (start sizing).run? mid = some r ∧ r.stage? n = some .exited := by
  obtain ⟨mid, r, hpre, hr, w, hw, rfl, hfinished⟩ := h
  have hjobs : JobInv r := .run (fun m hm => hcalm m (hpre.subset hm)) hr
  have hexited : w.stage = .exited := by
    have hne := hjobs.calm w hw
    cases hstage : w.stage <;> simp_all [Worker.finished]
  refine ⟨mid, r, hpre, hr, (stage?_eq_some_iff_mem ((Numbered.start sizing).run hr)).mpr ?_⟩
  exact List.mem_map.mpr ⟨w, hw, by rw [hexited]⟩

/-- **Jobs are conserved.** As long as no job breaks down, every job that was submitted is accepted,
refused or on offer, and every job that was accepted is in the queue, in the hands of a worker, or
handled: if jobs differ, in one of these places and there once. Workers take jobs in the order in
which they entered the queue, which is never longer than it may be. Failures are counted. A worker
that has a job, whatever it is asked to do meanwhile, has it until it finishes it. The handler is
released once, after all workers that were ever started have exited, and no job is in hand, taken or
handled from then on. -/
theorem jobs_conserved (hs : sizing.fault? = none) {events : List (Event J)}
    (hcalm : ∀ m, .crash m ∉ events) (h : (start sizing).run? events = some p) :
    (events.filterMap Event.job?).Perm (p.accepted ++ (p.refused ++ p.offers)) ∧
    p.accepted.Perm (p.queue ++ (p.inFlight ++ p.handled.map Prod.fst)) ∧
    (p.accepted.Nodup → (p.queue ++ (p.inFlight ++ p.handled.map Prod.fst)).Nodup) ∧
    p.accepted = p.started ++ p.queue ∧
    p.queue.length ≤ sizing.queueSize ∧
    p.failures = events.countP Event.isFailure ∧
    (∀ before after q n job, events = before ++ after → (start sizing).run? before = some q →
      q.stage? n = some (.busy job) → p.stage? n = some (.busy job) ∨
        ∃ mid ok rest r, after = mid ++ .finish n ok :: rest ∧ q.run? mid = some r ∧
          r.stage? n = some (.busy job) ∧ r.handled ++ [(job, ok)] <+: p.handled) ∧
    (∀ before after, events = before ++ .release :: after →
      .release ∉ before ∧ .release ∉ after ∧
      ∃ q, (start sizing).run? before = some q ∧ p.nextNumber = q.nextNumber ∧
        (∀ n < q.nextNumber, ∃ mid r, mid <+: before ∧ (start sizing).run? mid = some r ∧
          r.stage? n = some .exited) ∧
        q.inFlight = [] ∧ p.inFlight = [] ∧ p.started = q.started ∧ p.handled = q.handled) := by
  have hstart : SizeInv sizing (start sizing : Pool J) := .start hs
  have hjobs : JobInv p := .run hcalm h
  have hplaces : p.accepted.Perm (p.queue ++ (p.inFlight ++ p.handled.map Prod.fst)) := by
    rw [hjobs.accepted]
    exact (hjobs.started.append_right _).trans List.perm_append_comm
  refine ⟨submitted_perm h, hplaces, hplaces.nodup, hjobs.accepted, ?_, failures_eq_countP h,
    fun before after q n job hsplit hq hb => ?_, fun before after hsplit => ?_⟩
  · exact (hstart.run h).sizing_eq ▸ hjobs.length_queue
  · subst hsplit
    obtain ⟨t, ht, hafter⟩ := Machine.run_append_iff.mp h
    obtain rfl : t = q := Option.some.inj (ht.symm.trans hq)
    exact busy_run ((Numbered.start sizing).run hq)
      (fun m hm => hcalm m (List.mem_append_right _ hm)) hb hafter
  · subst hsplit
    have hnodup : ((before ++ .release :: after).filter Event.isTeardown).Nodup :=
      teardown_events h ▸ nodup_teardownEvents _
    rw [List.filter_append, List.filter_cons_of_pos rfl] at hnodup
    obtain ⟨-, hcons, hdisjoint⟩ := List.nodup_append.mp hnodup
    obtain ⟨q, hq, hrest⟩ := Machine.run_append_iff.mp h
    obtain ⟨r, hstep, -⟩ := Machine.run_cons_iff.mp hrest
    have hsaw : q.sawEnd = true := by
      cases step_of_eq_some hstep with
      | released ht => simp [sawEnd, ht]
    have hinv : SizeInv sizing q := hstart.run hq
    obtain ⟨-, hnext⟩ := (run_tookOver hinv (tookOver_of_sawEnd hsaw) hrest).2
    obtain ⟨hidle, hsame⟩ := run_sawEnd hinv hsaw hrest
    refine ⟨fun hmem => hdisjoint _ (List.mem_filter.mpr ⟨hmem, rfl⟩) _ List.mem_cons_self rfl,
      fun hmem => (List.nodup_cons.mp hcons).1 (List.mem_filter.mpr ⟨hmem, rfl⟩), q, hq, hnext,
      fun n hn => ?_, ?_, hidle, hsame⟩
    · exact (all_ended hinv hq hsaw n hn).exited fun m hm => hcalm m (List.mem_append_left _ hm)
    · have hnil : q.run? [] = some q := rfl
      exact (run_sawEnd hinv hsaw hnil).1

/-- The second worker is retired while it has the first job, the first worker fails with the second
job, and the third one is in the queue when the pool is closed. -/
def Sample.handover : List (Event Nat) :=
  [.beginResize 2, .confirm, .adjust, .publish, .submit 7, .enqueue 0, .submit 8, .enqueue 0,
    .poll 1, .take 1, .beginResize 1, .confirm, .adjust, .publish, .poll 0, .take 0, .submit 9,
    .enqueue 0, .close, .cancel, .collect, .finish 0 false, .finish 1 true, .poll 0, .poll 1,
    .awaitWorkers, .release]

/-- The job of a worker that was retired meanwhile is handled, and so is the one that fails. -/
theorem jobs_conserved_handover :
    ∃ p, (start Sample.smallSizing).run? Sample.handover = some p ∧ p.queue = [9] ∧
      p.started = [7, 8] ∧ (p.handled.map Prod.fst).Nodup ∧ p.failures = 1 ∧ p.inFlight = [] ∧
      ∃ mid r, mid <+: Sample.handover.dropLast ∧
        (start Sample.smallSizing).run? mid = some r ∧ r.stage? 1 = some .exited := by
  obtain ⟨p, hp, haccepted, hqueue, hnext⟩ :
      ∃ p, (start Sample.smallSizing).run? Sample.handover = some p ∧
        p.accepted = [7, 8] ++ [9] ∧ p.queue = [9] ∧ p.nextNumber = 2 := ⟨_, rfl, rfl, rfl, rfl⟩
  obtain ⟨-, -, hdiffer, horder, -, hfailures, -, hrelease⟩ :=
    jobs_conserved (by decide) (by simp [Sample.handover]) hp
  obtain ⟨-, -, q, -, hq, hexited, -, hidle, -⟩ := hrelease Sample.handover.dropLast [] rfl
  have hnodup := hdiffer (haccepted ▸ by decide)
  rw [haccepted, hqueue] at horder
  refine ⟨p, hp, hqueue, (List.append_cancel_right horder).symm, ?_, hfailures, hidle,
    hexited 1 (by omega)⟩
  exact (List.nodup_append.mp (List.nodup_append.mp hnodup).2.1).2.1

end Pool

end SealedGateway
