import Mathlib.Data.List.Induction

/-!
# Runs of machines

The pool, the registry, the mailbox and the gateway are machines: a state, events, and a step that
refuses what is not enabled. A run folds the step over a list of events. What holds of all runs is
proved from the end, so that the history is at hand: `run_induction`. What the steps of a run have
to show is its `trace`. What machines deal with has a number, its place in a list that grows at the
end: `getElem?_newcomer`, `eq_or_of_newcomer`.
-/

namespace SealedGateway.Machine

variable {σ ε : Type} {f : σ → ε → Option σ} {s t u : σ} {es es' : List ε} {e : ε}

/-- A run in two parts. -/
theorem run_append_iff :
    (es ++ es').foldlM f s = some u ↔
      ∃ t, es.foldlM f s = some t ∧ es'.foldlM f t = some u := by
  rw [List.foldlM_append]
  exact Option.bind_eq_some_iff

/-- A run and one more event. -/
theorem run_concat_iff :
    (es ++ [e]).foldlM f s = some u ↔ ∃ t, es.foldlM f s = some t ∧ f t e = some u := by
  rw [run_append_iff]
  simp only [List.foldlM_cons, List.foldlM_nil, bind_pure]

/-- An event and the run that follows it. -/
theorem run_cons_iff :
    (e :: es).foldlM f s = some u ↔ ∃ t, f s e = some t ∧ es.foldlM f t = some u := by
  rw [List.foldlM_cons]
  exact Option.bind_eq_some_iff

/-- What holds before the first event, and is kept by each event that is enabled, holds after any
run; both are said of the events so far and the state they led to. -/
theorem run_induction {motive : List ε → σ → Prop} (nil : motive [] s)
    (concat : ∀ es e t u, es.foldlM f s = some t → motive es t → f t e = some u →
      motive (es ++ [e]) u)
    (h : es.foldlM f s = some t) : motive es t := by
  induction es using List.reverseRecOn generalizing t with
  | nil =>
    obtain rfl : s = t := Option.some.inj h
    exact nil
  | append_singleton es e ih =>
    obtain ⟨r, hr, hstep⟩ := run_concat_iff.mp h
    exact concat es e r t hr (ih hr) hstep

/-- A state that follows in a run. -/
theorem run_invariant {P : σ → Prop} (start : P s)
    (keep : ∀ t e u, P t → f t e = some u → P u) (h : es.foldlM f s = some t) : P t :=
  run_induction (motive := fun _ t => P t) start (fun _ e t u _ hi hs => keep t e u hi hs) h

/-- What the steps of a run show, in their order. A step shows something of the state before it, of
its event, and of the state after it. -/
def trace {α : Type} (f : σ → ε → Option σ) (view : σ → ε → σ → List α) (s : σ) :
    List ε → List α
  | [] => []
  | e :: es => (f s e).elim [] fun t => view s e t ++ trace f view t es

theorem trace_concat {α : Type} {view : σ → ε → σ → List α} (h : es.foldlM f s = some t)
    (hstep : f t e = some u) :
    trace f view s (es ++ [e]) = trace f view s es ++ view t e u := by
  induction es generalizing s with
  | nil =>
    obtain rfl : s = t := Option.some.inj h
    simp [trace, hstep]
  | cons e' es ih =>
    obtain ⟨r, hfirst, hrest⟩ := run_cons_iff.mp h
    rw [List.cons_append, trace, trace, hfirst, Option.elim_some, Option.elim_some, ih hrest,
      List.append_assoc]

/-! ## Numbers -/

section Newcomer

variable {α : Type} {l : List α} {i : Nat} {a new : α}

/-- A newcomer takes nobody's number. -/
theorem getElem?_newcomer (h : l[i]? = some a) : (l ++ [new])[i]? = some a :=
  (List.getElem?_append_left (List.getElem?_eq_some_iff.mp h).1).trans h

/-- A number is that of one who was there, or of the newcomer. -/
theorem eq_or_of_newcomer (h : (l ++ [new])[i]? = some a) :
    l[i]? = some a ∨ i = l.length ∧ a = new := by
  rcases Nat.lt_or_ge i l.length with hlt | hge
  · exact .inl ((List.getElem?_append_left hlt).symm.trans h)
  · have hlast := (List.getElem?_eq_some_iff.mp h).1
    rw [List.length_append, List.length_singleton] at hlast
    rw [List.getElem?_append_right hge] at h
    exact .inr ⟨by omega, List.mem_singleton.mp (List.mem_of_getElem? h)⟩

end Newcomer

end SealedGateway.Machine
