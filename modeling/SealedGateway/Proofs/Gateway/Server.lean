import SealedGateway.Gateway.Server
import SealedGateway.Proofs.Gateway.Forwarding

/-!
# Runs of the server

- **`Step`**: one constructor for each thing that can happen.
- **`run_gateway`**: a run of a gateway is a run of the server, where every task makes its entry at
  once.
- **`run_keeps`**: what every event of a gateway keeps, whether or not it still takes connections,
  holds after any run of the server.
-/

namespace SealedGateway.Server

/-! ## Events -/

/-- What an event can do. -/
inductive Step (s : Server) : Event → Server → Prop where
  | arrived {a : Arrival} (hs : s.gateway.serving = .accepting) :
      Step s (.arrive a) { s with arriving := s.arriving ++ [a] }
  | registered {i : Nat} {a : Arrival} {g : Gateway} (ha : s.arriving[i]? = some a)
      (hg : Gateway.Step { s.gateway with serving := .accepting }
        (.accept a.name a.fresh a.remote) g) :
      Step s (.register i) ⟨{ g with serving := s.gateway.serving }, s.arriving.eraseIdx i⟩
  | moved {ev : Gateway.Event} {g : Gateway} (hg : Gateway.Step s.gateway ev g)
      (haccept : ∀ name fresh remote, ev ≠ .accept name fresh remote)
      (hdrain : ev = .drain → s.arriving = []) : Step s (.gateway ev) { s with gateway := g }

variable {g₀ g g' : Gateway} {s s' : Server} {ev : Event} {events : List Event}

theorem gatewayStep_step {e : Gateway.Event} (h : s.gatewayStep e = some s') :
    Step s (.gateway e) s' := by
  unfold gatewayStep at h
  split at h
  case h_1 => cases h
  case h_2 =>
    split at h
    case isFalse => cases h
    case isTrue ha =>
      obtain ⟨g, hg, rfl⟩ := Option.map_eq_some_iff.mp h
      exact .moved (Gateway.step_of_eq_some hg) nofun fun _ => List.isEmpty_iff.mp ha
  case h_3 haccept hdrain =>
    obtain ⟨g, hg, rfl⟩ := Option.map_eq_some_iff.mp h
    exact .moved (Gateway.step_of_eq_some hg) haccept fun he => absurd he hdrain

/-- An event that is enabled does one of the things that `Step` lists. -/
theorem step_of_eq_some (h : s.step ev = some s') : Step s ev s' := by
  cases ev with
  | arrive a =>
    simp only [step, arrive] at h
    split at h
    case h_2 => cases h
    case h_1 hs =>
      cases h
      exact .arrived hs
  | register i =>
    simp only [step, register, bind, Option.bind_eq_some_iff] at h
    obtain ⟨a, ha, g, hg, h⟩ := h
    cases h
    exact .registered ha (Gateway.step_of_eq_some hg)
  | gateway e => exact gatewayStep_step h

/-! ## Runs -/

/-- What an event of a gateway is for the server if every task makes its entry at once. -/
def ofGateway : Gateway.Event → List Event
  | .accept name fresh remote => [.arrive ⟨name, fresh, remote⟩, .register 0]
  | event => [.gateway event]

theorem run_ofGateway {e : Gateway.Event} (h : g.step e = some g') :
    (start g).run? (ofGateway e) = some (start g') := by
  have hmoved (he : (start g).gatewayStep e = (g.step e).map start) :
      (start g).run? [.gateway e] = some (start g') :=
    Machine.run_cons_iff.mpr ⟨start g', by rw [step, he, h]; rfl, rfl⟩
  cases e with
  | accept name fresh remote =>
    cases Gateway.step_of_eq_some h with
    | accepted hs =>
      refine Machine.run_cons_iff.mpr ⟨⟨g, [⟨name, fresh, remote⟩]⟩, ?_,
        Machine.run_cons_iff.mpr ⟨_, rfl, rfl⟩⟩
      simp only [step, arrive, start, hs]
      rfl
  | _ => exact hmoved rfl

/-- A run of a gateway is one of the server. -/
theorem run_gateway {es : List Gateway.Event} (h : g.run? es = some g') :
    (start g).run? (es.flatMap ofGateway) = some (start g') := by
  induction es generalizing g with
  | nil =>
    cases h
    rfl
  | cons e es ih =>
    obtain ⟨g₁, hstep, hrest⟩ := Machine.run_cons_iff.mp h
    exact Machine.run_append_iff.mpr ⟨start g₁, run_ofGateway hstep, ih hrest⟩

/-- What every event of a gateway keeps, whether or not it still takes connections. -/
theorem run_keeps {P : Gateway → Prop} (hstart : P g₀)
    (hserving : ∀ g serving, P g → P { g with serving })
    (hstep : ∀ g e g', P g → Gateway.Step g e g' → P g')
    (h : (start g₀).run? events = some s) : P s.gateway := by
  refine Machine.run_invariant (f := step) (P := fun s => P s.gateway) hstart ?_ h
  intro t e u ht hu
  cases step_of_eq_some hu with
  | arrived _ => exact ht
  | registered _ hg => exact hserving _ _ (hstep _ _ _ (hserving _ _ ht) hg)
  | moved hg _ _ => exact hstep _ _ _ ht hg

end SealedGateway.Server
