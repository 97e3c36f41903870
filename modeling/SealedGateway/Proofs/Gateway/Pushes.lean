import SealedGateway.Gateway.Schedule
import SealedGateway.Proofs.Gateway.Backend
import SealedGateway.Proofs.Gateway.Frames
import SealedGateway.Proofs.Outbound.Truthful

/-!
# What pushes come to

- **`Made`**: the call that a push has made, with how far it has come.
- **`Honest`**: a push comes to what happened to its payload at the connection that was registered
  at the look-up, and `Honest.of_run` has it for every push of a run.
- **`push_undisturbed`**: where nothing comes between, a push is the push of the control plane.
- **`pushes_truthful`**: what calls are told and what pushes come to is what happened.
-/

namespace SealedGateway

/-- What a client receives of a payload is its bytes. -/
theorem Output.received_pushed (payload : Bytes) :
    (∃ text, received (.pushed payload) = .text text ∧ Utf8.encode text = payload) ∨
      received (.pushed payload) = .binary payload := by
  cases h : Utf8.decode? payload with
  | none => exact .inr (by rw [received, h])
  | some text => exact .inl ⟨text, by rw [received, h], Utf8.encode_of_decode? h⟩

namespace PushStage

variable {stage : PushStage} {outcome : PushOutcome}

/-- What a push that found a connection comes to is what its call was told. -/
theorem answered_of_outcome? (h : stage.outcome? = some outcome)
    (hne : outcome ≠ .noActiveConnection) : ∃ handle n k f, stage = .answered handle n k f ∧
      outcome = f.elim .sent fun failure => .transportFailed failure.message := by
  cases stage with
  | asked | found | called => cases h
  | absent =>
    cases h
    exact absurd rfl hne
  | answered handle n k f =>
    refine ⟨handle, n, k, f, rfl, ?_⟩
    cases f <;>
    · cases h
      rfl

theorem entry?_of_absent (h : stage.outcome? = some .noActiveConnection) :
    stage.entry? = some none := by
  cases stage with
  | absent => rfl
  | asked | found | called => cases h
  | answered _ _ _ f => cases f <;> cases h

/-- What has come to something has looked up. -/
theorem entry?_of_outcome? (h : stage.outcome? = some outcome) :
    ∃ entry, stage.entry? = some entry := by
  cases stage with
  | asked | found | called => cases h
  | absent | answered => exact ⟨_, rfl⟩

end PushStage

namespace Backend

variable {config : Config} {entropy : Entropy} {g₀ : Gateway} {events : List Event} {b : Backend}
  {i : Nat} {p : PushTask}

/-- The entry that a push found and the answer that it was told make its outcome, as they do in the
control plane. -/
theorem push_eq_outcome {σ : Type} {lines : Lines σ} {plane : ControlPlane σ}
    {entry : Option Handle} {outcome : PushOutcome} (hentry : p.stage.entry? = some entry)
    (houtcome : p.stage.outcome? = some outcome)
    (hfind : plane.registry.directory.find? p.id = entry)
    (hanswer : ∀ handle answer, p.stage.answer? = some (handle, answer) →
      (lines.push plane.owners handle.serial p.payload).1 = answer) :
    (plane.push lines p.id p.payload).1 = outcome := by
  obtain ⟨id, payload, stage⟩ := p
  cases stage with
  | asked | found | called => cases houtcome
  | absent =>
    cases hentry
    cases houtcome
    simp only [ControlPlane.push, hfind]
  | answered handle n k f =>
    cases hentry
    rcases hpush : lines.push plane.owners handle.serial payload with ⟨told, owners⟩
    cases f <;>
    · cases houtcome
      obtain rfl : told = _ := (congrArg Prod.fst hpush).symm.trans (hanswer handle _ rfl)
      simp only [ControlPlane.push, hfind, hpush]

theorem LookedUp.mem {id : String} {entry : Option Handle} (h : LookedUp g₀ events i id entry) :
    .lookUp i ∈ events := by
  obtain ⟨before, after, -, rfl, -⟩ := h
  exact List.mem_append_right _ List.mem_cons_self

/-- A push that has looked up keeps what it found. -/
theorem TaskInv.entry_eq {g : Gateway} {entry : Option Handle} (h : TaskInv g₀ events g i p)
    (hl : LookedUp g₀ events i p.id entry) : p.stage.entry? = some entry := by
  cases he : p.stage.entry? with
  | none => exact absurd hl.mem (h.unasked he)
  | some found => rw [(h.entry found he).unique hl]

/-- A push has made a call, which has come to a stage. -/
structure Made (b : Backend) (p : PushTask) (n k : Nat) (c : Connection) (stage : CallStage) :
    Prop where
  call : p.stage.call? = some (n, k)
  connection : b.gateway.connections[n]? = some c
  request : c.mailbox.calls[k]? = some ⟨.push p.payload, stage⟩

/-- A push comes to what happened to its payload. -/
structure Honest (g₀ : Gateway) (events : List Event) (b : Backend) (i : Nat) (p : PushTask) :
    Prop where
  /-- What a push comes to is what the control plane makes of the entry that it found, when it
  looked up, and of what it was told. -/
  outcome : ∀ outcome, p.stage.outcome? = some outcome → ∃ entry, LookedUp g₀ events i p.id entry ∧
    ∀ {σ : Type} (lines : Lines σ) (plane : ControlPlane σ),
      plane.registry.directory.find? p.id = entry →
      (∀ handle answer, p.stage.answer? = some (handle, answer) →
        (lines.push plane.owners handle.serial p.payload).1 = answer) →
      (plane.push lines p.id p.payload).1 = outcome
  /-- There is no active connection just if nobody was registered at the look-up, -/
  absent : p.stage.outcome? = some .noActiveConnection ↔ LookedUp g₀ events i p.id none
  /-- and then no connection is called on. -/
  nobody : LookedUp g₀ events i p.id none → callsOf i events = []
  /-- A push calls once at most, on the connection that was registered at the look-up. -/
  calls : ∀ n ∈ callsOf i events, callsOf i events = [n] ∧ ∃ handle k c stage,
    LookedUp g₀ events i p.id (some handle) ∧ Made b p n k c stage ∧ c.serial = handle.serial ∧
      (b.gateway.connections.length < UInt64.size → c.id = p.id ∧
        ∀ (m : Nat) d, b.gateway.connections[m]? = some d → d.serial = handle.serial → m = n)
  /-- A push whose call was answered has been sent just if its payload was written, and the failure
  of one that was not is the one that its call was told. -/
  told : ∀ outcome, p.stage.outcome? = some outcome → outcome ≠ .noActiveConnection →
    ∃ n k c f, callsOf i events = [n] ∧ Made b p n k c (.answered f) ∧
      (outcome = .sent ↔ (k, p.payload) ∈ c.mailbox.written) ∧
      ∀ detail, outcome = .transportFailed detail ↔ ∃ failure, f = some failure ∧
        failure.message = detail
  /-- A push that has come to nothing yet can go on, unless it waits for an answer. -/
  goesOn : p.stage.outcome? = none →
    (∃ b', b.step (.lookUp i) = some b') ∨ (∃ n b', b.step (.call i n) = some b') ∨
      (∃ b', b.step (.learn i) = some b') ∨
      ∃ n k c stage, Made b p n k c stage ∧ ∀ f, stage ≠ .answered f

namespace TaskInv

variable (h : TaskInv g₀ events b.gateway i p)

include h

/-- A push that nobody was registered for calls on nobody. -/
theorem eq_absent (he : p.stage.entry? = some none) :
    p.stage.outcome? = some .noActiveConnection ∧ callsOf i events = [] := by
  have honce := h.once
  revert he honce
  cases p.stage with
  | absent => exact fun _ honce => ⟨rfl, honce⟩
  | asked | found | called | answered => nofun

/-- The connection that a push called on is the one whose handle it found. -/
theorem made_of_calls (hentry : Gateway.EntryInv b.gateway) {n : Nat} (hn : n ∈ callsOf i events) :
    callsOf i events = [n] ∧ ∃ handle k c stage, LookedUp g₀ events i p.id (some handle) ∧
      Made b p n k c stage ∧ c.serial = handle.serial ∧
      (b.gateway.connections.length < UInt64.size → c.id = p.id ∧
        ∀ (m : Nat) d, b.gateway.connections[m]? = some d → d.serial = handle.serial → m = n) := by
  have honce := h.once
  cases hcall : p.stage.call? with
  | none =>
    rw [hcall] at honce
    rw [honce] at hn
    cases hn
  | some call =>
    obtain ⟨n', k⟩ := call
    rw [hcall] at honce
    rw [honce] at hn
    obtain rfl := List.mem_singleton.mp hn
    obtain ⟨handle, c, stage, he, hc, hserial, hrequest⟩ := h.call n k hcall
    refine ⟨honce, handle, k, c, stage, h.entry _ he, ⟨hcall, hc, hrequest⟩, hserial,
      fun hfew => ?_⟩
    have hone {m : Nat} {d : Connection} (hd : b.gateway.connections[m]? = some d)
        (hsame : d.serial = handle.serial) : m = n :=
      hentry.eq_of_serial hfew hd hc (hsame.trans hserial.symm)
    obtain ⟨m, d, hd, hid, hsame⟩ := h.owner handle he
    obtain rfl := hone hd hsame
    obtain rfl := Option.some.inj (hc.symm.trans hd)
    exact ⟨hid, fun _ _ => hone⟩

/-- What a push was told is what happened to its payload. -/
theorem made_of_answer (h₀ : Gateway.create config entropy = .ok g₀) {es : List Gateway.Event}
    (hes : g₀.run? es = some b.gateway) {handle : Handle} {n k : Nat} {f : Option Failure}
    (hs : p.stage = .answered handle n k f) : ∃ c, callsOf i events = [n] ∧
      Made b p n k c (.answered f) ∧ (f = none ↔ (k, p.payload) ∈ c.mailbox.written) := by
  have honce := h.once
  rw [hs] at honce
  obtain ⟨c, hc, hrequest⟩ := h.answer handle n k f hs
  obtain ⟨mes, hmailbox⟩ := Gateway.mailbox_run h₀ hes hc
  exact ⟨c, honce, ⟨by rw [hs]; rfl, hc, hrequest⟩,
    (Mailbox.Truthful.of_run hmailbox).success k _ f hrequest⟩

/-- A push that has come to nothing yet can go on, or its call is not answered. -/
theorem goesOn (hi : b.pushes[i]? = some p) (hnone : p.stage.outcome? = none) :
    (∃ b', b.step (.lookUp i) = some b') ∨ (∃ n b', b.step (.call i n) = some b') ∨
      (∃ b', b.step (.learn i) = some b') ∨
      ∃ n k c stage, Made b p n k c stage ∧ ∀ f, stage ≠ .answered f := by
  obtain ⟨id, payload, stage⟩ := p
  cases stage with
  | absent => cases hnone
  | answered _ _ _ f => cases f <;> cases hnone
  | asked => exact .inl ⟨_, (Step.lookedUp hi).eq_some⟩
  | found handle =>
    obtain ⟨n, c, hc, -, hserial⟩ := h.owner handle rfl
    obtain ⟨g', hg⟩ := exists_call (.push payload) hc
    exact .inr (.inl ⟨n, _, (Step.called hi hc hserial hg).eq_some⟩)
  | called handle n k =>
    obtain ⟨-, c, stage, -, hc, -, hrequest⟩ := h.call n k rfl
    have hmade : Made b ⟨id, payload, .called handle n k⟩ n k c stage := ⟨rfl, hc, hrequest⟩
    cases stage with
    | answered f => exact .inr (.inr (.inl ⟨_, (Step.learned hi hc hrequest).eq_some⟩))
    | waitingForSpace => exact .inr (.inr (.inr ⟨n, k, c, _, hmade, nofun⟩))
    | queued => exact .inr (.inr (.inr ⟨n, k, c, _, hmade, nofun⟩))

end TaskInv

/-- Every push of a run comes to what happened to its payload. -/
theorem Honest.of_run (h₀ : Gateway.create config entropy = .ok g₀)
    (h : (start g₀).run? events = some b) (hi : b.pushes[i]? = some p) :
    Honest g₀ events b i p := by
  have hinv := BackendInv.run h₀ h
  obtain ⟨es, hes⟩ := hinv.gateway
  have htask := hinv.tasks i p hi
  refine
    { outcome := fun outcome ho => ?_
      absent := ⟨fun ho => ?_, fun hl => (htask.eq_absent (htask.entry_eq hl)).1⟩
      nobody := fun hl => (htask.eq_absent (htask.entry_eq hl)).2
      calls := fun n hn => htask.made_of_calls (.run h₀ hes) hn
      told := fun outcome ho hne => ?_
      goesOn := htask.goesOn hi }
  · obtain ⟨entry, he⟩ := PushStage.entry?_of_outcome? ho
    exact ⟨entry, htask.entry entry he, fun lines plane hfind => push_eq_outcome he ho hfind⟩
  · exact htask.entry none (PushStage.entry?_of_absent ho)
  · obtain ⟨handle, n, k, f, hs, rfl⟩ := PushStage.answered_of_outcome? ho hne
    obtain ⟨c, hcalls, hmade, hwritten⟩ := htask.made_of_answer h₀ hes hs
    refine ⟨n, k, c, f, hcalls, hmade, ?_, fun detail => ?_⟩
    · rw [← hwritten]
      cases f <;> simp
    · cases f <;> simp

/-! ## Pushes that nothing comes between -/

/-- What happens in the gateway is no business of pushes. -/
theorem run_gateway {es : List Gateway.Event} {g : Gateway} (h : b.gateway.run? es = some g) :
    b.run? (es.map .gateway) = some { b with gateway := g } := by
  induction es generalizing b with
  | nil =>
    cases h
    rfl
  | cons ev es ih =>
    obtain ⟨g₁, hstep, hrest⟩ := Machine.run_cons_iff.mp h
    exact Machine.run_cons_iff.mpr ⟨_, (Step.went hstep).eq_some, ih hrest⟩

/-- A push that is asked for looks its identifier up. -/
theorem run_lookUp {g : Gateway} {id : String} {payload : Bytes} {entry : Option Handle}
    (hfind : g.registry.directory.find? id = entry) :
    (start g).run? [.ask id payload, .lookUp 0] =
      some ⟨g, [⟨id, payload, entry.elim .absent .found⟩]⟩ := by
  subst hfind
  rfl

theorem serial_of_numberOf? {g : Gateway} {serial : UInt64} {n : Nat} {c : Connection}
    (hn : g.numberOf? serial = some n) (hc : g.connections[n]? = some c) : c.serial = serial := by
  obtain ⟨hlt, hserial, -⟩ := List.findIdx?_eq_some_iff_getElem.mp hn
  obtain ⟨-, rfl⟩ := List.getElem?_eq_some_iff.mp hc
  exact beq_iff_eq.mp hserial

/-- A push whose connection sees it through at once. -/
theorem run_push {g g' : Gateway} {id : String} {payload : Bytes} {handle : Handle} {n : Nat}
    {c : Connection} (hfind : g.registry.directory.find? id = some handle)
    (hc : g.connections[n]? = some c) (hserial : c.serial = handle.serial)
    (hq : c.mailbox.queue = [])
    (hrun : g.run? ((Gateway.pushEvents c payload).map (.mailbox n)) = some g') :
    ∃ events, (start g).run? events =
      some ⟨g', [⟨id, payload, .answered handle n c.mailbox.calls.length none⟩]⟩ := by
  obtain ⟨c', hc', hmailbox⟩ := Gateway.mailbox_of_run hrun hc fun _ => hq
  have hanswer := Mailbox.answered_of_run hq hmailbox
  obtain ⟨g₁, hcall, hrest⟩ := Machine.run_cons_iff.mp hrun
  have hcalled := Step.called (b := ⟨g, [⟨id, payload, .found handle⟩]⟩) (i := 0) rfl hc hserial
    hcall
  have hlearned := Step.learned (i := 0)
    (b := ⟨g', [⟨id, payload, .called handle n c.mailbox.calls.length⟩]⟩) rfl hc' hanswer
  exact ⟨_, Machine.run_append_iff.mpr ⟨_, run_lookUp hfind, Machine.run_cons_iff.mpr
    ⟨_, hcalled.eq_some, Machine.run_concat_iff.mpr
      ⟨_, run_gateway hrest, hlearned.eq_some⟩⟩⟩⟩

/-- A push of the control plane that nothing comes between, and that does not fail, is one of these
runs: it comes to the same, and leaves the same gateway. -/
theorem push_undisturbed {g : Gateway} {id : String} {payload : Bytes} {outcome : PushOutcome}
    {plane : ControlPlane Gateway}
    (hquiet : ∀ (n : Nat) c, g.connections[n]? = some c → c.mailbox.queue = [])
    (hpush : g.controlPlane.push Gateway.lines id payload = (outcome, plane))
    (hdone : ∀ detail, outcome ≠ .transportFailed detail) :
    ∃ events stage, (start g).run? events = some ⟨plane.owners, [⟨id, payload, stage⟩]⟩ ∧
      stage.outcome? = some outcome := by
  cases hfind : g.registry.directory.find? id with
  | none =>
    simp only [ControlPlane.push, Gateway.controlPlane, hfind] at hpush
    cases hpush
    exact ⟨[.ask id payload, .lookUp 0], .absent, run_lookUp hfind, rfl⟩
  | some handle =>
    cases hrun : g.runMailbox? handle.serial (Gateway.pushEvents · payload) with
    | none =>
      simp only [ControlPlane.push, Gateway.controlPlane, hfind, Gateway.lines, hrun] at hpush
      cases hpush
      exact absurd rfl (hdone _)
    | some g' =>
      simp only [ControlPlane.push, Gateway.controlPlane, hfind, Gateway.lines, hrun] at hpush
      cases hpush
      obtain ⟨n, hn, hrun⟩ := Option.bind_eq_some_iff.mp hrun
      obtain ⟨c, hc, hrun⟩ := Option.bind_eq_some_iff.mp hrun
      obtain ⟨events, hevents⟩ := run_push hfind hc (serial_of_numberOf? hn hc) (hquiet n c hc) hrun
      exact ⟨events, _, hevents, rfl⟩

/-! ## The theorem -/

/-- What calls are told, and what pushes come to, is what happened. In any mailbox a push is told of
success just if its payload was written, once and in its turn, and who is told of a failure is told
of its own or was never taken. Every connection of a gateway has such a mailbox, and what is pushed
to its client is what was written, with the bytes that it has. A push through the control plane
calls on the connection that was registered at its look-up and on no other, and comes to what its
call was told; with nobody registered it calls on nobody. No two pushes share a call. -/
theorem pushes_truthful (h₀ : Gateway.create config entropy = .ok g₀)
    (h : (start g₀).run? events = some b) :
    (∀ capacity es m, (Mailbox.empty capacity).run? es = some m →
      Mailbox.Truthful capacity es m) ∧
    (∀ (n : Nat) c, b.gateway.connections[n]? = some c →
      (∃ es, (Mailbox.empty config.outboundBuffer).run? es = some c.mailbox) ∧
      c.pushes = c.mailbox.written.map Prod.snd) ∧
    (∀ payload,
      (∃ text, Output.received (.pushed payload) = .text text ∧ Utf8.encode text = payload) ∨
        Output.received (.pushed payload) = .binary payload) ∧
    (∀ (i : Nat) p, b.pushes[i]? = some p → Honest g₀ events b i p) ∧
    ∀ (i j : Nat) p q n k, b.pushes[i]? = some p → b.pushes[j]? = some q →
      p.stage.call? = some (n, k) → q.stage.call? = some (n, k) → i = j := by
  have hinv := BackendInv.run h₀ h
  obtain ⟨es, hes⟩ := hinv.gateway
  refine ⟨fun capacity es m => Mailbox.Truthful.of_run, fun n c hc => ⟨?_, ?_⟩,
    Output.received_pushed, fun i p hi => .of_run h₀ h hi, hinv.distinct⟩
  · exact Gateway.mailbox_run h₀ hes hc
  · exact ((Gateway.RepliesInv.run h₀ hes n).2 c hc).pushes

namespace Sample

/-- A push to a client that is connected, and one to a client that is not. -/
def pushing : List Event :=
  [.gateway (.accept (some "c1") "" ⟨.v4 ⟨127, 0, 0, 1⟩, 4000⟩), .ask "c1" [104, 105],
    .ask "c2" [], .lookUp 0, .lookUp 1, .call 0 0, .gateway (.mailbox 0 (.enqueue 0)),
    .gateway (.mailbox 0 .receive), .gateway (.mailbox 0 .write), .gateway (.mailbox 0 .answer),
    .learn 0]

theorem run_pushing : ∃ g₀ b p q,
    Gateway.create Gateway.Sample.config Gateway.Sample.draws = .ok g₀ ∧
      (start g₀).run? pushing = some b ∧ b.pushes = [p, q] ∧ p.payload = [104, 105] ∧
      p.stage.outcome? = some .sent ∧ q.stage.outcome? = some .noActiveConnection :=
  ⟨_, _, _, _, rfl, rfl, rfl, rfl, rfl, rfl⟩

end Sample

/-- One payload is written to the client that is connected, and nobody else is called on. -/
theorem pushes_truthful_greeting : ∃ g₀ b n k c,
    Gateway.create Gateway.Sample.config Gateway.Sample.draws = .ok g₀ ∧
      (start g₀).run? Sample.pushing = some b ∧ b.gateway.connections[n]? = some c ∧
      callsOf 0 Sample.pushing = [n] ∧ (k, [104, 105]) ∈ c.mailbox.written ∧
      callsOf 1 Sample.pushing = [] := by
  obtain ⟨g₀, b, p, q, h₀, h, hpushes, hpayload, hp, hq⟩ := Sample.run_pushing
  obtain ⟨-, -, -, hhonest, -⟩ := pushes_truthful h₀ h
  have hsent := hhonest 0 p (by rw [hpushes]; rfl)
  have hnobody := hhonest 1 q (by rw [hpushes]; rfl)
  obtain ⟨n, k, c, f, hcalls, hmade, hwritten, -⟩ := hsent.told _ hp nofun
  rw [hpayload] at hwritten
  exact ⟨g₀, b, n, k, c, h₀, h, hmade.connection, hcalls, hwritten.mp rfl,
    hnobody.nobody (hnobody.absent.mp hq)⟩

end Backend

end SealedGateway
