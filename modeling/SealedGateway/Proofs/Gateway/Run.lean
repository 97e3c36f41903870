import SealedGateway.Proofs.Gateway.Tally
import SealedGateway.Proofs.Outbound.Step
import SealedGateway.Proofs.Pool.Order
import SealedGateway.Proofs.Registry.Tasks

/-!
# Parts of a gateway in a run

What one part of a gateway goes through in a run of the whole.

- **`connection_induction`**: a connection is accepted, and then makes one move after the other.
- **`Step.pool`**: an event is at most one event of the pool, and **`pool_run`**: so the pool makes
  a run of its own, in which no job breaks down.
- **`mailbox_run`**: a mailbox makes a run of its own. Its owner ends between two items, because the
  task of the connection does not touch the mailbox while it is busy with a frame.
- **`EntryInv`**: an entry of the registry is that of a connection, and serials tell connections
  apart.
-/

namespace SealedGateway.Gateway

variable {config : Config} {entropy : Entropy} {g₀ g g' : Gateway} {ev : Event}
  {events : List Event}

/-- What holds of a connection that has just been accepted, and is kept by each of its moves, holds
after any run. It is said of the events so far, and of the connection once there is one. -/
theorem connection_induction {n : Nat} {motive : List Event → Option Connection → Prop}
    (h₀ : create config entropy = .ok g₀) (nil : motive [] none)
    (absent : ∀ es (g g' : Gateway) ev, g₀.run? es = some g → g.step ev = some g' →
      g.connections[n]? = none → motive es none → motive (es ++ [ev]) none)
    (accepted : ∀ es (g g' : Gateway) ev id serial, g₀.run? es = some g → g.step ev = some g' →
      g.connections[n]? = none → motive es none →
      motive (es ++ [ev]) (some (.start id serial g.config.nonceLimit g.config.outboundBuffer)))
    (moved : ∀ es (g g' : Gateway) ev c c', g₀.run? es = some g → g.step ev = some g' →
      FrameInv g → g.connections[n]? = some c → motive es (some c) → Move g n ev c c' →
      motive (es ++ [ev]) (some c'))
    (h : g₀.run? events = some g) : motive events g.connections[n]? := by
  refine Machine.run_induction (f := Gateway.step)
    (motive := fun es g => motive es g.connections[n]?) ?_ ?_ h
  · obtain ⟨-, rfl⟩ := gateway_of_create h₀
    exact nil
  intro es ev t u hrun ih hstep
  have hs := step_of_eq_some hstep
  cases ht : t.connections[n]? with
  | none =>
    rw [ht] at ih
    cases hu : u.connections[n]? with
    | none => exact absent es t u ev hrun hstep ht ih
    | some c =>
      obtain ⟨id, serial, rfl⟩ := hs.newConnection ht hu
      exact accepted es t u ev id serial hrun hstep ht ih
  | some c =>
    rw [ht] at ih
    obtain ⟨c', hc', hmove⟩ := hs.connection ht
    rw [hc']
    exact moved es t u ev c c' hrun hstep (.run h₀ hrun) ht ih hmove

/-! ## The pool -/

theorem closePool_pool (g : Gateway) :
    g.closePool.pool = g.pool ∨ g.pool.step .close = some g.closePool.pool := by
  unfold closePool
  cases hp : g.pool.step .close with
  | none => exact .inl rfl
  | some pool => exact .inr rfl

/-- What an event of the gateway has to be, to be an event of the pool. No job breaks down. -/
structure Event.Concerns (ev : Event) (e : Pool.Event Delivery) : Prop where
  crash : ∀ w, e ≠ .crash w
  submit : ∀ d, e = .submit d → ev = .submit d.connection
  enqueue : ∀ i, e = .enqueue i → ev = .enqueue i
  refuse : ∀ i, e = .refuse i → ev = .refuse i
  finish : ∀ w ok, e = .finish w ok → ev = .forward w
  close : e = .close → ev = .closePool ∨ ev = .drain
  release : e = .release → ev = .pool .release

/-- What an event does to the pool, the pool could have done alone. -/
theorem Step.pool (hs : Step g ev g') :
    g'.pool = g.pool ∨ ∃ e, g.pool.step e = some g'.pool ∧ ev.Concerns e := by
  have hclosing (hev : ev = .closePool ∨ ev = .drain) : g.closePool.pool = g.pool ∨
      ∃ e, g.pool.step e = some g.closePool.pool ∧ ev.Concerns e :=
    (closePool_pool g).imp_right fun hp =>
      ⟨.close, hp, nofun, nofun, nofun, nofun, nofun, fun _ => hev, nofun⟩
  cases hs with
  | @turnedAway n c m hc hl hp | @offered n c m hc hl hp =>
    refine .inr ⟨.submit ⟨n, m⟩, rfl, nofun, fun d hd => ?_, nofun, nofun, nofun, nofun, nofun⟩
    cases hd
    rfl
  | @enqueued i d pool c ho hp hc =>
    refine .inr ⟨.enqueue i, hp, nofun, nofun, fun j hj => ?_, nofun, nofun, nofun, nofun⟩
    cases hj
    rfl
  | @refused i d pool c ho hp hc =>
    refine .inr ⟨.refuse i, hp, nofun, nofun, nofun, fun j hj => ?_, nofun, nofun, nofun⟩
    cases hj
    rfl
  | @forwarded w d pool hw hp =>
    refine .inr ⟨.finish w _, hp, nofun, nofun, nofun, nofun, fun n ok he => ?_, nofun, nofun⟩
    cases he
    rfl
  | @pooled e pool hp hsubmit henqueue hrefuse hfinish hcrash hclose hrelease =>
    exact .inr ⟨e, hp, hcrash, fun d hd => absurd hd (hsubmit d),
      fun i hi => absurd hi (henqueue i), fun i hi => absurd hi (hrefuse i),
      fun n ok he => absurd he (hfinish n ok), fun he => absurd he hclose,
      fun he => absurd he hrelease⟩
  | poolReleased hp =>
    exact .inr ⟨.release, hp, nofun, nofun, nofun, nofun, nofun, nofun, fun _ => rfl⟩
  | poolClosed => exact hclosing (.inl rfl)
  | drained _ _ => exact hclosing (.inr rfl)
  | _ => exact .inl rfl

/-- A pool has made a run of its own, in which no job broke down. -/
def Calm (sizing : Sizing) (p : Pool Delivery) : Prop :=
  ∃ es, (∀ n, .crash n ∉ es) ∧ (Pool.start sizing).run? es = some p

theorem Calm.step {sizing : Sizing} (h : Calm sizing g.pool) (hs : Step g ev g') :
    Calm sizing g'.pool := by
  obtain ⟨es, hcalm, hrun⟩ := h
  rcases hs.pool with hsame | ⟨e, hpool, hev⟩
  · exact ⟨es, hcalm, hsame ▸ hrun⟩
  · refine ⟨es ++ [e], fun n hn => ?_, Machine.run_concat_iff.mpr ⟨g.pool, hrun, hpool⟩⟩
    rcases List.mem_append.mp hn with hn | hn
    · exact hcalm n hn
    · exact hev.crash n (List.mem_singleton.mp hn).symm

/-- The pool of a gateway makes a run of its own. -/
theorem pool_run (h₀ : create config entropy = .ok g₀) (h : g₀.run? events = some g) :
    config.pool.fault? = none ∧ Calm config.pool g.pool := by
  obtain ⟨hfault, hg₀⟩ := gateway_of_create h₀
  refine ⟨hfault, Machine.run_invariant (f := Gateway.step)
    (P := fun g => Calm config.pool g.pool) ⟨[], by simp, by rw [hg₀]; rfl⟩ ?_ h⟩
  exact fun _ _ _ hcalm hstep => hcalm.step (step_of_eq_some hstep)

theorem Step.pool_accepted (hs : Step g ev g') (hev : ∀ i, ev ≠ .enqueue i) :
    g'.pool.accepted = g.pool.accepted := by
  rcases hs.pool with hsame | ⟨e, hpool, hconcerns⟩
  · rw [hsame]
  · exact (Pool.step_of_eq_some hpool).accepted_eq fun i hi => hev i (hconcerns.enqueue i hi)

theorem Step.pool_handled (hs : Step g ev g') (hev : ∀ w, ev ≠ .forward w) :
    g'.pool.handled = g.pool.handled := by
  rcases hs.pool with hsame | ⟨e, hpool, hconcerns⟩
  · rw [hsame]
  · exact (Pool.step_of_eq_some hpool).handled_eq fun n ok he =>
      hev n (hconcerns.finish n ok he)

theorem Step.pool_isClosed (hs : Step g ev g') (hc : g.pool.isClosed = true) :
    g'.pool.isClosed = true := by
  rcases hs.pool with hsame | ⟨e, hpool, -⟩
  · rwa [hsame]
  · exact (Pool.step_of_eq_some hpool).isClosed hc

/-! ## Mailboxes -/

theorem owner_of_listens {c : Connection} (h : c.listens = true) :
    c.mailbox.owner = .receiving := by
  simp only [Connection.listens, Bool.and_eq_true, decide_eq_true_eq] at h
  exact h.2

theorem config_eq_of_run (h₀ : create config entropy = .ok g₀) (h : g₀.run? events = some g) :
    g.config = config := by
  refine Machine.run_invariant (f := Gateway.step) (P := fun g => g.config = config) ?_ ?_ h
  · obtain ⟨-, rfl⟩ := gateway_of_create h₀
    rfl
  · intro t ev u ht hstep
    rw [← ht]
    cases step_of_eq_some hstep <;> rfl

/-- What callers do is no business of the owner. -/
theorem owner_of_call {m m' : Mailbox} {e : Mailbox.Event} (hs : m.step e = some m')
    (he : e ≠ .stop) (hf : isOwnerEvent e = false) : m'.owner = m.owner := by
  cases Mailbox.step_of_eq_some hs with
  | took | tookClose | wrote | failed | answeredSent | answeredFailed => cases hf
  | stopped => exact absurd rfl he
  | _ => rfl

/-- A mailbox has made a run of its own, and its owner waits while the task is busy with a frame. -/
structure MailboxInv (capacity : Nat) (c : Connection) : Prop where
  busy : c.inFrame = true → c.mailbox.owner = .receiving
  run : ∃ es, (Mailbox.empty capacity).run? es = some c.mailbox
  halted : c.mailbox.owner = .stopped → c.mailbox.queue = []

namespace MailboxInv

variable {capacity n : Nat} {c c' : Connection}

/-- The mailbox is as it was. -/
theorem of_same (h : MailboxInv capacity c) (hmailbox : c'.mailbox = c.mailbox)
    (hbusy : c'.inFrame = true → c'.mailbox.owner = .receiving) : MailboxInv capacity c' := by
  refine ⟨hbusy, ?_, ?_⟩
  · rw [hmailbox]
    exact h.run
  · rw [hmailbox]
    exact h.halted

/-- The task leaves between two items. -/
theorem leave (h : MailboxInv capacity c) (ho : c.mailbox.owner = .receiving) (inFrame : Bool) :
    MailboxInv capacity (c.leave inFrame) := by
  obtain ⟨es, hrun⟩ := h.run
  refine ⟨nofun, ⟨es ++ [.stop], Machine.run_concat_iff.mpr ⟨c.mailbox, hrun, ?_⟩⟩, fun _ => rfl⟩
  simp only [Mailbox.step, Mailbox.stop, ho]
  rfl

/-- Something happens in the mailbox. -/
theorem mailed (h : MailboxInv capacity c) {e : Mailbox.Event} {mailbox : Mailbox}
    {sent : List Output} (hm : c.mailbox.step e = some mailbox)
    (hbusy : c.inFrame = true → mailbox.owner = .receiving) :
    MailboxInv capacity { c with mailbox, sent } := by
  obtain ⟨es, hrun⟩ := h.run
  exact ⟨hbusy, ⟨es ++ [e], Machine.run_concat_iff.mpr ⟨c.mailbox, hrun, hm⟩⟩,
    (Mailbox.step_of_eq_some hm).queue_eq_nil h.halted⟩

theorem move (h : MailboxInv capacity c) (hm : Move g n ev c c') (ho : OffersOf g n c) :
    MailboxInv capacity c' := by
  cases hm with
  | same | tooLong => exact h
  | rejected => exact h.of_same rfl h.busy
  | agreed hl | opened hl =>
    have howner := owner_of_listens hl
    exact h.of_same rfl fun _ => howner
  | replied | enqueued | released => exact h.of_same rfl nofun
  | offered hl => exact h.of_same rfl fun _ => h.busy (by simp [Connection.inFrame, hl])
  | replyFailed hl | turnedAway hl =>
    exact h.leave (h.busy (by simp [Connection.inFrame, hl])) true
  | refused hi =>
    have hloop := ho _ (List.mem_of_getElem? hi)
    exact h.leave (h.busy (by simp [Connection.inFrame, hloop])) true
  | hungUp _ hl => exact h.leave (owner_of_listens hl) false
  | @mailed event _ mailbox hm hl he hf =>
    refine h.mailed hm fun hbusy => ?_
    have hcaller : isOwnerEvent event = false :=
      Bool.eq_false_iff.mpr fun howner => by simp [Connection.inFrame, hf howner] at hbusy
    rw [owner_of_call hm he hcaller]
    exact h.busy hbusy
  | @mailedLast event _ mailbox hm hl hstopped =>
    have hinv : MailboxInv capacity
        { c with mailbox, sent := c.sent ++ pushedSince c.mailbox mailbox } :=
      h.mailed hm fun hbusy => by simp [Connection.inFrame, hl] at hbusy
    exact hinv.of_same (Mailbox.halt_eq_self (hinv.halted hstopped) hstopped)
      (by simp [Connection.inFrame, Connection.leave])

end MailboxInv

/-- The mailbox of a connection makes a run of its own. -/
theorem mailbox_run (h₀ : create config entropy = .ok g₀) (h : g₀.run? events = some g) {n : Nat}
    {c : Connection} (hc : g.connections[n]? = some c) :
    ∃ es, (Mailbox.empty config.outboundBuffer).run? es = some c.mailbox := by
  have hinv := connection_induction (n := n)
    (motive := fun _ o => ∀ c ∈ o, MailboxInv config.outboundBuffer c) h₀ ?_ ?_ ?_ ?_ h
  · exact (hinv c hc).run
  · intro c hc
    cases hc
  · intro _ _ _ _ _ _ _ _ c hc
    cases hc
  · intro es t u ev id serial hrun hstep hn ih c hc
    obtain rfl := Option.some.inj hc
    rw [config_eq_of_run h₀ hrun]
    exact ⟨nofun, ⟨[], rfl⟩, nofun⟩
  · intro es t u ev c c' hrun hstep hframe hc ih hm d hd
    obtain rfl := Option.some.inj hd
    exact (ih c rfl).move hm (hframe.offersOf hc)

/-- What an event in a mailbox does there. If it ends the owner, the task leaves. -/
theorem mailbox_of_step {n : Nat} {c : Connection} {e : Mailbox.Event}
    (hstep : g.step (.mailbox n e) = some g') (hc : g.connections[n]? = some c) :
    ∃ c' m, g'.connections[n]? = some c' ∧ c'.serial = c.serial ∧ c.mailbox.step e = some m ∧
      (c'.mailbox = m ∨ m.owner = .stopped ∧ c'.mailbox = m.halt) := by
  obtain ⟨hlt, -⟩ := List.getElem?_eq_some_iff.mp hc
  cases step_of_eq_some hstep with
  | mailed hc' _ _ hm _ =>
    obtain rfl := Option.some.inj (hc'.symm.trans hc)
    exact ⟨_, _, List.getElem?_set_self hlt, rfl, hm, .inl rfl⟩
  | mailedLast hc' _ hm _ ho =>
    obtain rfl := Option.some.inj (hc'.symm.trans hc)
    exact ⟨_, _, List.getElem?_set_self hlt, rfl, hm, .inr ⟨ho, rfl⟩⟩

/-- Events in one mailbox are a run of that mailbox. -/
theorem mailbox_of_run {n : Nat} {c : Connection} {es : List Mailbox.Event}
    (h : g.run? (es.map (.mailbox n)) = some g') (hc : g.connections[n]? = some c)
    (hq : c.mailbox.owner = .stopped → c.mailbox.queue = []) :
    ∃ c', g'.connections[n]? = some c' ∧ c.mailbox.run? es = some c'.mailbox := by
  induction es generalizing g c with
  | nil =>
    cases h
    exact ⟨c, hc, rfl⟩
  | cons e es ih =>
    obtain ⟨g₁, hstep, hrest⟩ := Machine.run_cons_iff.mp h
    obtain ⟨c₁, m, hc₁, -, hm, hsame⟩ := mailbox_of_step hstep hc
    have hq₁ := (Mailbox.step_of_eq_some hm).queue_eq_nil hq
    obtain rfl : c₁.mailbox = m := by
      rcases hsame with hsame | ⟨ho, hhalt⟩
      · exact hsame
      · exact hhalt.trans (Mailbox.halt_eq_self (hq₁ ho) ho)
    obtain ⟨c', hc', hrun⟩ := ih hrest hc₁ hq₁
    exact ⟨c', hc', Machine.run_cons_iff.mpr ⟨_, hm, hrun⟩⟩

/-! ## Entries -/

/-- A connection keeps its identifier and its serial. -/
theorem Move.identity {n : Nat} {c c' : Connection} (h : Move g n ev c c') :
    c'.id = c.id ∧ c'.serial = c.serial := by
  cases h <;> exact ⟨rfl, rfl⟩

/-- Entries belong to connections, and serials are issued one after the other. -/
structure EntryInv (g : Gateway) : Prop where
  next : g.registry.nextSerial = UInt64.ofNat (g.connections.length + 1)
  serial : ∀ (n : Nat) c, g.connections[n]? = some c → c.serial = UInt64.ofNat (n + 1)
  entry : ∀ id handle, g.registry.directory.find? id = some handle →
    ∃ (n : Nat) (c : Connection), g.connections[n]? = some c ∧ c.id = id ∧
      c.serial = handle.serial

namespace EntryInv

theorem start (h : create config entropy = .ok g) : EntryInv g := by
  obtain ⟨-, rfl⟩ := gateway_of_create h
  refine ⟨rfl, fun n c hc => ?_, fun id handle hfound => ?_⟩
  · rw [List.getElem?_nil] at hc
    cases hc
  · simp [Registry.empty, Directory.find?, Directory.empty] at hfound

/-- No connection is new, and no entry is. -/
theorem of_moves (h : EntryInv g) (hs : Step g ev g')
    (hlength : g'.connections.length = g.connections.length)
    (hnext : g'.registry.nextSerial = g.registry.nextSerial)
    (hentry : ∀ id handle, g'.registry.directory.find? id = some handle →
      g.registry.directory.find? id = some handle) : EntryInv g' := by
  refine ⟨by rw [hnext, hlength, h.next], fun n c' hc' => ?_, fun id handle hfound => ?_⟩
  · obtain ⟨hlt, -⟩ := List.getElem?_eq_some_iff.mp hc'
    obtain ⟨c'', hc'', hmove⟩ := hs.connection (List.getElem?_eq_getElem (hlength ▸ hlt))
    obtain rfl := Option.some.inj (hc''.symm.trans hc')
    rw [hmove.identity.2]
    exact h.serial n _ (List.getElem?_eq_getElem (hlength ▸ hlt))
  · obtain ⟨n, c, hc, hid, hserial⟩ := h.entry id handle (hentry id handle hfound)
    obtain ⟨c', hc', hmove⟩ := hs.connection hc
    exact ⟨n, c', hc', hmove.identity.1.trans hid, hmove.identity.2.trans hserial⟩

/-- A client connects. -/
theorem accepted (h : EntryInv g) {id : String} {remote : SocketAddr} (c : Connection)
    (hid : c.id = id) (hserial : c.serial = g.registry.nextSerial) :
    EntryInv { g with
      registry := g.registry.issueSerial.2.add id ⟨g.registry.issueSerial.1, remote, 0⟩
      connections := g.connections ++ [c] } := by
  have hlast : (g.connections ++ [c])[g.connections.length]? = some c := List.getElem?_concat_length
  refine ⟨?_, fun n d hd => ?_, fun k handle hfound => ?_⟩
  · show g.registry.nextSerial + 1 = UInt64.ofNat ((g.connections ++ [c]).length + 1)
    rw [h.next, List.length_append, List.length_singleton, UInt64.ofNat_add (_ + 1)]
    rfl
  · rcases Machine.eq_or_of_newcomer hd with hd | ⟨rfl, rfl⟩
    · exact h.serial n d hd
    · rw [hserial, h.next]
  · have hfound : (g.registry.directory.add id
        ⟨g.registry.nextSerial, remote, 0⟩).find? k = some handle := hfound
    rw [Directory.find?_add] at hfound
    split at hfound
    case isTrue heq =>
      obtain rfl := Option.some.inj hfound
      exact ⟨_, c, hlast, hid.trans heq, hserial⟩
    case isFalse =>
      obtain ⟨n, d, hd, hid, hserial⟩ := h.entry k handle hfound
      exact ⟨n, d, Machine.getElem?_newcomer hd, hid, hserial⟩

theorem step (h : EntryInv g) (hs : Step g ev g') : EntryInv g' := by
  have hkept := h.of_moves hs
  cases hs with
  | accepted hs => exact h.accepted _ rfl rfl
  | @released n c hc hl =>
    refine hkept (List.length_set ..) rfl fun id handle hfound => ?_
    have hfound : (g.registry.directory.release c.id c.serial).find? id = some handle := hfound
    rw [Directory.find?_release] at hfound
    split at hfound
    · cases hfound
    · exact hfound
  | @removed id =>
    refine hkept rfl rfl fun k handle hfound => ?_
    have hfound : (g.registry.directory.remove id).find? k = some handle := hfound
    rw [Directory.find?_remove] at hfound
    split at hfound
    · cases hfound
    · exact hfound
  | agreed | opened | rejected | replied | replyFailed | turnedAway | offered | enqueued | refused
  | mailed | mailedLast | hungUp | noticed => exact hkept (List.length_set ..) rfl fun _ _ => id
  | _ => exact hkept rfl rfl fun _ _ => id

theorem run (h₀ : create config entropy = .ok g₀) (h : g₀.run? events = some g) : EntryInv g :=
  Machine.run_invariant (f := Gateway.step) (start h₀)
    (fun _ _ _ hinv hstep => hinv.step (step_of_eq_some hstep)) h

/-- Serials tell connections apart as long as they do not run out. -/
theorem eq_of_serial (h : EntryInv g) (hfew : g.connections.length < UInt64.size) {n k : Nat}
    {c d : Connection} (hc : g.connections[n]? = some c) (hd : g.connections[k]? = some d)
    (heq : c.serial = d.serial) : n = k := by
  obtain ⟨hn, -⟩ := List.getElem?_eq_some_iff.mp hc
  obtain ⟨hk, -⟩ := List.getElem?_eq_some_iff.mp hd
  rw [h.serial n c hc, h.serial k d hd] at heq
  have hnat := congrArg UInt64.toNat heq
  rw [UInt64.toNat_ofNat_of_lt' (by omega), UInt64.toNat_ofNat_of_lt' (by omega)] at hnat
  omega

end EntryInv

end SealedGateway.Gateway
