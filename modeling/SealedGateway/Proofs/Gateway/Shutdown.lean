import SealedGateway.Proofs.Gateway.Server

/-!
# How the server ends

The server closes the pool when all tasks of connections have ended, and not before. So no message
is refused, and none is lost on its way into the pool; and when the server returns, no entry of the
registry is left. What stays behind in the queue was accepted all the same: it is what the teardown
of the pool drops.

- **`Step.alive`**: who submits a message, or waits for the pool, has not ended. **`Step.quiet`**:
  where all tasks have ended, nothing is accepted any more.
- **`Owned`**: an entry of the registry is that of a connection which has not ended.
- **`ShutdownInv`** is the invariant of a run, `ShutdownInv.step` its step.
- **`EndsPublishing`**: the broker is told once that it is over, after its last publication.
- **`shutdown_in_order`** has all of it for a run.
-/

namespace SealedGateway

theorem Connection.inHand_of_ended {c : Connection} (h : c.loop = .ended) : c.inHand = [] := by
  rw [inHand, h]

namespace Gateway

variable {g g' : Gateway} {ev : Event} {n : Nat} {c c' : Connection}

/-! ## Tasks that have ended -/

theorem allEnded_iff :
    g.allEnded = true ↔ ∀ (n : Nat) c, g.connections[n]? = some c → c.loop = .ended := by
  simp only [allEnded, List.all_eq_true, decide_eq_true_eq]
  constructor
  · exact fun h n c hc => h c (List.mem_of_getElem? hc)
  · intro h c hc
    obtain ⟨n, hn⟩ := List.mem_iff_getElem?.mp hc
    exact h n c hn

/-- A task that has ended does nothing more. -/
theorem Move.ended (h : Move g n ev c c') (ho : OffersOf g n c) (hl : c.loop = .ended) :
    c'.loop = .ended ∧ c'.accepted = c.accepted := by
  cases h with
  | same | tooLong | rejected | mailed => exact ⟨hl, rfl⟩
  | agreed hlisten | opened hlisten | hungUp _ hlisten =>
    rw [Connection.loop_of_listens hlisten] at hl
    cases hl
  | replied h | replyFailed h | turnedAway h | offered h | mailedLast _ h | released h =>
    rw [h] at hl
    cases hl
  | enqueued h | refused h =>
    rw [ho _ (List.mem_of_getElem? h)] at hl
    cases hl

/-- A task ends by releasing its entry. -/
theorem Move.ends (h : Move g n ev c c') (hl : c.loop ≠ .ended) (hev : ev ≠ .release n) :
    c'.loop ≠ .ended := by
  cases h with
  | same | tooLong | rejected | mailed => exact hl
  | released => exact absurd rfl hev
  | _ => exact nofun

theorem Step.length_connections (hs : Step g ev g')
    (haccept : ∀ name fresh remote, ev ≠ .accept name fresh remote) :
    g'.connections.length = g.connections.length := by
  cases hs with
  | accepted _ => exact absurd rfl (haccept _ _ _)
  | agreed | opened | rejected | replied | replyFailed | turnedAway | offered | enqueued | refused
  | mailed | mailedLast | hungUp | noticed | released => exact List.length_set ..
  | _ => rfl

/-- Whoever submits a message, or waits for the pool with one, has not ended. -/
theorem Step.alive (hs : Step g ev g') (hf : FrameInv g)
    (hev : (∃ n, ev = .submit n) ∨ (∃ i, ev = .enqueue i) ∨ ∃ i, ev = .refuse i) :
    g.allEnded = false := by
  refine Bool.eq_false_iff.mpr fun hended => ?_
  have hended := allEnded_iff.mp hended
  have hoffer {i : Nat} {d : Delivery} (ho : g.pool.offers[i]? = some d) : False := by
    obtain ⟨c, hc, hloop⟩ := hf.offers d (List.mem_of_getElem? ho)
    rw [hended _ c hc] at hloop
    cases hloop
  rcases hev with ⟨n, rfl⟩ | ⟨i, rfl⟩ | ⟨i, rfl⟩
  · cases hs with
    | turnedAway hc hl _ | offered hc hl _ =>
      rw [hended _ _ hc] at hl
      cases hl
  · cases hs with
    | enqueued ho _ _ => exact hoffer ho
  · cases hs with
    | refused ho _ _ => exact hoffer ho

/-- Where all tasks have ended and none comes, nothing is accepted any more. -/
theorem Step.quiet (hs : Step g ev g') (hf : FrameInv g) (hended : g.allEnded = true)
    (haccept : ∀ name fresh remote, ev ≠ .accept name fresh remote) :
    g'.allEnded = true ∧ g'.pool.accepted = g.pool.accepted ∧
      ∀ (n : Nat) c', g'.connections[n]? = some c' →
        ∃ c, g.connections[n]? = some c ∧ c'.accepted = c.accepted := by
  have hmoved (n : Nat) (c' : Connection) (hc' : g'.connections[n]? = some c') :
      ∃ c, g.connections[n]? = some c ∧ c'.loop = .ended ∧ c'.accepted = c.accepted := by
    obtain ⟨hlt, -⟩ := List.getElem?_eq_some_iff.mp hc'
    rw [hs.length_connections haccept] at hlt
    have hc := List.getElem?_eq_getElem hlt
    obtain ⟨c'', hc'', hmove⟩ := hs.connection hc
    obtain rfl := Option.some.inj (hc''.symm.trans hc')
    exact ⟨_, hc, hmove.ended (hf.offersOf hc) (allEnded_iff.mp hended n _ hc)⟩
  refine ⟨allEnded_iff.mpr fun n c' hc' => ?_, hs.pool_accepted fun i hi => ?_, fun n c' hc' => ?_⟩
  · obtain ⟨-, -, hloop, -⟩ := hmoved n c' hc'
    exact hloop
  · rw [hs.alive hf (.inr (.inl ⟨i, hi⟩))] at hended
    cases hended
  · obtain ⟨c, hc, -, haccepted⟩ := hmoved n c' hc'
    exact ⟨c, hc, haccepted⟩

/-! ## The pool -/

/-- The pool is closed by the server when it drains it, or by somebody else, and by nothing that
concerns the pool alone. -/
theorem Step.pool_isClosed_eq (hs : Step g ev g') (hclose : ev ≠ .closePool)
    (hdrain : ev ≠ .drain) : g'.pool.isClosed = g.pool.isClosed := by
  rcases hs.pool with hsame | ⟨e, hpool, hev⟩
  · rw [hsame]
  · refine (Pool.step_of_eq_some hpool).isClosed_eq fun he => ?_
    rcases hev.close he with h | h
    · exact hclose h
    · exact hdrain h

theorem Step.eq_drain (hs : Step g ev g') (hclose : ev ≠ .closePool)
    (hopen : g.pool.isClosed = false) (hclosed : g'.pool.isClosed = true) : ev = .drain := by
  by_contra hdrain
  rw [hs.pool_isClosed_eq hclose hdrain, hopen] at hclosed
  cases hclosed

theorem Step.pool_isReleased_eq (hs : Step g ev g') (hev : ev ≠ .pool .release) :
    g'.pool.isReleased = g.pool.isReleased := by
  rcases hs.pool with hsame | ⟨e, hpool, hconcerns⟩
  · rw [hsame]
  · exact (Pool.step_of_eq_some hpool).isReleased_eq fun he => hev (hconcerns.release he)

theorem Step.pool_isReleased (hs : Step g ev g') (hp : g.pool.isReleased = true) :
    g'.pool.isReleased = true := by
  rcases hs.pool with hsame | ⟨e, hpool, -⟩
  · rwa [hsame]
  · exact (Pool.step_of_eq_some hpool).isReleased hp

/-- If the pool is closed after all tasks have ended, nobody is there to be refused. -/
theorem Step.pool_refused_eq (hs : Step g ev g') (hf : FrameInv g)
    (hclosed : g.pool.isClosed = true → g.allEnded = true) :
    g'.pool.refused = g.pool.refused := by
  rcases hs.pool with hsame | ⟨e, hpool, hev⟩
  · rw [hsame]
  have hp := Pool.step_of_eq_some hpool
  refine hp.refused_eq (fun d hd => Bool.eq_false_iff.mpr fun hc => ?_) fun i hi => ?_
  · have halive := hs.alive hf (.inl ⟨_, hev.submit d hd⟩)
    rw [hclosed hc] at halive
    cases halive
  · have halive := hs.alive hf (.inr (.inr ⟨i, hev.refuse i hi⟩))
    have hcancel : g.pool.isCancelled = true := by
      subst hi
      generalize g'.pool = pool at hp
      cases hp with
      | refused _ hcancel => exact hcancel
    rw [hclosed (Pool.isClosed_of_isCancelled hcancel)] at halive
    cases halive

/-- The broker is told that it is over when the handler of the pool is released. -/
theorem Step.closed_eq_isReleased (hs : Step g ev g') (h : g.broker.closed = g.pool.isReleased) :
    g'.broker.closed = g'.pool.isReleased := by
  have hsame := hs.pool_isReleased_eq
  cases hs with
  | forwarded _ _ =>
    rw [hsame nofun, ← h]
    exact g.broker.forward_closed _
  | pooled _ _ _ _ _ _ _ hrelease =>
    rw [hsame fun heq => hrelease (Event.pool.inj heq)]
    exact h
  | poolReleased hp =>
    cases Pool.step_of_eq_some hp with
    | released _ => rfl
  | _ =>
    rw [hsame nofun]
    exact h

theorem closePool_isClosed (g : Gateway) : g.closePool.pool.isClosed = true := by
  unfold closePool
  cases hp : g.pool.step .close with
  | none =>
    have hbegun : g.pool.teardown ≠ .notBegun := by simpa [Pool.step, Pool.advance] using hp
    simpa [Pool.isClosed] using hbegun
  | some pool =>
    cases Pool.step_of_eq_some hp with
    | closed _ => rfl

/-! ## Entries -/

/-- An entry of the registry is that of a connection which has not ended. -/
def Owned (g : Gateway) : Prop :=
  ∀ id handle, g.registry.directory.find? id = some handle →
    ∃ (n : Nat) (c : Connection), g.connections[n]? = some c ∧ c.id = id ∧
      c.serial = handle.serial ∧ c.loop ≠ .ended

namespace Owned

/-- No entry is new, and no task ends. -/
theorem of_moves (h : Owned g) (hs : Step g ev g') (hev : ∀ n, ev ≠ .release n)
    (hentry : ∀ id handle, g'.registry.directory.find? id = some handle →
      g.registry.directory.find? id = some handle) : Owned g' := by
  intro id handle hfound
  obtain ⟨n, c, hc, hid, hserial, hloop⟩ := h id handle (hentry id handle hfound)
  obtain ⟨c', hc', hmove⟩ := hs.connection hc
  obtain ⟨hid', hserial'⟩ := hmove.identity
  exact ⟨n, c', hc', hid'.trans hid, hserial'.trans hserial, hmove.ends hloop (hev n)⟩

theorem step (h : Owned g) (hs : Step g ev g') : Owned g' := by
  have hkept := h.of_moves hs
  cases hs with
  | @accepted name fresh remote hs =>
    intro id handle hfound
    have hfound : (g.registry.directory.add (identifier g.config name fresh)
        ⟨g.registry.nextSerial, remote, 0⟩).find? id = some handle := hfound
    rw [Directory.find?_add] at hfound
    split at hfound
    case isTrue heq =>
      obtain rfl := Option.some.inj hfound
      exact ⟨_, _, List.getElem?_concat_length, heq, rfl, nofun⟩
    case isFalse =>
      obtain ⟨n, c, hc, howns⟩ := h id handle hfound
      exact ⟨n, c, Machine.getElem?_newcomer hc, howns⟩
  | @released n c hc hl =>
    intro id handle hfound
    have hfound : (g.registry.directory.release c.id c.serial).find? id = some handle := hfound
    rw [Directory.find?_release] at hfound
    split at hfound
    case isTrue => cases hfound
    case isFalse hother =>
      obtain ⟨k, d, hd, hid, hserial, hloop⟩ := h id handle hfound
      -- The task that ends has released the entry if it was its own.
      have hne : n ≠ k := by
        rintro rfl
        obtain rfl := Option.some.inj (hc.symm.trans hd)
        subst hid
        exact hother ⟨Directory.belongs_iff.mpr ⟨handle, hfound, hserial.symm⟩, rfl⟩
      exact ⟨k, d, (List.getElem?_set_ne hne).trans hd, hid, hserial, hloop⟩
  | @removed id =>
    refine hkept nofun fun k handle hfound => ?_
    have hfound : (g.registry.directory.remove id).find? k = some handle := hfound
    rw [Directory.find?_remove] at hfound
    split at hfound
    · cases hfound
    · exact hfound
  | _ => exact hkept nofun fun _ _ => id

/-- Where all tasks have ended, no entry is left. -/
theorem entries_eq_nil (h : Owned g) (hended : g.allEnded = true) :
    g.registry.directory.entries = [] := by
  refine List.eq_nil_iff_forall_not_mem.mpr fun ⟨id, handle⟩ hmem => ?_
  obtain ⟨n, c, hc, -, -, hloop⟩ := h id handle ((Directory.mem_entries _ _ _).mp hmem)
  exact hloop (allEnded_iff.mp hended n c hc)

end Owned

end Gateway

namespace Server

open Gateway (FrameInv ForwardInv Owned Calm messagesFrom)

variable {config : Config} {entropy : Entropy} {g₀ g : Gateway} {s s' : Server} {ev : Event}
  {events : List Event}

/-! ## The order of the end -/

/-- The server ends in order. -/
structure ShutdownInv (s : Server) : Prop where
  open_iff : s.gateway.pool.isClosed = false ↔
    s.gateway.serving = .accepting ∨ s.gateway.serving = .closing
  ended : s.gateway.pool.isClosed = true → s.arriving = [] ∧ s.gateway.allEnded = true
  returned : s.gateway.serving = .returned → s.gateway.pool.isReleased = true
  refused : s.gateway.pool.refused = []
  /-- Nothing is lost on the way into the pool. -/
  delivered : ∀ (n : Nat) c, s.gateway.connections[n]? = some c →
    c.accepted = messagesFrom n s.gateway.pool.accepted ++ c.inHand

namespace ShutdownInv

theorem start (h : Gateway.create config entropy = .ok g₀) : ShutdownInv (start g₀) := by
  obtain ⟨-, rfl⟩ := Gateway.gateway_of_create h
  refine ⟨iff_of_true rfl (.inl rfl), nofun, nofun, rfl, fun n c hc => ?_⟩
  cases hc.symm.trans List.getElem?_nil

/-- As long as a task has not made its entry, the pool is open. -/
theorem open_of_arriving (h : ShutdownInv s) (ha : s.arriving ≠ []) :
    s.gateway.pool.isClosed = false :=
  Bool.eq_false_iff.mpr fun hc => ha (h.ended hc).1

/-- The pool is open until the server drains it. -/
theorem open_iff_moved (h : ShutdownInv s) {e : Gateway.Event} (hg : Gateway.Step s.gateway e g)
    (he : e ≠ .closePool) :
    g.pool.isClosed = false ↔ g.serving = .accepting ∨ g.serving = .closing := by
  have hpool := hg.pool_isClosed_eq he
  have hopen := h.open_iff
  cases hg with
  | poolClosed => exact absurd rfl he
  | shutDown hs => exact iff_of_true (hopen.mpr (.inl hs)) (.inr rfl)
  | drained hs hended =>
    have hp := hopen.mpr (.inr hs)
    exact iff_of_false (by simp [Gateway.closePool_isClosed]) (by simp [hp])
  | finished hs hreleased =>
    exact iff_of_false (fun hp => by simpa [hs] using hopen.mp hp) (by simp)
  | _ =>
    rw [hpool nofun]
    exact hopen

/-- When an event of the gateway closes the pool, no task is left. -/
theorem ended_moved (h : ShutdownInv s) (hf : FrameInv s.gateway) {e : Gateway.Event}
    (hg : Gateway.Step s.gateway e g) (he : e ≠ .closePool)
    (haccept : ∀ name fresh remote, e ≠ .accept name fresh remote)
    (hdrain : e = .drain → s.arriving = []) (hc : g.pool.isClosed = true) :
    s.arriving = [] ∧ g.allEnded = true := by
  cases hclosed : s.gateway.pool.isClosed with
  | true =>
    obtain ⟨ha, hended⟩ := h.ended hclosed
    exact ⟨ha, (hg.quiet hf hended haccept).1⟩
  | false =>
    -- It was the server itself that closed the pool just now.
    obtain rfl := hg.eq_drain he hclosed hc
    cases hg with
    | drained _ hended => exact ⟨hdrain rfl, hended⟩

/-- The server returns when the handler of the pool is released, because it has found the pool
open. -/
theorem returned_moved (h : ShutdownInv s) {e : Gateway.Event} (hg : Gateway.Step s.gateway e g)
    (hreturned : g.serving = .returned) : g.pool.isReleased = true := by
  have hkept := hg.pool_isReleased
  cases hg with
  | shutDown hs => cases hreturned
  | drained hs hended =>
    have hp := h.open_iff.mpr (.inr hs)
    simp [hp] at hreturned
  | finished hs hreleased => exact hreleased
  | _ => exact hkept (h.returned hreturned)

/-- Nothing is lost, because a task that the pool refuses would be one that has not ended. -/
theorem delivered_moved (h : ShutdownInv s) (hf : FrameInv s.gateway) (hforward : ForwardInv g)
    {e : Gateway.Event} (hg : Gateway.Step s.gateway e g) (he : e ≠ .closePool)
    (haccept : ∀ name fresh remote, e ≠ .accept name fresh remote)
    {n : Nat} {c : Connection} (hc : g.connections[n]? = some c) :
    c.accepted = messagesFrom n g.pool.accepted ++ c.inHand := by
  cases hc' : g.pool.isClosed with
  | false => exact (hforward.flow n c hc).of_open hc'
  | true =>
    cases hclosed : s.gateway.pool.isClosed with
    | false =>
      obtain rfl := hg.eq_drain he hclosed hc'
      rw [hg.pool_accepted nofun]
      cases hg with
      | drained _ _ => exact h.delivered n c hc
    | true =>
      obtain ⟨-, hended⟩ := h.ended hclosed
      obtain ⟨hended', hpool, hsame⟩ := hg.quiet hf hended haccept
      obtain ⟨d, hd, haccepted⟩ := hsame n c hc
      have hdelivered := h.delivered n d hd
      rw [Connection.inHand_of_ended (Gateway.allEnded_iff.mp hended n d hd)] at hdelivered
      rw [haccepted, hdelivered, hpool,
        Connection.inHand_of_ended (Gateway.allEnded_iff.mp hended' n c hc)]

theorem step (h : ShutdownInv s) (hf : FrameInv s.gateway) (hforward : ForwardInv s'.gateway)
    (hs : Step s ev s') (hev : ev ≠ .gateway .closePool) : ShutdownInv s' := by
  cases hs with
  | arrived hserving =>
    have hopen := h.open_iff.mpr (.inl hserving)
    refine ⟨h.open_iff, fun hc => ?_, h.returned, h.refused, h.delivered⟩
    cases hopen.symm.trans hc
  | @registered i a g ha hg =>
    have hopen := h.open_of_arriving (List.ne_nil_of_mem (List.mem_of_getElem? ha))
    cases hg with
    | accepted _ =>
      refine ⟨h.open_iff, fun hc => ?_, h.returned, h.refused, fun n c hc => ?_⟩
      · cases hopen.symm.trans hc
      · exact (hforward.flow n c hc).of_open hopen
  | @moved e g hg haccept hdrain =>
    have he : e ≠ .closePool := fun heq => hev (congrArg Event.gateway heq)
    exact ⟨h.open_iff_moved hg he, h.ended_moved hf hg he haccept hdrain, h.returned_moved hg,
      (hg.pool_refused_eq hf fun hc => (h.ended hc).2).trans h.refused,
      fun n c hc => h.delivered_moved hf hforward hg he haccept hc⟩

end ShutdownInv

/-! ## Runs -/

theorem run_forwardInv (h₀ : Gateway.create config entropy = .ok g₀)
    (h : (start g₀).run? events = some s) : FrameInv s.gateway ∧ ForwardInv s.gateway :=
  run_keeps (P := fun g => FrameInv g ∧ ForwardInv g) ⟨.start h₀, .start h₀⟩
    (fun _ _ ⟨hf, hforward⟩ => ⟨⟨hf.balanced, hf.offers, hf.nodup, hf.broke⟩,
      ⟨hforward.asked, hforward.origin, hforward.flow⟩⟩)
    (fun _ _ _ ⟨hf, hforward⟩ hs => ⟨hf.step hs, hforward.step hf hs⟩) h

theorem run_calm (h₀ : Gateway.create config entropy = .ok g₀)
    (h : (start g₀).run? events = some s) :
    config.pool.fault? = none ∧ Calm config.pool s.gateway.pool := by
  obtain ⟨hfault, hg₀⟩ := Gateway.gateway_of_create h₀
  exact ⟨hfault, run_keeps (P := fun g => Calm config.pool g.pool) ⟨[], by simp, by rw [hg₀]; rfl⟩
    (fun _ _ => id) (fun _ _ _ hcalm hs => hcalm.step hs) h⟩

theorem run_closed (h₀ : Gateway.create config entropy = .ok g₀)
    (h : (start g₀).run? events = some s) :
    s.gateway.broker.closed = s.gateway.pool.isReleased := by
  obtain ⟨-, rfl⟩ := Gateway.gateway_of_create h₀
  exact run_keeps (P := fun g => g.broker.closed = g.pool.isReleased) rfl (fun _ _ => id)
    (fun _ _ _ hclosed hs => hs.closed_eq_isReleased hclosed) h

theorem run_owned (h₀ : Gateway.create config entropy = .ok g₀)
    (h : (start g₀).run? events = some s) : Owned s.gateway := by
  obtain ⟨-, rfl⟩ := Gateway.gateway_of_create h₀
  refine run_keeps (P := Owned) (fun id handle hfound => ?_) (fun _ _ => id)
    (fun _ _ _ howned hs => howned.step hs) h
  simp [Registry.empty, Directory.find?, Directory.empty] at hfound

theorem ShutdownInv.run (h₀ : Gateway.create config entropy = .ok g₀)
    (h : (Server.start g₀).run? events = some s) (halone : .gateway .closePool ∉ events) :
    ShutdownInv s := by
  refine Machine.run_induction (f := Server.step)
    (motive := fun es s => .gateway .closePool ∉ es → ShutdownInv s) (fun _ => start h₀) ?_ h halone
  intro es e t u hrun ih hstep halone
  simp only [List.mem_append, List.mem_singleton, not_or] at halone
  have hafter : (Server.start g₀).run? (es ++ [e]) = some u :=
    Machine.run_concat_iff.mpr ⟨t, hrun, hstep⟩
  exact (ih halone.1).step (run_forwardInv h₀ hrun).1 (run_forwardInv h₀ hafter).2
    (step_of_eq_some hstep) fun heq => halone.2 heq.symm

/-- Whether the server takes a connection. -/
def Event.isArrival : Event → Bool
  | .arrive _ => true
  | .register _ | .gateway _ => false

/-- Every connection that was taken has made its entry, or is on its way. -/
theorem countP_isArrival (h₀ : Gateway.create config entropy = .ok g₀)
    (h : (start g₀).run? events = some s) :
    events.countP Event.isArrival = s.gateway.connections.length + s.arriving.length := by
  refine Machine.run_induction (f := step) (motive := fun es s =>
    es.countP Event.isArrival = s.gateway.connections.length + s.arriving.length) ?_ ?_ h
  · obtain ⟨-, rfl⟩ := Gateway.gateway_of_create h₀
    rfl
  intro es e t u _ ih hstep
  rw [List.countP_append, ih]
  cases step_of_eq_some hstep with
  | arrived _ => simp [Event.isArrival, Nat.add_assoc]
  | registered ha hg =>
    obtain ⟨hlt, -⟩ := List.getElem?_eq_some_iff.mp ha
    cases hg with
    | accepted _ =>
      simp only [Event.isArrival, List.countP_cons, List.countP_nil, List.length_append,
        List.length_cons, List.length_nil, List.length_eraseIdx_of_lt hlt, Bool.false_eq_true,
        ↓reduceIte]
      omega
  | moved hg haccept _ =>
    rw [hg.length_connections haccept]
    rfl

/-! ## The last publication -/

/-- The handler of the pool is released by the notice to the broker, and by nothing else. -/
theorem Step.isReleased_eq (hs : Step s ev s') (hev : ev ≠ .gateway (.pool .release)) :
    s'.gateway.pool.isReleased = s.gateway.pool.isReleased := by
  cases hs with
  | arrived _ => rfl
  | registered _ hg => exact hg.pool_isReleased_eq nofun
  | moved hg _ _ => exact hg.pool_isReleased_eq fun heq => hev (congrArg Event.gateway heq)

theorem Step.isReleased_of_release (hs : Step s (.gateway (.pool .release)) s') :
    s.gateway.pool.isReleased = false ∧ s'.gateway.pool.isReleased = true := by
  cases hs with
  | moved hg _ _ =>
    cases hg with
    | pooled _ _ _ _ _ _ _ hrelease => exact absurd rfl hrelease
    | poolReleased hp =>
      cases Pool.step_of_eq_some hp with
      | released ht => exact ⟨by rw [Pool.isReleased, ht]; rfl, rfl⟩

/-- A worker that forwards a message has not ended, so the handler is not released. -/
theorem Step.isReleased_of_forward {w : Nat} (hs : Step s (.gateway (.forward w)) s')
    (hsize : Pool.SizeInv config.pool s.gateway.pool) : s.gateway.pool.isReleased = false := by
  have hsaw : s.gateway.pool.sawEnd = false := by
    cases hs with
    | moved hg _ _ =>
      cases hg with
      | forwarded hw _ =>
        obtain ⟨v, hv, hstage⟩ := Pool.stage?_eq_some_iff.mp hw
        exact hsize.sawEnd_eq_false hv (by simp [Worker.finished, hstage])
  refine Bool.eq_false_iff.mpr fun hp => ?_
  rw [Pool.sawEnd_of_isReleased hp] at hsaw
  cases hsaw

/-- The broker is told once that it is over, and no worker forwards a message after that. -/
def EndsPublishing (events : List Event) : Prop :=
  ∃ before after, events = before ++ .gateway (.pool .release) :: after ∧
    .gateway (.pool .release) ∉ before ∧ .gateway (.pool .release) ∉ after ∧
      ∀ w, .gateway (.forward w) ∉ after

theorem EndsPublishing.concat (h : EndsPublishing events)
    (hrelease : ev ≠ .gateway (.pool .release))
    (hforward : ∀ w, ev ≠ .gateway (.forward w)) : EndsPublishing (events ++ [ev]) := by
  obtain ⟨before, after, rfl, hone, hnone, hlast⟩ := h
  refine ⟨before, after ++ [ev], by rw [List.append_assoc, List.cons_append], hone, ?_, fun w => ?_⟩
  · rw [List.mem_append, List.mem_singleton, not_or]
    exact ⟨hnone, Ne.symm hrelease⟩
  · rw [List.mem_append, List.mem_singleton, not_or]
    exact ⟨hlast w, Ne.symm (hforward w)⟩

theorem run_sizeInv (h₀ : Gateway.create config entropy = .ok g₀)
    (h : (start g₀).run? events = some s) : Pool.SizeInv config.pool s.gateway.pool := by
  obtain ⟨hfault, es, -, hpool⟩ := run_calm h₀ h
  exact (Pool.SizeInv.start hfault).run hpool

theorem endsPublishing_of_run (h₀ : Gateway.create config entropy = .ok g₀)
    (h : (start g₀).run? events = some s) :
    (s.gateway.pool.isReleased = false → .gateway (.pool .release) ∉ events) ∧
      (s.gateway.pool.isReleased = true → EndsPublishing events) := by
  refine Machine.run_induction (f := step) (motive := fun es s =>
    (s.gateway.pool.isReleased = false → .gateway (.pool .release) ∉ es) ∧
      (s.gateway.pool.isReleased = true → EndsPublishing es)) ?_ ?_ h
  · obtain ⟨-, rfl⟩ := Gateway.gateway_of_create h₀
    exact ⟨fun _ => List.not_mem_nil, nofun⟩
  intro es e t u hrun ⟨hbefore, hafter⟩ hstep
  have hs := step_of_eq_some hstep
  by_cases hev : e = .gateway (.pool .release)
  · subst hev
    obtain ⟨hfresh, hreleased⟩ := hs.isReleased_of_release
    rw [hreleased]
    exact ⟨nofun, fun _ =>
      ⟨es, [], rfl, hbefore hfresh, List.not_mem_nil, fun _ => List.not_mem_nil⟩⟩
  · rw [hs.isReleased_eq hev]
    refine ⟨fun hp => ?_, fun hp => (hafter hp).concat hev ?_⟩
    · rw [List.mem_append, List.mem_singleton, not_or]
      exact ⟨hbefore hp, Ne.symm hev⟩
    · rintro w rfl
      rw [hs.isReleased_of_forward (run_sizeInv h₀ hrun)] at hp
      cases hp

/-! ## What is left -/

/-- Once all workers have ended, a message that a connection accepted was handed to the broker, or
is left in the queue, or has no channel. -/
theorem accepted_perm (h₀ : Gateway.create config entropy = .ok g₀)
    (h : (start g₀).run? events = some s) (hinv : ShutdownInv s)
    (hsaw : s.gateway.pool.sawEnd = true) {n : Nat} {c : Connection}
    (hc : s.gateway.connections[n]? = some c) :
    c.accepted.Perm (s.gateway.askedFrom n ++
      ((messagesFrom n s.gateway.pool.queue).filter (fun m => m.audience.channel.isSome) ++
        c.accepted.filter fun m => m.audience.channel.isNone)) := by
  obtain ⟨-, es, hcalm, hpool⟩ := run_calm h₀ h
  have hjobs : Pool.JobInv s.gateway.pool := .run hcalm hpool
  obtain ⟨-, hended⟩ := hinv.ended (Pool.isClosed_of_sawEnd hsaw)
  have hidle : s.gateway.pool.inFlight = [] :=
    (Pool.run_sawEnd (run_sizeInv h₀ h) hsaw (rfl : s.gateway.pool.run? [] = _)).1
  have hstarted : s.gateway.pool.started.Perm (s.gateway.pool.handled.map Prod.fst) := by
    have hplaces := hjobs.started
    rwa [hidle] at hplaces
  have hall : c.accepted = messagesFrom n s.gateway.pool.started ++
      messagesFrom n s.gateway.pool.queue := by
    rw [← Gateway.messagesFrom_append, ← hjobs.accepted, hinv.delivered n c hc,
      Connection.inHand_of_ended (Gateway.allEnded_iff.mp hended n c hc), List.append_nil]
  have hasked : s.gateway.askedFrom n =
      (messagesFrom n (s.gateway.pool.handled.map Prod.fst)).filter
        fun m => m.audience.channel.isSome := by
    rw [(run_forwardInv h₀ h).2.askedFrom_eq]
    exact List.filter_congr fun m _ => Option.isSome_map
  have hsplit : (c.accepted.filter fun m => m.audience.channel.isSome).Perm
      (s.gateway.askedFrom n ++
        (messagesFrom n s.gateway.pool.queue).filter fun m => m.audience.channel.isSome) := by
    rw [hasked, hall, List.filter_append]
    exact (((hstarted.filter _).map _).filter _).append_right _
  have hnone : (fun m : Message => m.audience.channel.isNone) =
      fun m => !m.audience.channel.isSome := funext fun m => by rw [Option.not_isSome]
  rw [hnone]
  calc
    c.accepted.Perm ((c.accepted.filter fun m => m.audience.channel.isSome) ++
        c.accepted.filter fun m => !m.audience.channel.isSome) :=
      (List.filter_append_perm _ _).symm
    List.Perm _ (s.gateway.askedFrom n ++
        ((messagesFrom n s.gateway.pool.queue).filter fun m => m.audience.channel.isSome) ++
          c.accepted.filter fun m => !m.audience.channel.isSome) := hsplit.append_right _
    List.Perm _ _ := .of_eq (List.append_assoc _ _ _)

/-- **The server ends in order.** In every run in which nobody but the server closes the pool, no
submission is refused, because the pool is closed only after all tasks of connections have ended.
Once the teardown has seen all workers end, none is left; the messages that a connection accepted
and that were not handed to the broker are those of its messages that are left in the queue, which
is no longer than it may be, and those without a channel. When the server has returned, it has come
that far, every connection that it ever took has ended and no entry of the registry is left; and the
broker was told once that it is over, after its last publication. -/
theorem shutdown_in_order (h₀ : Gateway.create config entropy = .ok g₀)
    (h : (start g₀).run? events = some s) (halone : .gateway .closePool ∉ events) :
    s.gateway.pool.refused = [] ∧
    (s.gateway.pool.isClosed = true →
      s.arriving = [] ∧ ∀ c ∈ s.gateway.connections, c.loop = .ended) ∧
    (s.gateway.pool.sawEnd = true →
      s.gateway.pool.workerCount = 0 ∧ (∀ w ∈ s.gateway.pool.workers, w.finished = true) ∧
      s.gateway.pool.queue.length ≤ config.pool.queueSize ∧
      ∀ (n : Nat) c, s.gateway.connections[n]? = some c →
        c.accepted.Perm (s.gateway.askedFrom n ++
          ((messagesFrom n s.gateway.pool.queue).filter (fun m => m.audience.channel.isSome) ++
            c.accepted.filter fun m => m.audience.channel.isNone))) ∧
    (s.gateway.serving = .returned →
      s.gateway.pool.isClosed = true ∧ s.gateway.pool.sawEnd = true ∧
      s.gateway.connections.length = events.countP Event.isArrival ∧
      s.gateway.registry.directory.entries = [] ∧
      s.gateway.broker.closed = true ∧ EndsPublishing events) := by
  have hinv : ShutdownInv s := .run h₀ h halone
  refine ⟨hinv.refused, fun hclosed => ?_, fun hsaw => ?_, fun hreturned => ?_⟩
  · obtain ⟨ha, hended⟩ := hinv.ended hclosed
    exact ⟨ha, by simpa [Gateway.allEnded] using hended⟩
  · have hsize := run_sizeInv h₀ h
    obtain ⟨-, es, hcalm, hpool⟩ := run_calm h₀ h
    have hjobs : Pool.JobInv s.gateway.pool := .run hcalm hpool
    exact ⟨hsize.workerCount_eq_zero (Pool.tookOver_of_sawEnd hsaw), (hsize.ended hsaw).2,
      hsize.sizing_eq ▸ hjobs.length_queue, fun n c hc => accepted_perm h₀ h hinv hsaw hc⟩
  · have hreleased := hinv.returned hreturned
    have hsaw := Pool.sawEnd_of_isReleased hreleased
    have hclosed := Pool.isClosed_of_sawEnd hsaw
    obtain ⟨ha, hended⟩ := hinv.ended hclosed
    have hcount := countP_isArrival h₀ h
    rw [ha, List.length_nil, Nat.add_zero] at hcount
    exact ⟨hclosed, hsaw, hcount.symm, (run_owned h₀ h).entries_eq_nil hended,
      (run_closed h₀ h).trans hreleased, (endsPublishing_of_run h₀ h).2 hreleased⟩

namespace Sample

open SealedGateway.Sample (client nonce message session keyPairOrGenerate_eq sharedSecret_eq
  canonical length_le)
open Gateway.Sample (connection draws forwarding length_hello oneWorker)

/-- The server is told to end while one connection is on its way and the message of another waits
for the pool. The message enters the queue, and the only worker ends without it. -/
def ending : List Event :=
  [.arrive ⟨some "c2", "", ⟨.v4 ⟨127, 0, 0, 1⟩, 4001⟩⟩, .gateway .shutdown, .register 0] ++
    [.enqueue 0, .notice 0, .notice 1, .release 1, .release 0, .drain, .pool .cancel,
      .pool .collect, .pool (.poll 0), .pool .awaitWorkers, .pool .release,
      .finishServing].map Event.gateway

/-- A message on its way to the pool, and the end of the server. -/
def lateArrival : List Event := (forwarding.take 5).flatMap ofGateway ++ ending

theorem run_lateArrival {size : Nat} (hhello : Gateway.Sample.config.maxFrameSize ≤ size)
    (hframe : SealedGateway.Sample.frame.length ≤ size) :
    ∃ g₀ s c d, Gateway.create (oneWorker size) draws = .ok g₀ ∧
      (start g₀).run? lateArrival = some s ∧ s.gateway.serving = .returned ∧
      s.gateway.connections = [c, d] ∧ c.accepted = [message] ∧
      s.gateway.pool.queue = [⟨0, message⟩] := by
  have hagreed : connection.session.process draws (Client.hello client) = _ :=
    Session.process_hello (keyPairOrGenerate_eq _) sharedSecret_eq
  have hfresh : nonce ∉ (session 4 []).nonces := List.not_mem_nil
  have hopened : (session 4 []).process ⟨[]⟩ SealedGateway.Sample.frame = _ :=
    Session.process_sealedFrame rfl hfresh (Nat.zero_lt_succ _) canonical length_le
  exact ⟨_, _, _, _, rfl, Machine.run_append_iff.mpr ⟨_, run_gateway (Machine.run_cons_iff.mpr
    ⟨_, rfl, Machine.run_cons_iff.mpr ⟨_, Gateway.step_frame_agreed (c := connection) rfl rfl
      (Nat.le_trans length_hello hhello) hagreed, Machine.run_cons_iff.mpr ⟨_, rfl,
        Machine.run_cons_iff.mpr ⟨_, Gateway.step_frame_opened
          (s := { session 4 [] with nonces := [nonce] }) rfl rfl hframe hopened, rfl⟩⟩⟩⟩), rfl⟩,
    rfl, rfl, rfl, rfl⟩

end Sample

/-- A connection that was on its way leaves no entry behind, and the message that was waiting is the
only one that is not handed to the broker. -/
theorem shutdown_in_order_late_arrival : ∃ g₀ s c d,
    Gateway.create
      (Gateway.Sample.oneWorker
        (Gateway.Sample.config.maxFrameSize + SealedGateway.Sample.frame.length))
      Gateway.Sample.draws = .ok g₀ ∧ (start g₀).run? Sample.lateArrival = some s ∧
    s.gateway.serving = .returned ∧ s.gateway.connections = [c, d] ∧
    s.gateway.pool.refused = [] ∧ s.gateway.pool.workerCount = 0 ∧
    s.gateway.registry.directory.entries = [] ∧
    c.accepted = [SealedGateway.Sample.message] ∧ s.gateway.askedFrom 0 = [] ∧
    EndsPublishing Sample.lateArrival := by
  obtain ⟨g₀, s, c, d, h₀, h, hreturned, hconnections, haccepted, hqueue⟩ :=
    Sample.run_lateArrival (Nat.le_add_right Gateway.Sample.config.maxFrameSize _)
      (Nat.le_add_left SealedGateway.Sample.frame.length _)
  have halone : .gateway .closePool ∉ Sample.lateArrival := by
    simp [Sample.lateArrival, Sample.ending, Gateway.Sample.forwarding, ofGateway]
  obtain ⟨hrefused, -, hleft, hlast⟩ := shutdown_in_order h₀ h halone
  obtain ⟨-, hsaw, -, hentries, -, hends⟩ := hlast hreturned
  obtain ⟨hcount, -, -, hperm⟩ := hleft hsaw
  have hasked : s.gateway.askedFrom 0 = [] := by
    have hlength := (hperm 0 c (by rw [hconnections]; rfl)).length_eq
    rw [haccepted, hqueue, Gateway.messagesFrom_self, List.length_append] at hlength
    exact List.eq_nil_of_length_eq_zero (Nat.add_eq_right.mp hlength.symm)
  exact ⟨g₀, s, c, d, h₀, h, hreturned, hconnections, hrefused, hcount, hentries, haccepted, hasked,
    hends⟩

end Server

end SealedGateway
