import SealedGateway.Gateway.Basic
import SealedGateway.Proofs.Pool.Step
import SealedGateway.Proofs.Session.Step

/-!
# What one event does to a gateway

`Gateway.step` is a partial function with many branches. Here they are said once:

- **`Step`**: one constructor for each thing that can happen, with its guards and the whole state
  after it; `step_of_eq_some` takes an event that is enabled apart. A frame that comes in fails in
  one way only, because a session fails in no other (`Session.process_error`).
- **`Move`**: what an event can do to one connection. **`Step.connection`** reduces what happens to
  all connections to the moves of each of them.
-/

namespace SealedGateway

/-- Whether the task of a connection has left its loop. -/
def Connection.left (c : Connection) : Bool :=
  match c.loop with
  | .leaving | .ended => true
  | .listening | .replying _ | .submitting _ | .offering _ => false

namespace Gateway

/-! ## Events -/

/-- What an event can do to a gateway. -/
inductive Step (g : Gateway) : Event → Gateway → Prop where
  | accepted {name : Option String} {fresh : String} {remote : SocketAddr}
      (hs : g.serving = .accepting) :
      Step g (.accept name fresh remote)
        { g with
          registry := g.registry.issueSerial.2.add (identifier g.config name fresh)
            ⟨g.registry.issueSerial.1, remote, 0⟩
          connections := g.connections ++
            [.start (identifier g.config name fresh) g.registry.issueSerial.1 g.config.nonceLimit
              g.config.outboundBuffer] }
  | tooLong {n : Nat} {data : Bytes} {c : Connection} (hc : g.connections[n]? = some c)
      (hl : c.listens = true) (hd : g.config.maxFrameSize < data.length) :
      Step g (.frame n data) g.countReceived.countFailed
  /-- A frame is a handshake that succeeds. -/
  | agreed {n : Nat} {data : Bytes} {c : Connection} {ack : Ack} {s : Session} {e : Entropy}
      (hc : g.connections[n]? = some c) (hl : c.listens = true)
      (hd : data.length ≤ g.config.maxFrameSize)
      (hp : c.session.process g.entropy data = (.ok (.acknowledged ack), s, e)) :
      Step g (.frame n data)
        ({ g.countReceived with entropy := e }.setConnection n
          { c with session := s, loop := .replying ack })
  /-- A frame is a message. -/
  | opened {n : Nat} {data : Bytes} {c : Connection} {m : Message} {s : Session} {e : Entropy}
      (hc : g.connections[n]? = some c) (hl : c.listens = true)
      (hd : data.length ≤ g.config.maxFrameSize)
      (hp : c.session.process g.entropy data = (.ok (.accepted m), s, e)) :
      Step g (.frame n data)
        ({ g.countReceived with entropy := e }.setConnection n
          { c with session := s, loop := .submitting m, accepted := c.accepted ++ [m] })
  /-- A frame comes to nothing: it is dropped, or it fails. -/
  | rejected {n : Nat} {data : Bytes} {c : Connection} {s : Session} {e : Entropy}
      {r : Except Failure Outcome} (hc : g.connections[n]? = some c) (hl : c.listens = true)
      (hd : data.length ≤ g.config.maxFrameSize)
      (hp : c.session.process g.entropy data = (r, s, e))
      (hr : (∃ reason, r = .ok (.dropped reason)) ∨ ∃ f, r = .error f) :
      Step g (.frame n data)
        ({ g.countReceived with entropy := e }.setConnection n { c with session := s }).countFailed
  | replied {n : Nat} {c : Connection} {ack : Ack} (hc : g.connections[n]? = some c)
      (hl : c.loop = .replying ack) :
      Step g (.writeReply n)
        (g.setConnection n
          { c with loop := .listening, sent := c.sent ++ [.reply ack.encode] }).countProcessed
  | replyFailed {n : Nat} {c : Connection} {ack : Ack} (hc : g.connections[n]? = some c)
      (hl : c.loop = .replying ack) :
      Step g (.failReply n) (g.setConnection n (c.leave true))
  /-- A message finds the pool closed. -/
  | turnedAway {n : Nat} {c : Connection} {m : Message} (hc : g.connections[n]? = some c)
      (hl : c.loop = .submitting m) (hp : g.pool.isClosed = true) :
      Step g (.submit n) { g.setConnection n (c.leave true) with pool := g.pool.submit ⟨n, m⟩ }
  | offered {n : Nat} {c : Connection} {m : Message} (hc : g.connections[n]? = some c)
      (hl : c.loop = .submitting m) (hp : g.pool.isClosed = false) :
      Step g (.submit n)
        { g.setConnection n { c with loop := .offering m } with pool := g.pool.submit ⟨n, m⟩ }
  | enqueued {i : Nat} {d : Delivery} {pool : Pool Delivery} {c : Connection}
      (ho : g.pool.offers[i]? = some d) (hp : g.pool.enqueue i = some pool)
      (hc : g.connections[d.connection]? = some c) :
      Step g (.enqueue i)
        ({ g with pool }.setConnection d.connection { c with loop := .listening }).countProcessed
  | refused {i : Nat} {d : Delivery} {pool : Pool Delivery} {c : Connection}
      (ho : g.pool.offers[i]? = some d) (hp : g.pool.refuse i = some pool)
      (hc : g.connections[d.connection]? = some c) :
      Step g (.refuse i) ({ g with pool }.setConnection d.connection (c.leave true))
  /-- Something happens in a mailbox that does not end its owner. -/
  | mailed {n : Nat} {event : Mailbox.Event} {c : Connection} {mailbox : Mailbox}
      (hc : g.connections[n]? = some c) (he : event ≠ .stop)
      (hf : isOwnerEvent event = true → c.loop = .listening)
      (hm : c.mailbox.step event = some mailbox)
      (hl : ¬ (c.loop = .listening ∧ mailbox.owner = .stopped)) :
      Step g (.mailbox n event)
        (g.setConnection n { c with mailbox, sent := c.sent ++ pushedSince c.mailbox mailbox })
  /-- The owner of a mailbox ends, and with it the connection. -/
  | mailedLast {n : Nat} {event : Mailbox.Event} {c : Connection} {mailbox : Mailbox}
      (hc : g.connections[n]? = some c) (he : event ≠ .stop)
      (hm : c.mailbox.step event = some mailbox)
      (hl : c.loop = .listening) (ho : mailbox.owner = .stopped) :
      Step g (.mailbox n event)
        (g.setConnection n
          (Connection.leave
            { c with mailbox, sent := c.sent ++ pushedSince c.mailbox mailbox } false))
  | hungUp {n : Nat} {c : Connection} (hc : g.connections[n]? = some c) (hl : c.listens = true) :
      Step g (.hangUp n) (g.setConnection n (c.leave false))
  | noticed {n : Nat} {c : Connection} (hs : g.serving ≠ .accepting)
      (hc : g.connections[n]? = some c) (hl : c.listens = true) :
      Step g (.notice n) (g.setConnection n (c.leave false))
  | released {n : Nat} {c : Connection} (hc : g.connections[n]? = some c)
      (hl : c.loop = .leaving) :
      Step g (.release n)
        { g.setConnection n { c with loop := .ended } with
          registry := (g.registry.release c.id c.serial).2 }
  | removed {id : String} : Step g (.remove id) { g with registry := (g.registry.remove id).2 }
  | forwarded {w : Nat} {d : Delivery} {pool : Pool Delivery}
      (hw : g.pool.stage? w = some (.busy d))
      (hp : g.pool.finish w (g.broker.forward d.message).1.isOk = some pool) :
      Step g (.forward w)
        { g with
          pool, broker := (g.broker.forward d.message).2
          asked := g.asked ++
            (askedSince g.broker (g.broker.forward d.message).2).map fun p => (d, p) }
  | setRefusing {refuses : Bool} :
      Step g (.setRefusing refuses) { g with broker.refuses := refuses }
  /-- Something that concerns the pool alone. -/
  | pooled {event : Pool.Event Delivery} {pool : Pool Delivery}
      (hp : g.pool.step event = some pool)
      (hsubmit : ∀ d, event ≠ .submit d) (henqueue : ∀ i, event ≠ .enqueue i)
      (hrefuse : ∀ i, event ≠ .refuse i) (hfinish : ∀ w ok, event ≠ .finish w ok)
      (hcrash : ∀ w, event ≠ .crash w) (hclose : event ≠ .close) (hrelease : event ≠ .release) :
      Step g (.pool event) { g with pool }
  | poolReleased {pool : Pool Delivery} (hp : g.pool.step .release = some pool) :
      Step g (.pool .release) { g with pool, broker := g.broker.close }
  | poolClosed : Step g .closePool g.closePool
  | shutDown (hs : g.serving = .accepting) : Step g .shutdown { g with serving := .closing }
  | drained (hs : g.serving = .closing) (he : g.allEnded = true) :
      Step g .drain
        { g.closePool with serving := if g.pool.isClosed then .returned else .draining }
  | finished (hs : g.serving = .draining) (hp : g.pool.isReleased = true) :
      Step g .finishServing { g with serving := .returned }

variable {g g' : Gateway} {ev : Event} {n : Nat} {c : Connection}

/-- A gateway that can be made has a pool of a size that it can honour, and nothing else yet. -/
theorem gateway_of_create {config : Config} {entropy : Entropy}
    (h : create config entropy = .ok g) :
    config.pool.fault? = none ∧
      g = { config, entropy
            pool := .start config.pool
            registry := .empty, connections := [], broker := .empty, asked := []
            tally := ⟨0, 0, 0⟩, pushed := 0, serving := .accepting } := by
  obtain ⟨pool, hp, hg⟩ := bind_eq_ok_iff.mp h
  obtain ⟨hfault, rfl⟩ := Pool.create_eq_ok hp
  exact ⟨hfault, (Except.ok.inj hg).symm⟩

theorem frame_step {data : Bytes} (h : g.frame n data = some g') : Step g (.frame n data) g' := by
  unfold frame at h
  split at h
  case h_1 => cases h
  case h_2 c hc =>
    split at h
    case isTrue => cases h
    case isFalse hl =>
      have hl : c.listens = true := by simpa using hl
      split at h
      case isTrue hd =>
        cases h
        exact .tooLong hc hl hd
      case isFalse hd =>
        have hd : data.length ≤ g.config.maxFrameSize := Nat.le_of_not_lt hd
        obtain ⟨r, s, e, hp⟩ : ∃ r s e, c.session.process g.entropy data = (r, s, e) :=
          ⟨_, _, _, rfl⟩
        rw [hp] at h
        cases h
        cases r with
        | error f =>
          -- The branch that makes the task leave is never taken.
          have hf : f.frameLocal = true := Session.process_error (congrArg Prod.fst hp)
          simp only [settleFrame, hf, ↓reduceIte]
          exact .rejected hc hl hd hp (.inr ⟨f, rfl⟩)
        | ok outcome =>
          cases outcome with
          | acknowledged ack => exact .agreed (c := c) hc hl hd hp
          | accepted m => exact .opened (c := c) hc hl hd hp
          | dropped reason => exact .rejected hc hl hd hp (.inl ⟨reason, rfl⟩)

theorem mailbox_step {event : Mailbox.Event} (h : g.mailbox n event = some g') :
    Step g (.mailbox n event) g' := by
  simp only [mailbox, bind, Option.bind_eq_some_iff, Option.bind_none,
    Option.ite_none_left_eq_some] at h
  obtain ⟨c, hc, henabled, mailbox, hm, h⟩ := h
  have hfree : event ≠ .stop ∧ (isOwnerEvent event = true → c.loop = .listening) := by
    cases event <;> simp_all [isOwnerEvent]
  cases h
  by_cases hl : c.loop = .listening ∧ mailbox.owner = .stopped
  · simp only [hl, decide_true, Bool.and_self, ↓reduceIte]
    exact .mailedLast hc hfree.1 hm hl.1 hl.2
  · rw [if_neg (by simpa using hl)]
    exact .mailed hc hfree.1 hfree.2 hm hl

theorem poolStep_step {event : Pool.Event Delivery} (h : g.poolStep event = some g') :
    Step g (.pool event) g' := by
  unfold poolStep at h
  split at h
  case h_7 =>
    obtain ⟨pool, hp, rfl⟩ := Option.map_eq_some_iff.mp h
    exact .poolReleased hp
  case h_8 hsubmit henqueue hrefuse hfinish hcrash hclose hrelease =>
    obtain ⟨pool, hp, rfl⟩ := Option.map_eq_some_iff.mp h
    exact .pooled hp hsubmit henqueue hrefuse hfinish hcrash hclose hrelease
  all_goals cases h

/-- An event that is enabled does one of the things that `Step` lists. -/
theorem step_of_eq_some (h : g.step ev = some g') : Step g ev g' := by
  cases ev with
  | accept name fresh remote =>
    simp only [step, accept] at h
    split at h
    case h_2 => cases h
    case h_1 hs =>
      cases h
      exact .accepted hs
  | frame n data => exact frame_step h
  | writeReply n =>
    simp only [step, writeReply] at h
    split at h
    case h_2 => cases h
    case h_1 c hc =>
      split at h
      case h_2 => cases h
      case h_1 ack hl =>
        cases h
        exact .replied hc hl
  | failReply n =>
    simp only [step, failReply] at h
    split at h
    case h_2 => cases h
    case h_1 c hc =>
      split at h
      case h_2 => cases h
      case h_1 ack hl =>
        cases h
        exact .replyFailed hc hl
  | submit n =>
    simp only [step, submit] at h
    split at h
    case h_2 => cases h
    case h_1 c hc =>
      split at h
      case h_2 => cases h
      case h_1 m hl =>
        cases hp : g.pool.isClosed with
        | true =>
          rw [hp] at h
          cases h
          exact .turnedAway hc hl hp
        | false =>
          rw [hp] at h
          cases h
          exact .offered hc hl hp
  | enqueue i =>
    simp only [step, enqueue, bind, Option.bind_eq_some_iff] at h
    obtain ⟨d, ho, pool, hp, c, hc, h⟩ := h
    cases h
    exact .enqueued ho hp hc
  | refuse i =>
    simp only [step, refuse, bind, Option.bind_eq_some_iff] at h
    obtain ⟨d, ho, pool, hp, c, hc, h⟩ := h
    cases h
    exact .refused ho hp hc
  | mailbox n event => exact mailbox_step h
  | hangUp n =>
    simp only [step, hangUp] at h
    split at h
    case h_2 => cases h
    case h_1 c hc =>
      split at h
      case isFalse => cases h
      case isTrue hl =>
        cases h
        exact .hungUp hc hl
  | notice n =>
    simp only [step, notice, hangUp] at h
    split at h
    case h_1 => cases h
    case h_2 hs =>
      split at h
      case h_2 => cases h
      case h_1 c hc =>
        split at h
        case isFalse => cases h
        case isTrue hl =>
          cases h
          exact .noticed hs hc hl
  | release n =>
    simp only [step, release] at h
    split at h
    case h_2 => cases h
    case h_1 c hc =>
      split at h
      case h_2 => cases h
      case h_1 hl =>
        cases h
        exact .released hc hl
  | remove id =>
    cases h
    exact .removed
  | forward w =>
    simp only [step, forward] at h
    split at h
    case h_2 => cases h
    case h_1 d hw =>
      obtain ⟨pool, hp, rfl⟩ := Option.map_eq_some_iff.mp h
      exact .forwarded hw hp
  | setRefusing refuses =>
    cases h
    exact .setRefusing
  | pool event => exact poolStep_step h
  | closePool =>
    cases h
    exact .poolClosed
  | shutdown =>
    simp only [step, shutdown] at h
    split at h
    case h_2 => cases h
    case h_1 hs =>
      cases h
      exact .shutDown hs
  | drain =>
    simp only [step, drain] at h
    split at h
    case h_2 => cases h
    case h_1 hs =>
      split at h
      case isFalse => cases h
      case isTrue he =>
        cases h
        exact .drained hs he
  | finishServing =>
    simp only [step, finishServing] at h
    split at h
    case h_2 => cases h
    case h_1 hs =>
      split at h
      case isFalse => cases h
      case isTrue hp =>
        cases h
        exact .finished hs hp

/-! ## Connections -/

/-- What an event can do to the connection of a number. -/
inductive Move (g : Gateway) (n : Nat) : Event → Connection → Connection → Prop where
  | same {ev : Event} {c : Connection} (hev : ∀ data, ev ≠ .frame n data) : Move g n ev c c
  | tooLong {data : Bytes} {c : Connection} (hl : c.listens = true)
      (hd : g.config.maxFrameSize < data.length) : Move g n (.frame n data) c c
  | agreed {data : Bytes} {c : Connection} {ack : Ack} {s : Session} {e : Entropy}
      (hl : c.listens = true) (hd : data.length ≤ g.config.maxFrameSize)
      (hp : c.session.process g.entropy data = (.ok (.acknowledged ack), s, e)) :
      Move g n (.frame n data) c { c with session := s, loop := .replying ack }
  | opened {data : Bytes} {c : Connection} {m : Message} {s : Session} {e : Entropy}
      (hl : c.listens = true) (hd : data.length ≤ g.config.maxFrameSize)
      (hp : c.session.process g.entropy data = (.ok (.accepted m), s, e)) :
      Move g n (.frame n data) c
        { c with session := s, loop := .submitting m, accepted := c.accepted ++ [m] }
  | rejected {data : Bytes} {c : Connection} {s : Session} {e : Entropy}
      {r : Except Failure Outcome} (hl : c.listens = true)
      (hd : data.length ≤ g.config.maxFrameSize)
      (hp : c.session.process g.entropy data = (r, s, e))
      (hr : (∃ reason, r = .ok (.dropped reason)) ∨ ∃ f, r = .error f) :
      Move g n (.frame n data) c { c with session := s }
  | replied {c : Connection} {ack : Ack} (hl : c.loop = .replying ack) :
      Move g n (.writeReply n) c
        { c with loop := .listening, sent := c.sent ++ [.reply ack.encode] }
  | replyFailed {c : Connection} {ack : Ack} (hl : c.loop = .replying ack) :
      Move g n (.failReply n) c (c.leave true)
  | turnedAway {c : Connection} {m : Message} (hl : c.loop = .submitting m)
      (hp : g.pool.isClosed = true) : Move g n (.submit n) c (c.leave true)
  | offered {c : Connection} {m : Message} (hl : c.loop = .submitting m)
      (hp : g.pool.isClosed = false) : Move g n (.submit n) c { c with loop := .offering m }
  | enqueued {i : Nat} {m : Message} {c : Connection} (ho : g.pool.offers[i]? = some ⟨n, m⟩) :
      Move g n (.enqueue i) c { c with loop := .listening }
  | refused {i : Nat} {m : Message} {c : Connection} (ho : g.pool.offers[i]? = some ⟨n, m⟩)
      (hp : g.pool.isCancelled = true) : Move g n (.refuse i) c (c.leave true)
  | mailed {event : Mailbox.Event} {c : Connection} {mailbox : Mailbox}
      (hm : c.mailbox.step event = some mailbox)
      (hl : ¬ (c.loop = .listening ∧ mailbox.owner = .stopped)) (he : event ≠ .stop)
      (hf : isOwnerEvent event = true → c.loop = .listening) :
      Move g n (.mailbox n event) c
        { c with mailbox, sent := c.sent ++ pushedSince c.mailbox mailbox }
  | mailedLast {event : Mailbox.Event} {c : Connection} {mailbox : Mailbox}
      (hm : c.mailbox.step event = some mailbox) (hl : c.loop = .listening)
      (ho : mailbox.owner = .stopped) :
      Move g n (.mailbox n event) c
        (Connection.leave
          { c with mailbox, sent := c.sent ++ pushedSince c.mailbox mailbox } false)
  | hungUp {ev : Event} {c : Connection} (hev : ev = .hangUp n ∨ ev = .notice n)
      (hl : c.listens = true) : Move g n ev c (c.leave false)
  | released {c : Connection} (hl : c.loop = .leaving) :
      Move g n (.release n) c { c with loop := .ended }

/-- An event that concerns one connection leaves the others as they are. -/
theorem Move.all {k : Nat} {d d' : Connection} (hk : g.connections[k]? = some d)
    (hmove : Move g k ev d d') (hev : ∀ m data, ev = .frame m data → m = k)
    (hc : g.connections[n]? = some c) :
    ∃ c', (g.connections.set k d')[n]? = some c' ∧ Move g n ev c c' := by
  obtain ⟨hlt, -⟩ := List.getElem?_eq_some_iff.mp hk
  by_cases heq : k = n
  · subst heq
    obtain rfl : d = c := Option.some.inj (hk.symm.trans hc)
    exact ⟨d', List.getElem?_set_self hlt, hmove⟩
  · refine ⟨c, (List.getElem?_set_ne heq).trans hc, .same ?_⟩
    rintro data rfl
    exact heq (hev n data rfl).symm

/-- Each connection makes a move. -/
theorem Step.connection (h : Step g ev g') (hc : g.connections[n]? = some c) :
    ∃ c', g'.connections[n]? = some c' ∧ Move g n ev c c' := by
  have hframe {k : Nat} {data : Bytes} (m : Nat) (data' : Bytes)
      (h : Event.frame k data = .frame m data') : m = k := (Event.frame.inj h).1.symm
  cases h with
  | accepted hs => exact ⟨c, Machine.getElem?_newcomer hc, .same nofun⟩
  | @tooLong k data d hk hl hd =>
    by_cases heq : k = n
    · subst heq
      obtain rfl : d = c := Option.some.inj (hk.symm.trans hc)
      exact ⟨d, hc, .tooLong hl hd⟩
    · exact ⟨c, hc, .same fun data' h => heq (Event.frame.inj h).1⟩
  | agreed hk hl hd hp => exact Move.all hk (.agreed hl hd hp) hframe hc
  | opened hk hl hd hp => exact Move.all hk (.opened hl hd hp) hframe hc
  | rejected hk hl hd hp hr => exact Move.all hk (.rejected hl hd hp hr) hframe hc
  | replied hk hl => exact Move.all hk (.replied hl) nofun hc
  | replyFailed hk hl => exact Move.all hk (.replyFailed hl) nofun hc
  | turnedAway hk hl hp => exact Move.all hk (.turnedAway hl hp) nofun hc
  | offered hk hl hp => exact Move.all hk (.offered hl hp) nofun hc
  | enqueued ho hp hk => exact Move.all hk (.enqueued ho) nofun hc
  | @refused i d pool c' ho hp hk =>
    have hcancel : g.pool.isCancelled = true := by
      cases Pool.step_of_eq_some (e := .refuse i) hp with
      | refused _ hcancel => exact hcancel
    exact Move.all hk (.refused ho hcancel) nofun hc
  | mailed hk he hf hm hl => exact Move.all hk (.mailed hm hl he hf) nofun hc
  | mailedLast hk he hm hl ho => exact Move.all hk (.mailedLast hm hl ho) nofun hc
  | hungUp hk hl => exact Move.all hk (.hungUp (.inl rfl) hl) nofun hc
  | noticed hs hk hl => exact Move.all hk (.hungUp (.inr rfl) hl) nofun hc
  | released hk hl => exact Move.all hk (.released hl) nofun hc
  | _ => exact ⟨c, hc, .same nofun⟩

/-- A connection that was not there before has just been accepted. -/
theorem Step.acceptance (h : Step g ev g') (hn : g.connections[n]? = none)
    (hc : g'.connections[n]? = some c) :
    ∃ name fresh remote, ev = .accept name fresh remote ∧
      c = .start (identifier g.config name fresh) g.registry.nextSerial g.config.nonceLimit
        g.config.outboundBuffer := by
  have hset {k : Nat} {d : Connection} : (g.connections.set k d)[n]? ≠ some c := by
    rw [List.getElem?_set]
    split
    · next heq =>
      subst heq
      rw [if_neg (Nat.not_lt.mpr (List.getElem?_eq_none_iff.mp hn))]
      exact nofun
    · rw [hn]
      exact nofun
  cases h with
  | accepted hs =>
    have hlast := List.getElem?_append_right (List.getElem?_eq_none_iff.mp hn) ▸ hc
    exact ⟨_, _, _, rfl, List.mem_singleton.mp (List.mem_of_getElem? hlast)⟩
  | agreed | opened | rejected | replied | replyFailed | turnedAway | offered | enqueued | refused
  | mailed | mailedLast | hungUp | noticed | released => exact absurd hc hset
  | _ => cases hn.symm.trans hc

theorem Step.newConnection (h : Step g ev g') (hn : g.connections[n]? = none)
    (hc : g'.connections[n]? = some c) :
    ∃ id serial, c = .start id serial g.config.nonceLimit g.config.outboundBuffer := by
  obtain ⟨_, _, _, -, hstart⟩ := h.acceptance hn hc
  exact ⟨_, _, hstart⟩

end Gateway

end SealedGateway
