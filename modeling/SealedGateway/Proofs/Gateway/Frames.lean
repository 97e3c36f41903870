import SealedGateway.Proofs.Gateway.Tally
import SealedGateway.Proofs.Outbound.Step
import SealedGateway.Proofs.Session.Client

/-!
# What becomes of inbound frames

A client can send any octets in any order over any number of connections. No frame ends a
connection, every frame is counted, and what is written back are the acknowledgements of the
handshakes that succeed.

- **`acks`**: the acknowledgements of a run, from its frames alone.
- **`RepliesInv`**: what was written to a client, and `RepliesInv.move` for a move of its
  connection.
- **`frames_accounted`** has all of it for a run.
-/

namespace SealedGateway

/-! ## What is written to a client -/

namespace Connection

/-- The text of a reply. -/
def reply? : Output → Option String
  | .reply text => some text
  | .pushed _ => none

/-- The payload of a push. -/
def push? : Output → Option Bytes
  | .reply _ => none
  | .pushed payload => some payload

/-- The replies that were written to the client, oldest first. -/
def replies (c : Connection) : List String := c.sent.filterMap reply?

/-- The payloads that were written to the client, oldest first. -/
def pushes (c : Connection) : List Bytes := c.sent.filterMap push?

/-- The reply that the task is about to write. -/
def pending (c : Connection) : List String :=
  match c.loop with
  | .replying ack => [ack.encode]
  | _ => []

end Connection

namespace Gateway

open Connection

variable {g g' g₀ : Gateway} {ev : Event} {n : Nat} {c c' : Connection}

/-- Whether an event is a frame that comes in. -/
def Event.isFrame : Event → Bool
  | .frame _ _ => true
  | _ => false

/-! ## Replies -/

/-- The acknowledgement that an event gives to a connection: that of a frame which is a handshake
that succeeds. -/
def ack? (g : Gateway) (n : Nat) : Event → Option Ack
  | .frame k data =>
    match g.connections[n]? with
    | some c =>
      if k = n ∧ data.length ≤ g.config.maxFrameSize then
        match (c.session.process g.entropy data).1 with
        | .ok (.acknowledged ack) => some ack
        | _ => none
      else none
    | none => none
  | _ => none

/-- The acknowledgements that a run gives to a connection, oldest first. -/
def acks (n : Nat) (g : Gateway) (events : List Event) : List Ack :=
  Machine.trace Gateway.step (fun g ev _ => (g.ack? n ev).toList) g events

theorem acks_concat {events : List Event} (h : g₀.run? events = some g)
    (hstep : g.step ev = some g') :
    acks n g₀ (events ++ [ev]) = acks n g₀ events ++ (g.ack? n ev).toList :=
  Machine.trace_concat h hstep

theorem ack?_of_other (h : ∀ data, ev ≠ .frame n data) : g.ack? n ev = none := by
  cases ev with
  | frame k data =>
    have hne : k ≠ n := fun heq => h data (heq ▸ rfl)
    simp only [ack?, hne, false_and, ↓reduceIte]
    split <;> rfl
  | _ => rfl

theorem ack?_of_none (h : g.connections[n]? = none) : g.ack? n ev = none := by
  cases ev with
  | frame k data => simp only [ack?, h]
  | _ => rfl

/-- The replies of a connection are the acknowledgements given to it, up to the one that is about to
be written or could not be written; what else was written to it comes from its mailbox. -/
structure RepliesInv (given : List Ack) (c : Connection) : Prop where
  replies : ∃ lost, given.map Ack.encode = c.replies ++ (lost ++ c.pending) ∧ lost.length ≤ 1 ∧
    (lost ≠ [] → c.brokeOff = true)
  pushes : c.pushes = c.mailbox.written.map Prod.snd

namespace RepliesInv

variable {given : List Ack}

theorem start (id : String) (serial : UInt64) (nonceLimit outboundBuffer : Nat) :
    RepliesInv [] (.start id serial nonceLimit outboundBuffer) :=
  ⟨⟨[], rfl, Nat.zero_le _, absurd rfl⟩, rfl⟩

/-- As long as the task has not left, no acknowledgement is lost. -/
theorem given_eq (h : RepliesInv given c) (hb : c.brokeOff = false) :
    given.map Ack.encode = c.replies ++ c.pending := by
  obtain ⟨lost, hgiven, -, hlost⟩ := h.replies
  cases lost with
  | nil => exact hgiven
  | cons text lost => exact absurd (hlost nofun) (Bool.eq_false_iff.mp hb)

/-- A task that is about to write no reply goes on without one, and nothing was written. -/
theorem of_same (h : RepliesInv given c) (hsent : c'.sent = c.sent)
    (hmailbox : c'.mailbox.written = c.mailbox.written) (hpending : c.pending = [])
    (hpending' : c'.pending = []) (hbroke : c.brokeOff = true → c'.brokeOff = true) :
    RepliesInv given c' := by
  obtain ⟨lost, hgiven, hlength, hlost⟩ := h.replies
  refine ⟨⟨lost, ?_, hlength, fun hne => hbroke (hlost hne)⟩, ?_⟩
  · rw [hgiven, hpending, hpending', Connection.replies, Connection.replies, hsent]
  · rw [Connection.pushes, hsent, hmailbox]
    exact h.pushes

/-- The mailbox writes to the client. -/
theorem mailed (h : RepliesInv given c) {event : Mailbox.Event} {mailbox : Mailbox}
    (hm : c.mailbox.step event = some mailbox) :
    RepliesInv given { c with mailbox, sent := c.sent ++ pushedSince c.mailbox mailbox } := by
  obtain ⟨more, hmore⟩ := Mailbox.written_grows hm
  have hpushed : pushedSince c.mailbox mailbox = more.map fun w => .pushed w.2 := by
    rw [pushedSince, ← hmore, List.drop_left]
  have hreplies : (c.sent ++ pushedSince c.mailbox mailbox).filterMap reply? = c.replies := by
    rw [List.filterMap_append, hpushed, List.filterMap_map, Connection.replies]
    simp [Function.comp_def, reply?]
  have hpushes : (c.sent ++ pushedSince c.mailbox mailbox).filterMap push? =
      c.pushes ++ more.map Prod.snd := by
    rw [List.filterMap_append, hpushed, List.filterMap_map, Connection.pushes]
    simp [Function.comp_def, push?]
  obtain ⟨lost, hgiven, hlength, hlost⟩ := h.replies
  refine ⟨⟨lost, ?_, hlength, hlost⟩, ?_⟩
  · rw [hgiven]
    exact congrArg (· ++ (lost ++ c.pending)) hreplies.symm
  · show (c.sent ++ pushedSince c.mailbox mailbox).filterMap push? = mailbox.written.map Prod.snd
    rw [hpushes, h.pushes, ← hmore, List.map_append]

theorem move (h : RepliesInv given c) (hc : g.connections[n]? = some c) (hm : Move g n ev c c')
    (ho : OffersOf g n c) (hb : c.brokeOff = true → c.left = true) :
    RepliesInv (given ++ (g.ack? n ev).toList) c' := by
  have hquiet (hack : g.ack? n ev = none) (h' : RepliesInv given c') :
      RepliesInv (given ++ (g.ack? n ev).toList) c' := by
    rwa [hack, Option.toList_none, List.append_nil]
  have hkept (hl : c.left = false) : c.brokeOff = false := brokeOff_eq_false hb hl
  cases hm with
  | same hev => exact hquiet (ack?_of_other hev) h
  | @tooLong data _ hl hd =>
    refine hquiet ?_ h
    simp only [ack?, hc, Nat.not_le.mpr hd, and_false, ↓reduceIte]
  | @agreed data _ ack s e hl hd hp =>
    have hack : g.ack? n (.frame n data) = some ack := by
      simp only [ack?, hc, hd, and_self, ↓reduceIte, hp]
    have hloop := loop_of_listens hl
    have hgiven := h.given_eq (hkept (by simp [left, hloop]))
    have hpending : c.pending = [] := by simp [pending, hloop]
    rw [hpending, List.append_nil] at hgiven
    refine ⟨⟨[], ?_, Nat.zero_le _, absurd rfl⟩, h.pushes⟩
    rw [hack, List.map_append, hgiven]
    rfl
  | @opened data _ m s e hl hd hp =>
    have hack : g.ack? n (.frame n data) = none := by
      simp only [ack?, hc, hd, and_self, ↓reduceIte, hp]
    exact hquiet hack (h.of_same rfl rfl (by simp [pending, loop_of_listens hl]) rfl id)
  | @rejected data _ s e r hl hd hp hr =>
    have hack : g.ack? n (.frame n data) = none := by
      rcases hr with ⟨reason, rfl⟩ | ⟨f, rfl⟩ <;>
        simp only [ack?, hc, hd, and_self, ↓reduceIte, hp]
    exact hquiet hack (h.of_same rfl rfl (by simp [pending, loop_of_listens hl])
      (by simp [pending, loop_of_listens hl]) id)
  | @replied _ ack hl =>
    have hgiven := h.given_eq (hkept (by simp [left, hl]))
    have hpending : c.pending = [ack.encode] := by simp [pending, hl]
    refine hquiet rfl ⟨⟨[], ?_, Nat.zero_le _, absurd rfl⟩, ?_⟩
    · rw [hgiven, hpending]
      simp [Connection.replies, reply?, pending]
    · show (c.sent ++ [Output.reply ack.encode]).filterMap push? = c.mailbox.written.map Prod.snd
      rw [List.filterMap_append, ← h.pushes]
      exact List.append_nil _
  | @replyFailed _ ack hl =>
    -- The one reply that is lost: nothing was lost before, or the task would have left.
    have hgiven := h.given_eq (hkept (by simp [left, hl]))
    have hpending : c.pending = [ack.encode] := by simp [pending, hl]
    refine hquiet rfl ⟨⟨[ack.encode], ?_, Nat.le_refl _, fun _ => rfl⟩, h.pushes⟩
    rw [hgiven, hpending]
    rfl
  | turnedAway hl hp =>
    exact hquiet rfl (h.of_same rfl rfl (by simp [pending, hl]) rfl fun _ => rfl)
  | offered hl hp => exact hquiet rfl (h.of_same rfl rfl (by simp [pending, hl]) rfl id)
  | enqueued hi =>
    have hloop := ho _ (List.mem_of_getElem? hi)
    exact hquiet rfl (h.of_same rfl rfl (by simp [pending, hloop]) rfl id)
  | refused hi hp =>
    have hloop := ho _ (List.mem_of_getElem? hi)
    exact hquiet rfl (h.of_same rfl rfl (by simp [pending, hloop]) rfl fun _ => rfl)
  | mailed hm hl => exact hquiet rfl (h.mailed hm)
  | mailedLast hm hl =>
    refine hquiet rfl ((h.mailed hm).of_same rfl rfl (by simp [pending, hl]) rfl fun hbroke => ?_)
    exact absurd hbroke (Bool.eq_false_iff.mp (hkept (by simp [left, hl])))
  | hungUp hev hl =>
    have hloop := loop_of_listens hl
    have hack : g.ack? n ev = none := by rcases hev with rfl | rfl <;> rfl
    refine hquiet hack (h.of_same rfl rfl (by simp [pending, hloop]) rfl fun hbroke => ?_)
    exact absurd hbroke (Bool.eq_false_iff.mp (hkept (by simp [left, hloop])))
  | released hl => exact hquiet rfl (h.of_same rfl rfl (by simp [pending, hl]) rfl id)

end RepliesInv

/-! ## Runs -/

/-- Every frame that comes in is counted. -/
theorem received_eq_countP {config : Config} {entropy : Entropy}
    (h₀ : create config entropy = .ok g₀) {events : List Event} (h : g₀.run? events = some g) :
    g.tally.received = events.countP Event.isFrame := by
  refine Machine.run_induction (f := Gateway.step)
    (motive := fun es g => g.tally.received = es.countP Event.isFrame) ?_ ?_ h
  · obtain ⟨-, rfl⟩ := gateway_of_create h₀
    rfl
  · intro es ev t u _ ih hstep
    rw [List.countP_append, ← ih]
    cases step_of_eq_some hstep <;> rfl

/-- A connection has the replies that were given to it; one that is not there yet has none. -/
theorem RepliesInv.run {config : Config} {entropy : Entropy}
    (h₀ : create config entropy = .ok g₀) {events : List Event} (h : g₀.run? events = some g)
    (n : Nat) :
    (g.connections[n]? = none → acks n g₀ events = []) ∧
      ∀ c, g.connections[n]? = some c → RepliesInv (acks n g₀ events) c := by
  refine Machine.run_induction (f := Gateway.step)
    (motive := fun es g => (g.connections[n]? = none → acks n g₀ es = []) ∧
      ∀ c, g.connections[n]? = some c → RepliesInv (acks n g₀ es) c) ?_ ?_ h
  · obtain ⟨-, rfl⟩ := gateway_of_create h₀
    refine ⟨fun _ => rfl, fun c hc => ?_⟩
    rw [List.getElem?_nil] at hc
    cases hc
  intro es ev t u hrun ⟨hnone, hsome⟩ hstep
  have hs := step_of_eq_some hstep
  have hinv : FrameInv t := .run h₀ hrun
  rw [acks_concat hrun hstep]
  cases ht : t.connections[n]? with
  | none =>
    rw [hnone ht, ack?_of_none ht]
    refine ⟨fun _ => rfl, fun c hc => ?_⟩
    obtain ⟨id, serial, rfl⟩ := hs.newConnection ht hc
    exact .start _ _ _ _
  | some c =>
    obtain ⟨c', hc', hmove⟩ := hs.connection ht
    refine ⟨fun hu => (by rw [hc'] at hu; cases hu), fun d hd => ?_⟩
    obtain rfl : c' = d := Option.some.inj (hc'.symm.trans hd)
    exact (hsome c ht).move ht hmove (hinv.offersOf ht) (hinv.broke n c ht)

/-- A listening task takes any frame. -/
theorem isSome_frame (hc : g.connections[n]? = some c) (hl : c.listens = true) (data : Bytes) :
    (g.step (.frame n data)).isSome = true := by
  simp only [step, frame, hc, hl, Bool.not_true, Bool.false_eq_true, ↓reduceIte]
  split <;> rfl

/-- **No frame ends a connection or goes uncounted.** Whatever octets a session is given, they fail
in no way but one that costs the frame alone. So in every run, whatever comes next: a listening
task takes any frame and never leaves on one; a task leaves in the middle of a frame only because
its reply could not be written, or because the pool was closed or cancelled when it came to submit a
message, and only then counts as broken off. A frame that is too long changes no connection. What is
written to a client besides the payloads of its mailbox are the acknowledgements of its successful
handshakes, one each and in order, up to one that is still to be written or could not be. And all
frames are counted: as processed, as failed, as in progress, or as broken off. -/
theorem frames_accounted {config : Config} {entropy : Entropy}
    (h₀ : create config entropy = .ok g₀) {events : List Event} (h : g₀.run? events = some g) :
    (∀ (s : Session) e data f, (s.process e data).1 = .error f → f.frameLocal = true) ∧
    (∀ (n : Nat) c data, g.connections[n]? = some c → c.listens = true →
      (g.step (.frame n data)).isSome = true) ∧
    (∀ ev g', g.step ev = some g' → ∀ (n : Nat) c, g.connections[n]? = some c →
      ∃ c', g'.connections[n]? = some c' ∧
        (c.left = true → c'.left = true ∧ c'.brokeOff = c.brokeOff) ∧
        (c'.left = false → c'.brokeOff = false) ∧
        (c.left = false → c'.left = true →
          (∀ data, ev ≠ .frame n data) ∧ c'.brokeOff = c.inFrame ∧
            (c.inFrame = true → Breaks g n c ev))) ∧
    (∀ n data g', g.config.maxFrameSize < data.length → g.step (.frame n data) = some g' →
      g'.connections = g.connections ∧ g'.entropy = g.entropy) ∧
    (∀ (n : Nat) c, g.connections[n]? = some c →
      (∃ lost, (acks n g₀ events).map Ack.encode = c.replies ++ (lost ++ c.pending) ∧
        lost.length ≤ 1 ∧ (lost ≠ [] → c.brokeOff = true)) ∧
      c.pushes = c.mailbox.written.map Prod.snd) ∧
    g.tally.received = events.countP Event.isFrame ∧
    g.tally.received = g.tally.processed + g.tally.failed +
      g.connections.countP Connection.inFrame + g.connections.countP Connection.brokeOff := by
  have hinv : FrameInv g := .run h₀ h
  refine ⟨fun s e data f => Session.process_error, fun n c data hc hl => isSome_frame hc hl data,
    fun ev g' hstep n c hc => ?_, fun n data g' hd hstep => ?_, fun n c hc => ?_,
    received_eq_countP h₀ h, hinv.balanced⟩
  · have hs := step_of_eq_some hstep
    obtain ⟨c', hc', hmove⟩ := hs.connection hc
    have ho := hinv.offersOf hc
    exact ⟨c', hc', hmove.stays_left ho, (hinv.step hs).brokeOff_eq_false hc', hmove.breaks ho⟩
  · cases step_of_eq_some hstep with
    | tooLong => exact ⟨rfl, rfl⟩
    | agreed _ _ hle | opened _ _ hle | rejected _ _ hle =>
      exact absurd hle (Nat.not_le.mpr hd)
  · obtain ⟨hreplies, hpushes⟩ := (RepliesInv.run h₀ h n).2 c hc
    exact ⟨hreplies, hpushes⟩

/-! ## A run that breaks off -/

/-- A handshake that succeeds. -/
theorem step_frame_agreed {data : Bytes} {ack : Ack} {s : Session} {e : Entropy}
    (hc : g.connections[n]? = some c) (hl : c.listens = true)
    (hd : data.length ≤ g.config.maxFrameSize)
    (hp : c.session.process g.entropy data = (.ok (.acknowledged ack), s, e)) :
    g.step (.frame n data) = some ({ g.countReceived with entropy := e }.setConnection n
      { c with session := s, loop := .replying ack }) := by
  simp only [step, frame, hc, hl, Nat.not_lt.mpr hd, hp, Bool.not_true, Bool.false_eq_true,
    ↓reduceIte]
  rfl

namespace Sample

open SealedGateway.Sample (client keyPairOrGenerate_eq sharedSecret_eq)

def config : Config :=
  { host := "", port := 0, controlPort := 0, metricsPort := 0, maxFrameSize := 100
    outboundBuffer := 1, nonceLimit := 4, trustsNames := true, brokerUrl := ""
    pool := ⟨1, 2, 2, 1⟩ }

def draws : Entropy := SealedGateway.Sample.entropy

/-- The connection of a client. -/
def connection : Connection := .start "c1" 1 config.nonceLimit config.outboundBuffer

/-- A frame that is too long, one that is empty, and a handshake whose reply cannot be written. -/
def events : List Event :=
  [.accept (some "c1") "" ⟨.v4 ⟨127, 0, 0, 1⟩, 4000⟩, .frame 0 (List.replicate 101 0),
    .frame 0 [], .frame 0 (Client.hello client), .failReply 0]

theorem length_hello : (Client.hello client).length ≤ config.maxFrameSize := by decide +kernel

theorem process_hello : ∃ ack s e, connection.session.process draws (Client.hello client) =
    (.ok (.acknowledged ack), s, e) :=
  ⟨_, _, _, Session.process_hello (keyPairOrGenerate_eq _) sharedSecret_eq⟩

/-- A client that does not take its reply. -/
theorem step_failReply {ack : Ack} (hc : g.connections = [c]) (hl : c.loop = .replying ack) :
    ∃ g', g.step (.failReply 0) = some g' ∧ g'.connections = [c.leave true] := by
  refine ⟨g.setConnection 0 (c.leave true), ?_, ?_⟩
  · simp only [step, failReply, hc, List.getElem?_cons_zero, hl]
  · show g.connections.set 0 _ = _
    rw [hc, List.set_cons_zero]

/-- The handshake breaks the only connection off. -/
theorem run_events : ∃ g₀ g c, create config draws = .ok g₀ ∧ g₀.run? events = some g ∧
    g.connections = [c] ∧ c.brokeOff = true ∧ c.inFrame = false := by
  obtain ⟨g₀, g, h₀, h, hconfig, hentropy, hconnections⟩ :
      ∃ g₀ g, create config draws = .ok g₀ ∧ g₀.run? (events.take 3) = some g ∧
        g.config = config ∧ g.entropy = draws ∧ g.connections = [connection] :=
    ⟨_, _, rfl, rfl, rfl, rfl, rfl⟩
  obtain ⟨ack, s, e, hp⟩ := process_hello
  have hc : g.connections[0]? = some connection := by rw [hconnections]; rfl
  have hframe := step_frame_agreed hc rfl (hconfig ▸ length_hello) (hentropy ▸ hp)
  have hreplying : ({ g.countReceived with entropy := e }.setConnection 0
      { connection with session := s, loop := .replying ack }).connections =
        [{ connection with session := s, loop := .replying ack }] := by
    show g.connections.set 0 _ = _
    rw [hconnections, List.set_cons_zero]
  obtain ⟨g', hreply, hleft⟩ := step_failReply hreplying rfl
  refine ⟨g₀, g', _, h₀, ?_, hleft, rfl, rfl⟩
  exact Machine.run_append_iff.mpr ⟨g, h, Machine.run_cons_iff.mpr ⟨_, hframe,
    Machine.run_cons_iff.mpr ⟨_, hreply, rfl⟩⟩⟩

end Sample

/-- Three frames came in, two failed, and one was broken off. -/
theorem frames_accounted_broken : ∃ g₀ g c, create Sample.config Sample.draws = .ok g₀ ∧
    g₀.run? Sample.events = some g ∧ g.connections = [c] ∧ c.brokeOff = true ∧
    g.tally.received = 3 ∧ g.tally.processed + g.tally.failed = 2 ∧
    ∃ lost, (acks 0 g₀ Sample.events).map Ack.encode = c.replies ++ (lost ++ c.pending) ∧
      lost.length ≤ 1 := by
  obtain ⟨g₀, g, c, h₀, h, hconnections, hbroke, hidle⟩ := Sample.run_events
  obtain ⟨-, -, -, -, hreplies, hreceived, hbalanced⟩ := frames_accounted h₀ h
  have hthree : g.tally.received = 3 := hreceived
  obtain ⟨⟨lost, hgiven, hlength, -⟩, -⟩ := hreplies 0 c (by rw [hconnections]; rfl)
  rw [hthree, hconnections, List.countP_singleton, List.countP_singleton, hidle, hbroke]
    at hbalanced
  refine ⟨g₀, g, c, h₀, h, hconnections, hbroke, hthree, ?_, lost, hgiven, hlength⟩
  simp only [Bool.false_eq_true, ↓reduceIte] at hbalanced
  omega

end Gateway

end SealedGateway
