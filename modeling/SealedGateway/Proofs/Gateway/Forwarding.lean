import Mathlib.Data.List.Perm.Subperm
import SealedGateway.Proofs.Broker.Publisher
import SealedGateway.Proofs.Gateway.Frames
import SealedGateway.Proofs.Gateway.Run

/-!
# What becomes of accepted messages

A message goes from the task of its connection into the queue of the pool, from there into the hands
of a worker, and from the worker to the broker, and everywhere it goes once.

- **`messages`**: the messages that a run brings to a connection, from its frames alone.
- **`Flow`**: what a connection accepted is in the queue or behind it, or in the hands of its task,
  or lost, which happens once the pool is closed and not before.
- **`ForwardInv`** is the invariant of a run, `ForwardInv.step` its step.
- **`forwarded_once_in_order`** has all of it for a run.
-/

namespace SealedGateway

/-- The message that the task of a connection has in hand. -/
def Connection.inHand (c : Connection) : List Message :=
  match c.loop with
  | .submitting m | .offering m => [m]
  | .listening | .replying _ | .leaving | .ended => []

namespace Gateway

open Connection

variable {config : Config} {entropy : Entropy} {g₀ g g' : Gateway} {ev : Event}
  {events : List Event} {n : Nat} {c c' : Connection}

/-! ## Messages -/

/-- The message that an event brings to a connection: that of a frame which its session opens. -/
def message? (g : Gateway) (n : Nat) : Event → Option Message
  | .frame k data =>
    match g.connections[n]? with
    | some c =>
      if k = n ∧ data.length ≤ g.config.maxFrameSize then
        match (c.session.process g.entropy data).1 with
        | .ok (.accepted m) => some m
        | _ => none
      else none
    | none => none
  | _ => none

/-- The messages that a run brings to a connection, oldest first. -/
def messages (n : Nat) (g : Gateway) (events : List Event) : List Message :=
  Machine.trace Gateway.step (fun g ev _ => (g.message? n ev).toList) g events

theorem messages_concat (h : g₀.run? events = some g) (hstep : g.step ev = some g') :
    messages n g₀ (events ++ [ev]) = messages n g₀ events ++ (g.message? n ev).toList :=
  Machine.trace_concat h hstep

theorem message?_of_other (h : ∀ data, ev ≠ .frame n data) : g.message? n ev = none := by
  cases ev with
  | frame k data =>
    have hne : k ≠ n := fun heq => h data (heq ▸ rfl)
    simp only [message?, hne, false_and, ↓reduceIte]
    split <;> rfl
  | _ => rfl

theorem message?_of_none (h : g.connections[n]? = none) : g.message? n ev = none := by
  cases ev with
  | frame k data => simp only [message?, h]
  | _ => rfl

/-- A connection accepts the message that an event brings, and nothing else. -/
theorem Move.accepted_eq (hm : Move g n ev c c') (hc : g.connections[n]? = some c) :
    c'.accepted = c.accepted ++ (g.message? n ev).toList := by
  have hquiet (hother : ∀ data, ev ≠ .frame n data) :
      c.accepted = c.accepted ++ (g.message? n ev).toList := by
    rw [message?_of_other hother, Option.toList_none, List.append_nil]
  cases hm with
  | same hev => exact hquiet hev
  | tooLong hl hd =>
    simp only [message?, hc, Nat.not_le.mpr hd, and_false, ↓reduceIte, Option.toList_none,
      List.append_nil]
  | agreed hl hd hp =>
    simp only [message?, hc, hd, and_self, ↓reduceIte, hp, Option.toList_none, List.append_nil]
  | opened hl hd hp =>
    simp only [message?, hc, hd, and_self, ↓reduceIte, hp, Option.toList_some]
  | rejected hl hd hp hr =>
    rcases hr with ⟨reason, rfl⟩ | ⟨f, rfl⟩ <;>
      simp only [message?, hc, hd, and_self, ↓reduceIte, hp, Option.toList_none, List.append_nil]
  | hungUp hev hl => exact hquiet (by rcases hev with rfl | rfl <;> exact nofun)
  | _ => exact hquiet nofun

/-- A connection accepted what the frames of the run brought to it. -/
theorem accepted_eq_messages (h₀ : create config entropy = .ok g₀) (h : g₀.run? events = some g)
    (hc : g.connections[n]? = some c) : c.accepted = messages n g₀ events := by
  have hall : messages n g₀ events = (g.connections[n]?.map accepted).getD [] := by
    refine connection_induction (motive := fun es c => messages n g₀ es = (c.map accepted).getD [])
      h₀ rfl (fun es g g' ev hrun hstep hn ih => ?_)
      (fun es g g' ev id serial hrun hstep hn ih => ?_)
      (fun es g g' ev c c' hrun hstep _ hc ih hm => ?_) h
    · rw [messages_concat hrun hstep, ih, message?_of_none hn]
      rfl
    · rw [messages_concat hrun hstep, ih, message?_of_none hn]
      rfl
    · rw [messages_concat hrun hstep, ih]
      exact (hm.accepted_eq hc).symm
  rw [hall, hc]
  rfl

/-! ## Deliveries -/

/-- The messages of one connection among deliveries. -/
def messagesFrom (n : Nat) (ds : List Delivery) : List Message :=
  (ds.filter fun d => d.connection = n).map Delivery.message

theorem messagesFrom_append (ds ds' : List Delivery) :
    messagesFrom n (ds ++ ds') = messagesFrom n ds ++ messagesFrom n ds' := by
  rw [messagesFrom, List.filter_append, List.map_append]
  rfl

@[simp] theorem messagesFrom_self (m : Message) : messagesFrom n [⟨n, m⟩] = [m] := by
  simp [messagesFrom]

theorem messagesFrom_ne {d : Delivery} (h : d.connection ≠ n) : messagesFrom n [d] = [] := by
  simp [messagesFrom, h]

theorem mem_messagesFrom {d : Delivery} {ds : List Delivery} (h : d ∈ ds) :
    d.message ∈ messagesFrom d.connection ds :=
  List.mem_map_of_mem (List.mem_filter.mpr ⟨h, by simp⟩)

theorem messagesFrom_filter (p : Message → Bool) (ds : List Delivery) :
    messagesFrom n (ds.filter fun d => p d.message) = (messagesFrom n ds).filter p := by
  simp only [messagesFrom, List.filter_map, List.filter_filter, Function.comp_def, Bool.and_comm]

/-- The broker records what a message asks for. -/
theorem askedSince_forward (b : Publisher) (m : Message) :
    askedSince b (b.forward m).2 = m.publication?.toList := by
  unfold askedSince
  rw [b.forward_asked, List.drop_left]

/-- The publication that a worker asks for when it forwards a delivery. -/
def request? (d : Delivery) : Option (Delivery × Publication) :=
  d.message.publication?.map fun p => (d, p)

theorem request?_eq_some_iff {d d' : Delivery} {p : Publication} :
    request? d = some (d', p) ↔ d.message.publication? = some p ∧ d' = d := by
  simp only [request?, Option.map_eq_some_iff, Prod.mk.injEq]
  constructor
  · rintro ⟨q, hq, rfl, rfl⟩
    exact ⟨hq, rfl⟩
  · rintro ⟨hp, rfl⟩
    exact ⟨p, hp, rfl, rfl⟩

theorem map_fst_filterMap_request? (ds : List Delivery) :
    (ds.filterMap request?).map Prod.fst = ds.filter fun d => d.message.publication?.isSome := by
  induction ds with
  | nil => rfl
  | cons d ds ih => cases hp : d.message.publication? <;> simp [request?, hp, ih]

/-- A message has a publication just if its kind is one of the closed set. -/
theorem forwardable_eq (c : Connection) :
    c.forwardable = c.accepted.filter fun m => m.publication?.isSome := by
  refine List.filter_congr fun m _ => ?_
  cases ha : m.audience <;> simp [Message.publication?, Audience.channel, ha]

/-- The messages of a connection that a publication was asked for, oldest first. -/
def askedFrom (g : Gateway) (n : Nat) : List Message := messagesFrom n (g.asked.map Prod.fst)

/-! ## From the connections to the pool -/

/-- What a connection accepted is in the queue of the pool or behind it, then in the hands of its
task, then lost: the task has left, and the pool is closed. -/
def Flow (g : Gateway) (n : Nat) (c : Connection) : Prop :=
  ∃ lost, c.accepted = messagesFrom n g.pool.accepted ++ (c.inHand ++ lost) ∧
    (lost ≠ [] → c.left = true ∧ g.pool.isClosed = true)

namespace Flow

/-- Nothing is lost unless the task has left and the pool is closed. -/
theorem of_kept (h : Flow g n c) (hkept : ¬ (c.left = true ∧ g.pool.isClosed = true)) :
    c.accepted = messagesFrom n g.pool.accepted ++ c.inHand := by
  obtain ⟨lost, haccepted, hlost⟩ := h
  cases lost with
  | nil => rwa [List.append_nil] at haccepted
  | cons m lost => exact absurd (hlost nofun) hkept

theorem of_present (h : Flow g n c) (hl : c.left = false) :
    c.accepted = messagesFrom n g.pool.accepted ++ c.inHand :=
  h.of_kept fun hlost => Bool.eq_false_iff.mp hl hlost.1

theorem of_open (h : Flow g n c) (hp : g.pool.isClosed = false) :
    c.accepted = messagesFrom n g.pool.accepted ++ c.inHand :=
  h.of_kept fun hlost => Bool.eq_false_iff.mp hp hlost.2

/-- A task goes on with the message that it has in hand, and the queue is as it was. -/
theorem of_same (h : Flow g n c) (haccepted : c'.accepted = c.accepted)
    (hhand : c'.inHand = c.inHand) (hleft : c.left = true → c'.left = true)
    (hpool : g'.pool.accepted = g.pool.accepted)
    (hclosed : g.pool.isClosed = true → g'.pool.isClosed = true) : Flow g' n c' := by
  obtain ⟨lost, hflow, hlost⟩ := h
  refine ⟨lost, ?_, fun hne => ⟨hleft (hlost hne).1, hclosed (hlost hne).2⟩⟩
  rw [haccepted, hhand, hpool, hflow]

/-- A task leaves with a message in hand, because the pool is closed. -/
theorem lose (h : Flow g n c) (hl : c.left = false) (hclosed : g'.pool.isClosed = true)
    (hpool : g'.pool.accepted = g.pool.accepted) : Flow g' n (c.leave true) := by
  refine ⟨c.inHand, ?_, fun _ => ⟨rfl, hclosed⟩⟩
  rw [hpool]
  exact h.of_present hl

/-- Whatever happens but that a message enters the queue. -/
theorem move (h : Flow g n c) (hm : Move g n ev c c') (ho : OffersOf g n c)
    (hev : ∀ i, ev ≠ .enqueue i) (hpool : g'.pool.accepted = g.pool.accepted)
    (hclosed : g.pool.isClosed = true → g'.pool.isClosed = true) : Flow g' n c' := by
  cases hm with
  | same | tooLong | rejected | mailed => exact h.of_same rfl rfl id hpool hclosed
  | agreed hl | hungUp _ hl =>
    have hloop := loop_of_listens hl
    exact h.of_same rfl (by simp [inHand, hloop, leave]) (by simp [left, hloop]) hpool hclosed
  | @opened data _ m s e hl hd hp =>
    have hloop := loop_of_listens hl
    have haccepted := h.of_present (by simp [left, hloop])
    have hhand : c.inHand = [] := by simp [inHand, hloop]
    refine ⟨[], ?_, absurd rfl⟩
    show c.accepted ++ [m] = messagesFrom n g'.pool.accepted ++ ([m] ++ [])
    rw [haccepted, hhand, hpool, List.append_nil, List.append_nil]
  | replied hl | replyFailed hl | mailedLast _ hl | released hl =>
    exact h.of_same rfl (by simp [inHand, hl, leave]) (by simp [left, leave, hl]) hpool hclosed
  | turnedAway hl hp => exact h.lose (by simp [left, hl]) (hclosed hp) hpool
  | offered hl hp =>
    exact h.of_same rfl (by simp [inHand, hl]) (by simp [left, hl]) hpool hclosed
  | enqueued _ => exact absurd rfl (hev _)
  | refused hi hp =>
    have hloop := ho _ (List.mem_of_getElem? hi)
    exact h.lose (by simp [left, hloop]) (hclosed (Pool.isClosed_of_isCancelled hp)) hpool

end Flow

/-! ## Runs -/

/-- The invariant of a run: publications are asked for what was handled, the pool takes messages
from connections only, and from each of them what it accepted. -/
structure ForwardInv (g : Gateway) : Prop where
  asked : g.asked = (g.pool.handled.map Prod.fst).filterMap request?
  origin : ∀ d ∈ g.pool.accepted, ∃ c, g.connections[d.connection]? = some c
  flow : ∀ (n : Nat) c, g.connections[n]? = some c → Flow g n c

namespace ForwardInv

theorem start (h : create config entropy = .ok g) : ForwardInv g := by
  obtain ⟨-, rfl⟩ := gateway_of_create h
  refine ⟨rfl, fun d hd => absurd hd List.not_mem_nil, fun n c hc => ?_⟩
  rw [List.getElem?_nil] at hc
  cases hc

/-- A worker that is done with a message asked for its publication. -/
theorem asked_forward {w : Nat} {d : Delivery} {ok : Bool} {pool : Pool Delivery}
    (h : ForwardInv g) (hw : g.pool.stage? w = some (.busy d))
    (hp : g.pool.finish w ok = some pool) :
    g.asked ++ (askedSince g.broker (g.broker.forward d.message).2).map (fun p => (d, p)) =
      (pool.handled.map Prod.fst).filterMap request? := by
  have hhandled : pool.handled = g.pool.handled ++ [(d, ok)] := by
    simp only [Pool.finish, hw, Option.some.injEq] at hp
    rw [← hp]
  rw [hhandled, List.map_append, List.filterMap_append, h.asked, askedSince_forward]
  cases hd : d.message.publication? <;> simp [request?, hd]

theorem asked_step (h : ForwardInv g) (hs : Step g ev g') :
    g'.asked = (g'.pool.handled.map Prod.fst).filterMap request? := by
  by_cases hev : ∃ w, ev = .forward w
  · obtain ⟨w, rfl⟩ := hev
    cases hs with
    | forwarded hw hp => exact h.asked_forward hw hp
  · have hev : ∀ w, ev ≠ .forward w := fun w heq => hev ⟨w, heq⟩
    have hasked : g'.asked = g.asked := by
      cases hs with
      | forwarded => exact absurd rfl (hev _)
      | _ => rfl
    rw [hasked, hs.pool_handled hev, h.asked]

/-- A message enters the queue, and its task goes on. -/
theorem flow_enqueue {i : Nat} {d : Delivery} {pool : Pool Delivery} (h : ForwardInv g)
    (hf : FrameInv g) (ho : g.pool.offers[i]? = some d) (hp : g.pool.enqueue i = some pool)
    (hc : g.connections[d.connection]? = some c) :
    let after := ({ g with pool }.setConnection d.connection
      { c with loop := .listening }).countProcessed
    (∀ d' ∈ after.pool.accepted, ∃ c', after.connections[d'.connection]? = some c') ∧
    ∀ (k : Nat) c', after.connections[k]? = some c' → Flow after k c' := by
  intro after
  have hpool : pool.accepted = g.pool.accepted ++ [d] ∧
      (g.pool.isClosed = true → pool.isClosed = true) := by
    have hs := Pool.step_of_eq_some (e := .enqueue i) hp
    refine ⟨?_, hs.isClosed⟩
    cases hs with
    | enqueued ho' _ => rw [Option.some.inj (ho.symm.trans ho')]
  have haccepted : after.pool.accepted = g.pool.accepted ++ [d] := hpool.1
  have hconnections : after.connections =
      g.connections.set d.connection { c with loop := .listening } := rfl
  obtain ⟨hlt, -⟩ := List.getElem?_eq_some_iff.mp hc
  have hloop := hf.offersOf hc d.message (List.mem_of_getElem? ho)
  refine ⟨fun d' hd' => ?_, fun k c' hc' => ?_⟩
  · have hlt' : d'.connection < g.connections.length := by
      rw [haccepted, List.mem_append, List.mem_singleton] at hd'
      rcases hd' with hd' | rfl
      · obtain ⟨c', hc'⟩ := h.origin d' hd'
        exact (List.getElem?_eq_some_iff.mp hc').1
      · exact hlt
    exact ⟨_, List.getElem?_eq_getElem (by rwa [hconnections, List.length_set])⟩
  · by_cases hk : d.connection = k
    · subst hk
      rw [hconnections, List.getElem?_set_self hlt] at hc'
      obtain rfl := Option.some.inj hc'
      have hflow := (h.flow _ c hc).of_present (by simp [left, hloop])
      have hhand : c.inHand = [d.message] := by simp [inHand, hloop]
      refine ⟨[], ?_, absurd rfl⟩
      show c.accepted = messagesFrom d.connection after.pool.accepted ++ ([] ++ [])
      rw [haccepted, messagesFrom_append, hflow, hhand, messagesFrom_self, List.append_nil,
        List.append_nil]
    · rw [hconnections, List.getElem?_set_ne hk] at hc'
      obtain ⟨lost, hflow, hlost⟩ := h.flow k c' hc'
      refine ⟨lost, ?_, fun hne => ⟨(hlost hne).1, hpool.2 (hlost hne).2⟩⟩
      rw [haccepted, messagesFrom_append, messagesFrom_ne hk, List.append_nil, hflow]

theorem step (h : ForwardInv g) (hf : FrameInv g) (hs : Step g ev g') : ForwardInv g' := by
  by_cases hev : ∃ i, ev = .enqueue i
  · obtain ⟨i, rfl⟩ := hev
    have hasked := h.asked_step hs
    cases hs with
    | enqueued ho hp hc =>
      obtain ⟨horigin, hflow⟩ := h.flow_enqueue hf ho hp hc
      exact ⟨hasked, horigin, hflow⟩
  · have hev : ∀ i, ev ≠ .enqueue i := fun i heq => hev ⟨i, heq⟩
    have hpool := hs.pool_accepted hev
    refine ⟨h.asked_step hs, fun d hd => ?_, fun n c' hc' => ?_⟩
    · obtain ⟨c, hc⟩ := h.origin d (hpool ▸ hd)
      obtain ⟨c', hc', -⟩ := hs.connection hc
      exact ⟨c', hc'⟩
    · cases hc : g.connections[n]? with
      | none =>
        obtain ⟨id, serial, rfl⟩ := hs.newConnection hc hc'
        refine ⟨[], ?_, absurd rfl⟩
        -- Nothing in the queue or behind it can be of a connection that was not there.
        have hnone : messagesFrom n g'.pool.accepted = [] := by
          rw [messagesFrom, List.map_eq_nil_iff, List.filter_eq_nil_iff, hpool]
          intro d hd heq
          obtain ⟨c, hd⟩ := h.origin d hd
          rw [of_decide_eq_true heq, hc] at hd
          cases hd
        rw [hnone]
        rfl
      | some c =>
        obtain ⟨d, hd, hmove⟩ := hs.connection hc
        obtain rfl : d = c' := Option.some.inj (hd.symm.trans hc')
        exact (h.flow n c hc).move hmove (hf.offersOf hc) hev hpool hs.pool_isClosed

theorem run (h₀ : create config entropy = .ok g₀) (h : g₀.run? events = some g) :
    ForwardInv g := by
  refine Machine.run_induction (f := Gateway.step) (motive := fun _ g => ForwardInv g)
    (start h₀) ?_ h
  intro es ev t u hrun ih hstep
  exact ih.step (.run h₀ hrun) (step_of_eq_some hstep)

/-- What was asked for of a connection is what of its messages was handled and has a channel. -/
theorem askedFrom_eq (h : ForwardInv g) (n : Nat) :
    g.askedFrom n = (messagesFrom n (g.pool.handled.map Prod.fst)).filter
      fun m => m.publication?.isSome := by
  rw [askedFrom, h.asked, map_fst_filterMap_request?]
  exact messagesFrom_filter (fun m => m.publication?.isSome) _

end ForwardInv

/-! ## The broker -/

/-- What workers ask for is what the broker records. -/
theorem Step.asked (hs : Step g ev g') : ∃ more, g'.asked = g.asked ++ more ∧
    g'.broker.asked = g.broker.asked ++ more.map Prod.snd := by
  cases hs with
  | @forwarded w d pool hw hp =>
    refine ⟨_, rfl, ?_⟩
    show (g.broker.forward d.message).2.asked = _
    rw [askedSince_forward, List.map_map, g.broker.forward_asked]
    exact congrArg _ (List.map_id _).symm
  | _ => exact ⟨[], (List.append_nil _).symm, (List.append_nil _).symm⟩

/-- What the broker is asked for is published, unless it refuses. -/
theorem Step.published (hs : Step g ev g') : ∃ more, g'.broker.asked = g.broker.asked ++ more ∧
    (g'.broker.published = g.broker.published ++ more ∨
      g'.broker.published = g.broker.published ∧ g.broker.refuses = true) := by
  cases hs with
  | @forwarded w d pool hw hp =>
    refine ⟨_, g.broker.forward_asked d.message, ?_⟩
    have hpublished := g.broker.forward_published d.message
    by_cases hr : g.broker.refuses = true
    · rw [if_pos hr, List.append_nil] at hpublished
      exact .inr ⟨hpublished, hr⟩
    · rw [if_neg hr] at hpublished
      exact .inl hpublished
  | _ => exact ⟨[], (List.append_nil _).symm, .inl (List.append_nil _).symm⟩

theorem Step.refuses (hs : Step g ev g') (hev : ∀ refuses, ev ≠ .setRefusing refuses) :
    g'.broker.refuses = g.broker.refuses := by
  cases hs with
  | forwarded hw hp => exact g.broker.forward_refuses _
  | setRefusing => exact absurd rfl (hev _)
  | _ => rfl

theorem asked_of_run (h₀ : create config entropy = .ok g₀) (h : g₀.run? events = some g) :
    g.broker.asked = g.asked.map Prod.snd := by
  refine Machine.run_invariant (f := Gateway.step)
    (P := fun g => g.broker.asked = g.asked.map Prod.snd) ?_ ?_ h
  · obtain ⟨-, rfl⟩ := gateway_of_create h₀
    rfl
  · intro t ev u ih hstep
    obtain ⟨more, hasked, hrecorded⟩ := (step_of_eq_some hstep).asked
    rw [hrecorded, hasked, List.map_append, ih]

/-- What the broker published is some of what it was asked for, in the same order, and all of it if
it never refused. -/
theorem published_of_run (h₀ : create config entropy = .ok g₀) (h : g₀.run? events = some g) :
    g.broker.published.Sublist g.broker.asked ∧
      ((∀ refuses, .setRefusing refuses ∉ events) →
        g.broker.refuses = false ∧ g.broker.published = g.broker.asked) := by
  refine Machine.run_induction (f := Gateway.step) (motive := fun es g =>
    g.broker.published.Sublist g.broker.asked ∧
      ((∀ refuses, .setRefusing refuses ∉ es) →
        g.broker.refuses = false ∧ g.broker.published = g.broker.asked)) ?_ ?_ h
  · obtain ⟨-, rfl⟩ := gateway_of_create h₀
    exact ⟨.slnil, fun _ => ⟨rfl, rfl⟩⟩
  intro es ev t u _ ⟨hsome, hall⟩ hstep
  have hs := step_of_eq_some hstep
  obtain ⟨more, hasked, hpublished⟩ := hs.published
  rw [hasked]
  refine ⟨?_, fun hnever => ?_⟩
  · rcases hpublished with hmore | ⟨hsame, -⟩
    · exact hmore ▸ hsome.append_right _
    · exact hsame ▸ hsome.trans (List.sublist_append_left _ _)
  · simp only [List.mem_append, List.mem_singleton, not_or] at hnever
    obtain ⟨hrefuses, heq⟩ := hall fun refuses => (hnever refuses).1
    rw [hs.refuses fun refuses heq => (hnever refuses).2 heq.symm, hrefuses]
    rcases hpublished with hmore | ⟨-, hrefuses'⟩
    · exact ⟨rfl, by rw [hmore, heq]⟩
    · rw [hrefuses] at hrefuses'
      cases hrefuses'

/-! ## Once and in order -/

theorem mem_asked (h : ForwardInv g) {d : Delivery} {p : Publication} (hd : (d, p) ∈ g.asked) :
    d ∈ g.pool.handled.map Prod.fst ∧ d.message.publication? = some p := by
  rw [h.asked, List.mem_filterMap] at hd
  obtain ⟨d', hd', heq⟩ := hd
  obtain ⟨hp, rfl⟩ := request?_eq_some_iff.mp heq
  exact ⟨hd', hp⟩

/-- **Forwarding is at most once, in order and to the right channel.** In every run, what the broker
is asked for are payloads of messages that connections accepted, each on the channel of its
audience. What the broker publishes is some of that in the same order, and all of it if it never
refuses. A connection accepts what its session opens, in the order of the frames; and each time it
accepts a message, there is one publication asked for at most, and none if the kind of the message
is outside the closed set. With one worker, the publications of a connection are asked for in the
order in which it accepted their messages and without a gap, and as long as the pool is open, they
are all there once the queue is empty, the worker has nothing in hand, and neither has the
connection. -/
theorem forwarded_once_in_order (h₀ : create config entropy = .ok g₀)
    (h : g₀.run? events = some g) :
    (∀ d p, (d, p) ∈ g.asked →
      (∃ channel, d.message.audience.channel = some channel ∧ p = (channel, d.message.payload)) ∧
      ∃ c, g.connections[d.connection]? = some c ∧ d.message ∈ c.accepted) ∧
    g.broker.asked = g.asked.map Prod.snd ∧
    g.broker.published.Sublist (g.asked.map Prod.snd) ∧
    ((∀ refuses, .setRefusing refuses ∉ events) →
      g.broker.published = g.asked.map Prod.snd) ∧
    ∀ n c, g.connections[n]? = some c →
      c.accepted = messages n g₀ events ∧
      (g.askedFrom n).Subperm c.forwardable ∧
      (config.pool.maxWorkers = 1 →
        g.askedFrom n <+: c.forwardable ∧
        (g.pool.isClosed = false → g.pool.queue = [] → g.pool.inFlight = [] → c.inHand = [] →
          g.askedFrom n = c.forwardable)) := by
  have hinv : ForwardInv g := .run h₀ h
  obtain ⟨hfault, es, hcalm, hpool⟩ := pool_run h₀ h
  have hjobs : Pool.JobInv g.pool := .run hcalm hpool
  have hsome : g.pool.accepted.Perm
      (g.pool.queue ++ g.pool.inFlight ++ g.pool.handled.map Prod.fst) := by
    rw [hjobs.accepted, List.append_assoc]
    exact (hjobs.started.append_right _).trans List.perm_append_comm
  have hrecorded : g.broker.asked = g.asked.map Prod.snd := asked_of_run h₀ h
  obtain ⟨hpublished, hall⟩ := published_of_run h₀ h
  refine ⟨fun d p hd => ?_, hrecorded, hrecorded ▸ hpublished, fun hnever =>
    hrecorded ▸ (hall hnever).2, fun n c hc =>
    ⟨accepted_eq_messages h₀ h hc, ?_, fun hone => ?_⟩⟩
  · obtain ⟨hhandled, hp⟩ := mem_asked hinv hd
    obtain ⟨channel, hchannel, rfl⟩ := Option.map_eq_some_iff.mp hp
    have haccepted : d ∈ g.pool.accepted := hsome.mem_iff.mpr (List.mem_append_right _ hhandled)
    obtain ⟨c, hc⟩ := hinv.origin d haccepted
    obtain ⟨lost, hflow, -⟩ := hinv.flow _ c hc
    refine ⟨⟨channel, hchannel, rfl⟩, c, hc, ?_⟩
    rw [hflow]
    exact List.mem_append_left _ (mem_messagesFrom haccepted)
  · -- What was handled is part of what entered the queue, which is part of what was accepted.
    obtain ⟨lost, hflow, -⟩ := hinv.flow n c hc
    have hfrom : (messagesFrom n (g.pool.handled.map Prod.fst)).Subperm
        (messagesFrom n g.pool.accepted) := by
      have hperm := (hsome.filter fun d => d.connection = n).map Delivery.message
      rw [List.filter_append, List.map_append] at hperm
      exact (List.sublist_append_right _ _).subperm.trans hperm.symm.subperm
    rw [hinv.askedFrom_eq, forwardable_eq, hflow]
    exact (hfrom.trans (List.sublist_append_left _ _).subperm).filter _
  · have hstarted := (Pool.Alone.run hfault hone hcalm hpool).started
    have haccepted : g.pool.accepted =
        g.pool.handled.map Prod.fst ++ (g.pool.inFlight ++ g.pool.queue) := by
      rw [hjobs.accepted, hstarted, List.append_assoc]
    rw [hinv.askedFrom_eq, forwardable_eq]
    refine ⟨?_, fun hopen hqueue hflight hhand => ?_⟩
    · obtain ⟨lost, hflow, -⟩ := hinv.flow n c hc
      rw [hflow, haccepted, messagesFrom_append, List.append_assoc]
      exact (List.prefix_append _ _).filter _
    · rw [(hinv.flow n c hc).of_open hopen, hhand, haccepted, hqueue, hflight, List.append_nil,
        List.append_nil, List.append_nil]

/-! ## A message that is forwarded -/

/-- A frame that is a message. -/
theorem step_frame_opened {data : Bytes} {m : Message} {s : Session} {e : Entropy}
    (hc : g.connections[n]? = some c) (hl : c.listens = true)
    (hd : data.length ≤ g.config.maxFrameSize)
    (hp : c.session.process g.entropy data = (.ok (.accepted m), s, e)) :
    g.step (.frame n data) = some ({ g.countReceived with entropy := e }.setConnection n
      { c with session := s, loop := .submitting m, accepted := c.accepted ++ [m] }) := by
  simp only [step, frame, hc, hl, Nat.not_lt.mpr hd, hp, Bool.not_true, Bool.false_eq_true,
    ↓reduceIte]
  rfl

namespace Sample

open SealedGateway.Sample (client key nonce message session keyPairOrGenerate_eq sharedSecret_eq
  canonical length_le)

/-- One worker, and frames that may have a length. -/
def oneWorker (maxFrameSize : Nat) : Config :=
  { Sample.config with maxFrameSize, pool := ⟨1, 1, 2, 1⟩ }

def nextNonce : Octets 12 := ⟨List.replicate 12 6, rfl⟩

/-- A message to a group, behind the first one. -/
def nextMessage : Message := ⟨"all", "t2", "u1", .group, "g1", "m2"⟩

def nextFrame : Bytes := Client.sealedFrame (Gcm.encrypt key nextNonce nextMessage.encode) nextNonce

/-- A handshake and two messages, which wait in the queue side by side, all the way to the
broker. -/
def forwarding : List Event :=
  [.accept (some "c1") "" ⟨.v4 ⟨127, 0, 0, 1⟩, 4000⟩, .frame 0 (Client.hello client),
    .writeReply 0, .frame 0 SealedGateway.Sample.frame, .submit 0, .enqueue 0, .frame 0 nextFrame,
    .submit 0, .enqueue 0, .pool (.poll 0), .pool (.take 0), .forward 0, .pool (.poll 0),
    .pool (.take 0), .forward 0]

/-- The messages come through. -/
theorem run_forwarding {size : Nat} (hhello : Sample.config.maxFrameSize ≤ size)
    (hframe : SealedGateway.Sample.frame.length ≤ size) (hnext : nextFrame.length ≤ size) :
    ∃ g₀ g c, create (oneWorker size) draws = .ok g₀ ∧ g₀.run? forwarding = some g ∧
      g.connections = [c] ∧ c.accepted = [message, nextMessage] ∧ c.inHand = [] ∧
      g.pool.isClosed = false ∧ g.pool.queue = [] ∧ g.pool.inFlight = [] := by
  have hagreed : connection.session.process draws (Client.hello client) = _ :=
    Session.process_hello (keyPairOrGenerate_eq _) sharedSecret_eq
  have hopened : (session 4 []).process ⟨[]⟩ SealedGateway.Sample.frame = _ :=
    Session.process_sealedFrame rfl List.not_mem_nil (Nat.zero_lt_succ _) canonical length_le
  have hfresh : nextNonce ∉ (session 4 [nonce]).nonces := by decide +kernel
  have hcanonical : nextMessage.audience.Canonical := by decide +kernel
  have hlength : nextMessage.encode.length ≤ Gcm.maxLength := by decide +kernel
  have hagain : (session 4 [nonce]).process ⟨[]⟩ nextFrame = _ :=
    Session.process_sealedFrame rfl hfresh (by decide) hcanonical hlength
  exact ⟨_, _, _, rfl, Machine.run_cons_iff.mpr ⟨_, rfl, Machine.run_cons_iff.mpr
    ⟨_, step_frame_agreed (c := connection) rfl rfl (Nat.le_trans length_hello hhello) hagreed,
      Machine.run_cons_iff.mpr ⟨_, rfl, Machine.run_cons_iff.mpr
        ⟨_, step_frame_opened (s := session 4 [nonce]) rfl rfl hframe hopened,
          Machine.run_cons_iff.mpr ⟨_, rfl, Machine.run_cons_iff.mpr ⟨_, rfl,
            Machine.run_cons_iff.mpr ⟨_, step_frame_opened (s := session 4 [nextNonce, nonce])
              rfl rfl hnext hagain, rfl⟩⟩⟩⟩⟩⟩⟩, rfl, rfl, rfl, rfl, rfl, rfl⟩

end Sample

/-- Two messages of one connection are published once each, on the channels of their audiences and
in their order. -/
theorem forwarded_once_in_order_greeting : ∃ g₀ g c,
    create
      (Sample.oneWorker (Sample.config.maxFrameSize +
        (SealedGateway.Sample.frame.length + Sample.nextFrame.length))) Sample.draws = .ok g₀ ∧
    g₀.run? Sample.forwarding = some g ∧ g.connections = [c] ∧
    messages 0 g₀ Sample.forwarding = [SealedGateway.Sample.message, Sample.nextMessage] ∧
    g.askedFrom 0 = [SealedGateway.Sample.message, Sample.nextMessage] ∧
    g.broker.published = g.broker.asked := by
  obtain ⟨g₀, g, c, h₀, h, hconnections, haccepted, hhand, hopen, hqueue, hflight⟩ :=
    Sample.run_forwarding (Nat.le_add_right Sample.config.maxFrameSize _)
      (Nat.le_add_left_of_le (Nat.le_add_right SealedGateway.Sample.frame.length _))
      (Nat.le_add_left_of_le (Nat.le_add_left Sample.nextFrame.length _))
  obtain ⟨-, hrecorded, -, hpublished, hconnection⟩ := forwarded_once_in_order h₀ h
  obtain ⟨hmessages, -, hone⟩ := hconnection 0 c (by rw [hconnections]; rfl)
  have hforwardable : c.forwardable = [SealedGateway.Sample.message, Sample.nextMessage] := by
    rw [Connection.forwardable, haccepted]
    rfl
  obtain ⟨-, hall⟩ := hone rfl
  refine ⟨g₀, g, c, h₀, h, hconnections, hmessages.symm.trans haccepted,
    (hall hopen hqueue hflight hhand).trans hforwardable, ?_⟩
  rw [hrecorded]
  exact hpublished (by simp [Sample.forwarding])

end Gateway

end SealedGateway
