import SealedGateway.Proofs.Session.Window

/-!
# Replays across handshakes

A key accepts a nonce once and no more messages than the limit, as long as the window belongs to
the key. But a session keeps its key pair while a handshake empties the window, so a handshake that
repeats a peer brings an old key back, and with it every message that was accepted under it.

- **`ReplaySafe`** is what the window is for, **`KeysNotReused`** what it takes for granted.
- **`SafeInv`** is the invariant: the window holds all messages accepted under the key. One more
  frame is safe (`SafeInv.safe_record`); only a key that was used before breaks it.
- **`replaySafe_iff_keysNotReused`**: that is the exact condition.
- **`not_replaySafe_exchange`**: any client's exchange, sent twice, is a replay.
-/

namespace SealedGateway.Session

/-- Whether a message was accepted under `key`. -/
def Event.takenUnder (key : SessionKey) (ev : Event) : Bool :=
  ev.accepted && ev.before.key = some key

/-- No key accepts a nonce twice, or more messages than `limit`. -/
structure ReplaySafe (limit : Nat) (events : List Event) : Prop where
  fresh : events.Pairwise fun later earlier => ∀ key, later.takenUnder key = true →
    earlier.takenUnder key = true → Frame.nonce? later.frame ≠ Frame.nonce? earlier.frame
  bounded : ∀ key, (events.filter (·.takenUnder key)).length ≤ limit

/-- No handshake brings a key back under which a message was accepted before. -/
def KeysNotReused (events : List Event) : Prop :=
  events.Pairwise fun later earlier => later.acknowledged = true → earlier.accepted = true →
    earlier.before.key ≠ later.after.key

theorem Event.takenUnder_iff {key : SessionKey} {ev : Event} :
    ev.takenUnder key = true ↔ ev.accepted = true ∧ ev.before.key = some key := by
  simp [takenUnder]

theorem Event.takenUnder_of_not_accepted {ev : Event} (h : ev.accepted = false)
    (key : SessionKey) : ev.takenUnder key = false := by
  simp [takenUnder, h]

/-- A frame that is no message changes nothing. -/
theorem ReplaySafe.cons {limit : Nat} {ev : Event} {events : List Event}
    (h : ReplaySafe limit events) (ha : ev.accepted = false) : ReplaySafe limit (ev :: events) where
  fresh := by
    refine List.pairwise_cons.mpr ⟨fun earlier _ key hk => ?_, h.fresh⟩
    rw [ev.takenUnder_of_not_accepted ha key] at hk
    cases hk
  bounded := by
    intro key
    rw [List.filter_cons_of_neg (by simp [ev.takenUnder_of_not_accepted ha key])]
    exact h.bounded key

/-! ## The window belongs to the key -/

/-- The window holds all messages that were accepted under the session's key. -/
structure SafeInv (limit : Nat) (r : Run) : Prop where
  window : WindowInv limit r
  taken : ∀ key, r.session.key = some key →
    r.events.filter (·.takenUnder key) = Session.window r.events
  safe : ReplaySafe (max limit 1) r.events

namespace SafeInv

variable {limit : Nat} {r : Run} {frame : Bytes} {result : Except Failure Outcome} {s : Session}
  {e : Entropy}

theorem start (connectionId : String) (limit : Nat) (e : Entropy) :
    SafeInv limit (Run.start connectionId limit e) where
  window := .start connectionId limit e
  taken := nofun
  safe := ⟨List.Pairwise.nil, fun _ => Nat.zero_le _⟩

/-- A nonce outside the window is new under the session's key. -/
theorem nonce?_ne (h : SafeInv limit r) {key : SessionKey} {nonce : Octets 12} {ev : Event}
    (hk : r.session.key = some key) (hu : nonce ∉ r.session.nonces) (hev : ev ∈ r.events)
    (ht : ev.takenUnder key = true) : Frame.nonce? ev.frame ≠ some nonce := by
  intro heq
  have hw : ev ∈ Session.window r.events := by
    rw [← h.taken key hk]
    exact List.mem_filter.mpr ⟨hev, ht⟩
  have hmem : some nonce ∈ r.session.nonces.map some := by
    rw [h.window.nonces, ← heq]
    exact List.mem_map_of_mem hw
  obtain ⟨n, hn, hsome⟩ := List.mem_map.mp hmem
  exact hu (Option.some.inj hsome ▸ hn)

/-- One more frame is safe, whatever it is. -/
theorem safe_record (h : SafeInv limit r) (hs : Step r.session r.entropy frame result s e) :
    ReplaySafe (max limit 1) (r.record frame result s e).events := by
  cases hs with
  | agreed hg hp hs => exact h.safe.cons rfl
  | lowOrder hg hp hs => exact h.safe.cons rfl
  | failed hf => exact h.safe.cons rfl
  | dropped => exact h.safe.cons rfl
  | @accepted key _ _ nonce m hk hd hn hu hl hm =>
    have hnonce := Frame.nonce?_eq hd hn
    refine ⟨List.pairwise_cons.mpr ⟨fun earlier hev key' hlater hearlier => ?_, h.safe.fresh⟩,
      fun key' => ?_⟩
    · have hkey : key' = key :=
        Option.some.inj ((Event.takenUnder_iff.mp hlater).2.symm.trans hk)
      rw [hkey] at hearlier
      rw [hnonce]
      exact (h.nonce?_ne hk hu hev hearlier).symm
    · by_cases hkey : r.session.key = some key'
      · rw [Run.record, List.filter_cons_of_pos (Event.takenUnder_iff.mpr ⟨rfl, hkey⟩),
          List.length_cons, h.taken key' hkey, ← h.window.length_eq, ← h.window.nonceLimit]
        exact hl
      · have hother : ¬ Event.takenUnder key' ⟨frame, r.session, .ok (.accepted m),
            { r.session with nonces := nonce :: r.session.nonces }⟩ = true :=
          fun ht => hkey (Event.takenUnder_iff.mp ht).2
        rw [Run.record, List.filter_cons_of_neg hother]
        exact h.safe.bounded key'

/-- A frame that is neither a handshake nor a message keeps the messages under the key. -/
theorem of_other (h : SafeInv limit r) (hs : Step r.session r.entropy frame result s e)
    (hkey : s.key = r.session.key)
    (hk : Event.acknowledged ⟨frame, r.session, result, s⟩ = false)
    (ha : Event.accepted ⟨frame, r.session, result, s⟩ = false) :
    SafeInv limit (r.record frame result s e) where
  window := h.window.record hs
  taken := by
    intro key hsome
    have ht : ¬ Event.takenUnder key ⟨frame, r.session, result, s⟩ = true := by
      rw [Event.takenUnder_of_not_accepted ha]
      exact Bool.false_ne_true
    rw [Run.record, List.filter_cons_of_neg ht, window_other hk ha]
    exact h.taken key (hkey ▸ hsome)
  safe := h.safe_record hs

/-- The window goes on to hold all messages under the key, unless an old key comes back. -/
theorem record (h : SafeInv limit r) (hs : Step r.session r.entropy frame result s e)
    (hnew : KeysNotReused (r.record frame result s e).events) :
    SafeInv limit (r.record frame result s e) := by
  cases hs with
  | lowOrder hg hp hs => exact h.of_other (.lowOrder hg hp hs) rfl rfl rfl
  | failed hf => exact h.of_other (.failed hf) rfl rfl rfl
  | dropped => exact h.of_other .dropped rfl rfl rfl
  | agreed hg hp hs =>
    refine ⟨h.window.record (.agreed hg hp hs), ?_, h.safe_record (.agreed hg hp hs)⟩
    intro key hkey
    have hold := (List.pairwise_cons.mp hnew).1
    rw [Run.record, window_acknowledged rfl, List.filter_eq_nil_iff]
    intro ev hev ht
    obtain ⟨haccepted, hbefore⟩ := Event.takenUnder_iff.mp ht
    rcases List.mem_cons.mp hev with rfl | hev
    · cases haccepted
    · exact hold ev hev rfl haccepted (hbefore.trans hkey.symm)
  | accepted hk hd hn hu hl hm =>
    have hstep := Step.accepted (e := r.entropy) hk hd hn hu hl hm
    refine ⟨h.window.record hstep, ?_, h.safe_record hstep⟩
    intro key hkey
    rw [Run.record, List.filter_cons_of_pos (Event.takenUnder_iff.mpr ⟨rfl, hkey⟩),
      window_accepted rfl, h.taken key hkey]

/-- Along frames that bring no old key back the window belongs to the key. -/
theorem feed (h : SafeInv limit r) (frames : List Bytes)
    (hnew : KeysNotReused (r.feed frames).events) : SafeInv limit (r.feed frames) := by
  induction frames generalizing r with
  | nil => exact h
  | cons frame frames ih =>
    obtain ⟨result, s, e, hs, hr⟩ := r.next_step frame
    have hfirst : KeysNotReused (r.next frame).events :=
      hnew.sublist ((r.next frame).events_suffix frames).sublist
    exact ih (hr ▸ h.record hs (hr ▸ hfirst)) hnew

end SafeInv

/-! ## An old key brings its messages back -/

/-- A message that was accepted under the key of a session is accepted again when the window is
empty. -/
theorem replay_accepted {ev : Event} {r : Run} {e e' : Entropy}
    (hs : Step ev.before e ev.frame ev.result ev.after e') (ha : ev.accepted = true)
    (hkey : ev.before.key = r.session.key) (hempty : r.session.nonces = [])
    (hlimit : 0 < r.session.nonceLimit) :
    ∃ again, (r.next ev.frame).events = again :: r.events ∧ again.frame = ev.frame ∧
      again.accepted = true ∧ again.before.key = ev.before.key := by
  obtain ⟨m, hresult⟩ := Event.accepted_iff.mp ha
  rw [hresult] at hs
  obtain ⟨key, ciphertext, iv, nonce, hk, hd, hn, hm⟩ := hs.of_accepted
  have hp := process_sealed (e := r.entropy) (hkey.symm.trans hk) hd hn
  have hroom : ¬ r.session.nonceLimit ≤ ([] : List (Octets 12)).length := Nat.not_le.mpr hlimit
  rw [hempty, if_neg List.not_mem_nil, if_neg hroom, hm] at hp
  rw [Run.next_of_process hp]
  exact ⟨_, rfl, rfl, rfl, hkey.symm⟩

/-- Where the repetition of a message is safe although the window is empty, the key is not the
one that the message was accepted under. -/
theorem key_ne_of_replaySafe {limit : Nat} {ev : Event} {r : Run} {e e' : Entropy}
    (hs : Step ev.before e ev.frame ev.result ev.after e') (ha : ev.accepted = true)
    (hmem : ev ∈ r.events) (hempty : r.session.nonces = []) (hlimit : 0 < r.session.nonceLimit)
    (hsafe : ReplaySafe limit (r.next ev.frame).events) : ev.before.key ≠ r.session.key := by
  intro hkey
  obtain ⟨again, hevents, hframe, hagain, hbefore⟩ := replay_accepted hs ha hkey hempty hlimit
  obtain ⟨m, hm⟩ := Event.accepted_iff.mp ha
  obtain ⟨key, -, -, -, hk, -⟩ := (hm ▸ hs).of_accepted
  rw [hevents] at hsafe
  have hne := (List.pairwise_cons.mp hsafe.fresh).1 ev hmem key
    (Event.takenUnder_iff.mpr ⟨hagain, hbefore.trans hk⟩) (Event.takenUnder_iff.mpr ⟨ha, hk⟩)
  exact hne (congrArg Frame.nonce? hframe)

/-- Where no single frame more is a replay, no handshake has brought a key back. -/
theorem KeysNotReused.of_replaySafe {limit : Nat} {r : Run} (hw : WindowInv limit r)
    (hsteps : ∀ ev ∈ r.events, ∃ e e', Step ev.before e ev.frame ev.result ev.after e')
    (h₀ : KeysNotReused r.events) (frames : List Bytes)
    (hsafe : ∀ before, before <+: frames → ∀ frame,
      ReplaySafe (max limit 1) (r.feed (before ++ [frame])).events) :
    KeysNotReused (r.feed frames).events := by
  induction frames generalizing r with
  | nil => exact h₀
  | cons first frames ih =>
    obtain ⟨result, s, e, hs, hr⟩ := r.next_step first
    have hw' : WindowInv limit (r.next first) := hr ▸ hw.record hs
    have hlimit : 0 < (r.next first).session.nonceLimit := by
      rw [hw'.nonceLimit]
      omega
    have hfirst : KeysNotReused (r.next first).events := by
      rw [hr]
      refine List.pairwise_cons.mpr ⟨fun earlier hev hack hacc => ?_, h₀⟩
      obtain ⟨ack, rfl⟩ : ∃ ack, result = .ok (.acknowledged ack) :=
        Event.acknowledged_iff.mp hack
      have hagain : ReplaySafe (max limit 1) ((r.next first).next earlier.frame).events :=
        hsafe [first] (List.cons_prefix_cons.mpr ⟨rfl, List.nil_prefix⟩) earlier.frame
      obtain ⟨e₁, e₂, hearlier⟩ := hsteps earlier hev
      rw [hr] at hlimit hagain
      exact key_ne_of_replaySafe hearlier hacc (List.mem_cons_of_mem _ hev)
        hs.nonces_of_acknowledged hlimit hagain
    refine ih hw' (Run.events_step hsteps [first]) hfirst fun before hbefore frame => ?_
    exact hsafe (first :: before) (List.cons_prefix_cons.mpr ⟨rfl, hbefore⟩) frame

/-- **Replays.** A run in which no handshake brings an old key back is safe; and that no handshake
of a run does so is just what it takes for every frame that could come after a part of the run to
be safe. -/
theorem replaySafe_iff_keysNotReused (connectionId : String) (limit : Nat) (e : Entropy)
    (frames : List Bytes) :
    let events := (run connectionId limit e frames).events
    (KeysNotReused events → ReplaySafe (max limit 1) events) ∧
    (KeysNotReused events ↔ ∀ before, before <+: frames → ∀ frame,
      ReplaySafe (max limit 1) (run connectionId limit e (before ++ [frame])).events) := by
  intro events
  have hstart := SafeInv.start connectionId limit e
  refine ⟨fun h => (hstart.feed frames h).safe, fun h before hbefore frame => ?_, fun h => ?_⟩
  · obtain ⟨rest, rfl⟩ := hbefore
    have hpart : KeysNotReused (run connectionId limit e before).events := by
      have hsuffix := (run connectionId limit e before).events_suffix rest
      rw [← run_append] at hsuffix
      exact h.sublist hsuffix.sublist
    obtain ⟨result, s, e', hs, hr⟩ := (run connectionId limit e before).next_step frame
    rw [run, Run.feed_concat, ← run, hr]
    exact (hstart.feed before hpart).safe_record hs
  · exact KeysNotReused.of_replaySafe hstart.window (by simp [Run.start]) List.Pairwise.nil frames h

namespace Sample

open SealedGateway.Sample (entropy gateway nonce message frames session messageEvent handshakeEvent
  run_frames canonical length_le)

/-- Another client. -/
def other : KeyPair := .ofSecret ⟨List.replicate 32 3, rfl⟩

def otherSecret : Octets 32 := Curve25519.scalarMult gateway.secret other.publicKey

def otherKey : SessionKey := deriveKey otherSecret.toBytes

theorem sharedSecret_other : sharedSecret gateway other.publicKey = .ok otherSecret :=
  sharedSecret_eq_ok (by decide +kernel)

theorem key_ne_otherKey : SealedGateway.Sample.key ≠ otherKey := by decide +kernel

/-- A message of the other client, which is the first one's again, under the same nonce. -/
def otherFrame : Bytes := Client.sealedFrame (Gcm.encrypt otherKey nonce message.encode) nonce

/-- One client's exchange, then the other's. -/
def turns : List Bytes := frames ++ [Client.hello other, otherFrame]

/-- The session once the other client's messages of `nonces` are accepted. -/
def otherSession (nonces : List (Octets 12)) : Session :=
  { session 4 nonces with key := some otherKey }

theorem events_turns : (run "c1" 4 entropy turns).events =
    [⟨otherFrame, otherSession [], .ok (.accepted message), otherSession [nonce]⟩,
      ⟨Client.hello other, session 4 [nonce],
        .ok (.acknowledged (Ack.ofKey (Base64.encode gateway.publicKey.toBytes))), otherSession []⟩,
      messageEvent 4, handshakeEvent 4 (.create "c1" 4)] := by
  rw [turns, run_append, run_frames]
  exact congrArg Run.events (feed_exchange (keyPairOrGenerate_kept rfl) sharedSecret_other rfl
    (Nat.zero_lt_succ _) canonical length_le)

/-- The other client's handshake follows a message, but brings a key of its own. -/
theorem keysNotReused_turns : KeysNotReused (run "c1" 4 entropy turns).events := by
  rw [events_turns]
  refine List.pairwise_cons.mpr ⟨fun _ _ hack => ?_, List.pairwise_cons.mpr
    ⟨fun earlier hmem _ haccepted => ?_, List.pairwise_cons.mpr
      ⟨fun _ _ hack => ?_, List.pairwise_singleton _ _⟩⟩⟩
  · cases hack
  · -- Of the two events before the handshake only the message counts.
    rcases List.mem_pair.mp hmem with rfl | rfl
    · exact fun hkey => key_ne_otherKey (Option.some.inj hkey)
    · cases haccepted
  · cases hack

end Sample

/-- Two clients that take turns bring no key back, and the messages of both are accepted although
they have one nonce. -/
theorem replaySafe_exchange :
    ReplaySafe 4 (run "c1" 4 Sample.entropy Sample.turns).events ∧
      ((run "c1" 4 Sample.entropy Sample.turns).events.filter Event.accepted).length = 2 := by
  refine ⟨(replaySafe_iff_keysNotReused "c1" 4 Sample.entropy Sample.turns).1
    Sample.keysNotReused_turns, ?_⟩
  rw [Sample.events_turns]
  rfl

/-! ## A whole exchange again -/

section Exchange

variable {r : Run} {pair client : KeyPair} {e' : Entropy} {secret : Octets 32} {key : SessionKey}
  {m : Message} (nonce : Octets 12)

/-- A client's handshake and message, as far as a replay is concerned. -/
theorem feed_exchange_taken
    (hg : r.session.keyPairOrGenerate r.entropy =
      (pair, { r.session with keyPair := some pair }, e'))
    (hs : sharedSecret pair client.publicKey = .ok secret)
    (hk : deriveKey secret.toBytes = key) (hl : 0 < r.session.nonceLimit)
    (hm : m.audience.Canonical) (hlen : m.encode.length ≤ Gcm.maxLength) :
    let frame := Client.sealedFrame (Gcm.encrypt key nonce m.encode) nonce
    let r' := r.feed [Client.hello client, frame]
    r'.session.keyPair = some pair ∧ 0 < r'.session.nonceLimit ∧
      ∃ message handshake, r'.events = message :: handshake :: r.events ∧
        message.frame = frame ∧ message.takenUnder key = true := by
  intro frame r'
  have hr' : r' = _ := feed_exchange hg hs hk hl hm hlen
  rw [hr']
  exact ⟨rfl, hl, _, _, rfl, rfl, Event.takenUnder_iff.mpr ⟨rfl, rfl⟩⟩

/-- Whatever a session has been through, a client's handshake and message that are both sent twice
are both taken twice. -/
theorem not_replaySafe_exchange {limit : Nat}
    (hg : r.session.keyPairOrGenerate r.entropy =
      (pair, { r.session with keyPair := some pair }, e'))
    (hs : sharedSecret pair client.publicKey = .ok secret)
    (hk : deriveKey secret.toBytes = key) (hl : 0 < r.session.nonceLimit)
    (hm : m.audience.Canonical) (hlen : m.encode.length ≤ Gcm.maxLength) :
    let frame := Client.sealedFrame (Gcm.encrypt key nonce m.encode) nonce
    ¬ ReplaySafe limit
      (r.feed ([Client.hello client, frame] ++ [Client.hello client, frame])).events := by
  intro frame hsafe
  obtain ⟨hpair, hroom, message, handshake, hevents, hframe, htaken⟩ :=
    feed_exchange_taken nonce hg hs hk hl hm hlen
  obtain ⟨-, -, message', handshake', hevents', hframe', htaken'⟩ :=
    feed_exchange_taken nonce (keyPairOrGenerate_kept hpair) hs hk hroom hm hlen
  rw [Run.feed_append, hevents', hevents] at hsafe
  have hmem : message ∈ handshake' :: message :: handshake :: r.events :=
    List.mem_cons_of_mem _ List.mem_cons_self
  refine (List.pairwise_cons.mp hsafe.fresh).1 message hmem key htaken' htaken ?_
  rw [hframe', hframe]

end Exchange

/-- The same exchange twice in a fresh session. -/
theorem not_replaySafe_frames_twice :
    ¬ ReplaySafe 4 (run "c1" 4 Sample.entropy (Sample.frames ++ Sample.frames)).events := by
  exact not_replaySafe_exchange (r := .start "c1" 4 Sample.entropy) Sample.nonce
    (Sample.keyPairOrGenerate_eq 4) Sample.sharedSecret_eq rfl (by decide) Sample.canonical
    Sample.length_le

end SealedGateway.Session
