import SealedGateway.Proofs.Session.Client

/-!
# Where a session's keys come from

The key pair of a session is the first draw from its entropy, made at most once; its key is agreed
with the peer of the last handshake that succeeded. No other frame touches either.

- **`KeyInv`** is the invariant of a run, `KeyInv.record` its step.
- **`key_history`** ties the state of a session to the handshakes of its run.
-/

namespace SealedGateway.Session

/-- The key agreed between a pair and a peer. -/
def agreedKey (pair : KeyPair) (peer : Octets 32) : SessionKey :=
  deriveKey (Curve25519.scalarMult pair.secret peer).toBytes

/-- The last handshake of a history that succeeded. -/
def lastHandshake? (events : List Event) : Option Event := events.find? (·.acknowledged)

/-- The peer of the last handshake of a history that succeeded. -/
def lastPeer? (events : List Event) : Option (Octets 32) :=
  (lastHandshake? events).bind fun ev => Frame.peerKey? ev.frame

theorem lastHandshake?_isSome_iff {events : List Event} :
    (lastHandshake? events).isSome = true ↔ ∃ ev ∈ events, ev.acknowledged = true :=
  List.find?_isSome

theorem lastPeer?_acknowledged {ev : Event} {events : List Event} (h : ev.acknowledged = true) :
    lastPeer? (ev :: events) = Frame.peerKey? ev.frame := by simp [lastPeer?, lastHandshake?, h]

theorem lastPeer?_other {ev : Event} {events : List Event} (h : ev.acknowledged = false) :
    lastPeer? (ev :: events) = lastPeer? events := by simp [lastPeer?, lastHandshake?, h]

/-- The pair is drawn at most once from the entropy `e`. -/
def DrawnOnce (e : Entropy) (keyPair : Option KeyPair) (left : Entropy) : Prop :=
  (keyPair = none ∧ left = e) ∨
    (keyPair = some (KeyPair.generate e).1 ∧ left = (KeyPair.generate e).2)

theorem DrawnOnce.next {e : Entropy} {s : Session} {left e' : Entropy} {pair : KeyPair}
    (h : DrawnOnce e s.keyPair left)
    (hg : s.keyPairOrGenerate left = (pair, { s with keyPair := some pair }, e')) :
    pair = (KeyPair.generate e).1 ∧ e' = (KeyPair.generate e).2 := by
  rcases h with ⟨hn, rfl⟩ | ⟨hs, rfl⟩
  · rw [keyPairOrGenerate_of_none hn] at hg
    cases hg
    exact ⟨rfl, rfl⟩
  · rw [keyPairOrGenerate_of_some hs] at hg
    simp only [Prod.mk.injEq] at hg
    exact ⟨hg.1.symm, hg.2.2.symm⟩

/-- The keys of a session are those of its history; `e` is the entropy at its start. -/
structure KeyInv (e : Entropy) (r : Run) : Prop where
  drawn : DrawnOnce e r.session.keyPair r.entropy
  key : r.session.key = (lastPeer? r.events).map (agreedKey (KeyPair.generate e).1)
  peers : ∀ ev ∈ r.events, ev.acknowledged = true → (Frame.peerKey? ev.frame).isSome = true
  acks : ∀ ev ∈ r.events, ∀ ack, ev.result = .ok (.acknowledged ack) →
    ack = Ack.ofKey (Base64.encode (KeyPair.generate e).1.publicKey.toBytes)
  pairs : ∀ ev ∈ r.events, ev.acknowledged = true →
    r.session.keyPair = some (KeyPair.generate e).1

namespace KeyInv

variable {e : Entropy} {r : Run}

theorem start (connectionId : String) (nonceLimit : Nat) (e : Entropy) :
    KeyInv e (Run.start connectionId nonceLimit e) where
  drawn := .inl ⟨rfl, rfl⟩
  key := by simp [Run.start, create, lastPeer?, lastHandshake?]
  peers := by simp [Run.start]
  acks := by simp [Run.start]
  pairs := by simp [Run.start]

/-- A frame that is no successful handshake keeps the key; it may draw the pair. -/
theorem of_other (h : KeyInv e r) {frame : Bytes} {result : Except Failure Outcome} {s : Session}
    {e' : Entropy} (hk : s.key = r.session.key) (hd : DrawnOnce e s.keyPair e')
    (hp : r.session.keyPair ≠ none → s.keyPair = r.session.keyPair)
    (hn : ∀ ack, result ≠ .ok (.acknowledged ack)) : KeyInv e (r.record frame result s e') := by
  have ha : Event.acknowledged ⟨frame, r.session, result, s⟩ = false :=
    Bool.eq_false_iff.mpr fun h => (Event.acknowledged_iff.mp h).elim hn
  refine ⟨hd, ?_, ?_, ?_, ?_⟩
  · simp only [Run.record, lastPeer?_other ha, hk]
    exact h.key
  · intro ev hev hack
    rcases List.mem_cons.mp hev with rfl | hev
    · rw [ha] at hack; cases hack
    · exact h.peers ev hev hack
  · intro ev hev ack hack
    rcases List.mem_cons.mp hev with rfl | hev
    · exact absurd hack (hn ack)
    · exact h.acks ev hev ack hack
  · intro ev hev hack
    rcases List.mem_cons.mp hev with rfl | hev
    · rw [ha] at hack; cases hack
    · have hs := h.pairs ev hev hack
      exact (hp (by rw [hs]; nofun)).trans hs

theorem record (h : KeyInv e r) {frame : Bytes} {result : Except Failure Outcome} {s : Session}
    {e' : Entropy} (hs : Step r.session r.entropy frame result s e') :
    KeyInv e (r.record frame result s e') := by
  cases hs with
  | agreed hg hp hs =>
    obtain ⟨rfl, rfl⟩ := h.drawn.next hg
    refine ⟨.inr ⟨rfl, rfl⟩, ?_, ?_, ?_, fun _ _ _ => rfl⟩
    · simp only [Run.record]
      rw [lastPeer?_acknowledged rfl, hp, sharedSecret_ok hs, Option.map_some, agreedKey]
    · intro ev hev hack
      rcases List.mem_cons.mp hev with rfl | hev
      · rw [hp]; rfl
      · exact h.peers ev hev hack
    · intro ev hev ack hack
      rcases List.mem_cons.mp hev with rfl | hev
      · cases hack; rfl
      · exact h.acks ev hev ack hack
  | lowOrder hg hp hs =>
    have hnext := h.drawn.next hg
    obtain ⟨rfl, rfl⟩ := hnext
    refine h.of_other rfl (.inr ⟨rfl, rfl⟩) (fun hne => ?_) nofun
    rcases h.drawn with ⟨hn, -⟩ | ⟨hs, -⟩
    · exact absurd hn hne
    · exact hs.symm
  | accepted hk hd hn hu hl hm => exact h.of_other rfl h.drawn (fun _ => rfl) nofun
  | failed hf => exact h.of_other rfl h.drawn (fun _ => rfl) nofun
  | dropped => exact h.of_other rfl h.drawn (fun _ => rfl) nofun

theorem feed (h : KeyInv e r) (frames : List Bytes) : KeyInv e (r.feed frames) :=
  Run.feed_induction h (fun _ _ _ _ _ hs ih => ih.record hs) frames

theorem run (connectionId : String) (nonceLimit : Nat) (e : Entropy) (frames : List Bytes) :
    KeyInv e (Session.run connectionId nonceLimit e frames) :=
  (start connectionId nonceLimit e).feed frames

/-- There is a key exactly when a handshake has succeeded. -/
theorem key_isSome_iff (h : KeyInv e r) :
    r.session.key.isSome = true ↔ ∃ ev ∈ r.events, ev.acknowledged = true := by
  rw [h.key, Option.isSome_map, ← lastHandshake?_isSome_iff]
  cases hl : lastHandshake? r.events with
  | none => simp [lastPeer?, hl]
  | some ev =>
    have hp := h.peers ev (List.mem_of_find?_eq_some hl) (List.find?_some hl)
    simpa [lastPeer?, hl] using hp

/-- No message is accepted before a handshake has succeeded. -/
theorem handshake_before (h : KeyInv e r)
    (h₀ : ∀ later ev earlier, r.events = later ++ ev :: earlier → ev.accepted = true →
      ∃ hs ∈ earlier, hs.acknowledged = true) (frames : List Bytes) :
    ∀ later ev earlier, (r.feed frames).events = later ++ ev :: earlier → ev.accepted = true →
      ∃ hs ∈ earlier, hs.acknowledged = true := by
  refine (Run.feed_induction (P := fun r => KeyInv e r ∧ ∀ later ev earlier,
    r.events = later ++ ev :: earlier → ev.accepted = true →
      ∃ hs ∈ earlier, hs.acknowledged = true) ⟨h, h₀⟩ ?_ frames).2
  rintro r frame result s e' hs ⟨ih, ih₀⟩
  refine ⟨ih.record hs, fun later ev earlier hev ha => ?_⟩
  cases later with
  | cons _ later => exact ih₀ later ev earlier (List.cons.inj hev).2 ha
  | nil =>
    obtain ⟨rfl, rfl⟩ := List.cons.inj hev
    obtain ⟨m, rfl⟩ : ∃ m, result = .ok (.accepted m) := Event.accepted_iff.mp ha
    cases hs with
    | accepted hk => exact ih.key_isSome_iff.mp (by rw [hk]; rfl)

end KeyInv

/-- A pair stays, whatever frames follow. -/
theorem feed_keyPair {r : Run} {pair : KeyPair} (h : r.session.keyPair = some pair)
    (frames : List Bytes) : (r.feed frames).session.keyPair = some pair := by
  refine Run.feed_induction (P := fun r => r.session.keyPair = some pair) h ?_ frames
  intro r frame result s e hs ih
  have hdraw : ∀ {pair' e'}, r.session.keyPairOrGenerate r.entropy =
      (pair', { r.session with keyPair := some pair' }, e') → pair' = pair := by
    intro pair' e' hg
    rw [keyPairOrGenerate_of_some ih] at hg
    exact (congrArg Prod.fst hg).symm
  cases hs with
  | agreed hg _ _ => exact congrArg some (hdraw hg)
  | lowOrder hg _ _ => exact congrArg some (hdraw hg)
  | accepted _ _ _ _ _ _ => exact ih
  | failed _ => exact ih
  | dropped => exact ih

theorem state_eq_ready_iff (s : Session) : s.state = .ready ↔ s.key.isSome = true := by
  unfold state handshakeComplete
  cases s.key <;> simp

/-- **Key history.** After any frames: the pair was drawn at most once, stays, and is named by all
acknowledgements; the session is ready once a handshake has succeeded, and from then on; its key
is that of the last such handshake; and messages were accepted only behind one. -/
theorem key_history (connectionId : String) (nonceLimit : Nat) (e : Entropy)
    (frames : List Bytes) :
    let r := run connectionId nonceLimit e frames
    (DrawnOnce e r.session.keyPair r.entropy ∧
      (∀ before after, frames = before ++ after → ∀ pair,
        (run connectionId nonceLimit e before).session.keyPair = some pair →
          r.session.keyPair = some pair) ∧
      ∀ ev ∈ r.events, ∀ ack, ev.result = .ok (.acknowledged ack) →
        ∃ pair, r.session.keyPair = some pair ∧
          ack.serverKey = Base64.encode pair.publicKey.toBytes) ∧
    ((r.session.state = .ready ↔ ∃ ev ∈ r.events, ev.acknowledged = true) ∧
      ∀ before after, frames = before ++ after →
        (run connectionId nonceLimit e before).session.state = .ready →
          r.session.state = .ready) ∧
    (∀ ev, lastHandshake? r.events = some ev →
      ∃ pair peer, r.session.keyPair = some pair ∧ Frame.peerKey? ev.frame = some peer ∧
        r.session.key = some (deriveKey (Curve25519.scalarMult pair.secret peer).toBytes)) ∧
    ∀ later ev earlier, r.events = later ++ ev :: earlier → ev.accepted = true →
      ∃ hs ∈ earlier, hs.acknowledged = true := by
  intro r
  have h : KeyInv e r := KeyInv.run connectionId nonceLimit e frames
  refine ⟨⟨h.drawn, ?_, ?_⟩, ⟨?_, ?_⟩, ?_, ?_⟩
  · rintro before after rfl pair hp
    simp only [r, run_append]
    exact feed_keyPair hp after
  · intro ev hev ack hack
    refine ⟨_, h.pairs ev hev (Event.acknowledged_iff.mpr ⟨ack, hack⟩), ?_⟩
    rw [h.acks ev hev ack hack]
    rfl
  · rw [state_eq_ready_iff, h.key_isSome_iff]
  · rintro before after rfl hr
    rw [state_eq_ready_iff, (KeyInv.run connectionId nonceLimit e before).key_isSome_iff] at hr
    rw [state_eq_ready_iff, h.key_isSome_iff]
    obtain ⟨ev, hev, hack⟩ := hr
    refine ⟨ev, ?_, hack⟩
    simp only [r, run_append]
    exact (Run.events_suffix _ after).subset hev
  · intro ev hev
    have hmem := List.mem_of_find?_eq_some hev
    have hack := List.find?_some hev
    obtain ⟨peer, hpeer⟩ := Option.isSome_iff_exists.mp (h.peers ev hmem hack)
    refine ⟨_, peer, h.pairs ev hmem hack, hpeer, ?_⟩
    rw [h.key]
    simp [lastPeer?, hev, hpeer, agreedKey]
  · exact (KeyInv.start connectionId nonceLimit e).handshake_before (by simp [Run.start]) frames

/-- The key of a session that has seen one handshake and one message. -/
theorem key_history_exchange :
    let s := (run "c1" 4 Sample.entropy Sample.frames).session
    s.state = .ready ∧ ∃ pair, s.keyPair = some pair ∧
      s.key = some
        (deriveKey (Curve25519.scalarMult pair.secret Sample.client.publicKey).toBytes) := by
  have h := key_history "c1" 4 Sample.entropy Sample.frames
  rw [Sample.run_frames] at h ⊢
  obtain ⟨-, ⟨hready, -⟩, hkey, -⟩ := h
  refine ⟨hready.mpr ⟨_, List.mem_cons_of_mem _ List.mem_cons_self, rfl⟩, ?_⟩
  obtain ⟨pair, peer, hpair, hpeer, hsession⟩ :=
    hkey (Sample.handshakeEvent 4 (.create "c1" 4)) rfl
  have hclient : peer = Sample.client.publicKey :=
    Option.some.inj (hpeer.symm.trans (Client.peerKey?_hello Sample.client))
  exact ⟨pair, hpair, hclient ▸ hsession⟩

end SealedGateway.Session
