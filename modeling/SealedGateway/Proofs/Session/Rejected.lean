import SealedGateway.Proofs.Session.Client

/-!
# Frames that come to nothing

A frame that fails or is dropped leaves the session as it was. There is one exception: the key pair
of a session is drawn before it is known that the peer's point is good for an agreement.

- **`Step.eq_of_rejected`**: nothing has changed but in the exception, which
  **`process_drawsInVain`** describes.
- **`process_keyPair`**: a sealed message does not look at the key pair, so that even the exception
  makes no difference to it.
- **`rejected_keeps`**: both together, for any session, entropy and octets.
-/

namespace SealedGateway

theorem Frame.peerKey?_eq_some_iff {data : Bytes} {peer : Octets 32} :
    Frame.peerKey? data = some peer ↔
      ∃ k, Frame.decode data = .ok (.handshake k) ∧ decodeBase64 k = .ok peer.toBytes := by
  constructor
  · intro h
    unfold peerKey? at h
    split at h
    · rename_i k hd
      cases hb : decodeBase64 k with
      | error f => simp [hb, Except.toOption] at h
      | ok b =>
        have hpeer : Octets.ofBytes? 32 b = some peer := by simpa [hb, Except.toOption] using h
        exact ⟨k, hd, by rw [hb, Octets.ofBytes?_eq_some_iff.mp hpeer]⟩
    · cases h
  · rintro ⟨k, hd, hb⟩
    exact peerKey?_eq hd hb (Octets.ofBytes?_toBytes peer)

namespace Session

/-- Neither did a handshake succeed nor was a message accepted. -/
def Rejected : Except Failure Outcome → Prop
  | .error _ | .ok (.dropped _) => True
  | .ok (.acknowledged _) | .ok (.accepted _) => False

/-- A handshake in a session that has no key pair, with a point whose secret is all zeros. -/
def DrawsInVain (s : Session) (e : Entropy) (data : Bytes) : Prop :=
  s.keyPair = none ∧ ∃ publicKey peer, Frame.decode data = .ok (.handshake publicKey) ∧
    decodeBase64 publicKey = .ok (Octets.toBytes peer) ∧
    Curve25519.scalarMult (KeyPair.generate e).1.secret peer = .zero 32

variable {s s' : Session} {e e' : Entropy} {data : Bytes} {result : Except Failure Outcome}

/-- The fresh pair stays behind, although no key was agreed on. -/
theorem process_drawsInVain (h : DrawsInVain s e data) :
    s.process e data = (.error (.invalidPeerKey "low-order point"),
      { s with keyPair := some (KeyPair.generate e).1 }, (KeyPair.generate e).2) := by
  obtain ⟨hpair, publicKey, peer, hd, hb, hzero⟩ := h
  have hh := handshake_lowOrder hb (parsePublicKey_toBytes peer) (keyPairOrGenerate_of_none hpair)
    (sharedSecret_eq_error hzero)
  rw [process, hd]
  simp only [handleFrame, hh]
  rfl

theorem Step.eq_of_rejected (h : Step s e data result s' e') (hr : Rejected result)
    (hv : ¬ DrawsInVain s e data) : s' = s ∧ e' = e := by
  cases h with
  | agreed | accepted => exact hr.elim
  | failed | dropped => exact ⟨rfl, rfl⟩
  | lowOrder hg hp hs =>
    cases hk : s.keyPair with
    | none =>
      obtain ⟨k, hd, hb⟩ := Frame.peerKey?_eq_some_iff.mp hp
      rw [keyPairOrGenerate_of_none hk] at hg
      obtain ⟨rfl, -⟩ := Prod.mk.inj hg
      exact absurd ⟨hk, k, _, hd, hb, scalarMult_of_sharedSecret_error hs⟩ hv
    | some pair =>
      rw [keyPairOrGenerate_kept hk] at hg
      obtain ⟨rfl, hrest⟩ := Prod.mk.inj hg
      obtain ⟨-, rfl⟩ := Prod.mk.inj hrest
      exact ⟨by rw [← hk], rfl⟩

/-! ## Sealed messages and the key pair -/

theorem recordNonce_keyPair (s : Session) (pair : Option KeyPair) (nonce : Octets 12) :
    { s with keyPair := pair }.recordNonce nonce =
      { s.recordNonce nonce with keyPair := pair } := by
  unfold recordNonce
  by_cases h : (s.rekeyRequired || s.nonceSeen nonce) = true
  · rw [if_pos h]
    exact if_pos h
  · rw [if_neg h]
    exact if_neg h

theorem openSealed_keyPair (s : Session) (pair : Option KeyPair) (ciphertext iv : String) :
    { s with keyPair := pair }.openSealed ciphertext iv =
      (s.openSealed ciphertext iv).map fun r => (r.1, { r.2 with keyPair := pair }) := by
  obtain ⟨id, limit, own, key?, nonces⟩ := s
  cases key? with
  | none => rfl
  | some key =>
    cases hb : decodeBase64 iv with
    | error f => simp only [openSealed, hb, bind, Except.bind, Except.map]
    | ok b =>
      cases hn : Octets.ofBytes? 12 b with
      | none => simp only [openSealed, hb, Aead.checkNonce, hn, bind, Except.bind, Except.map]
      | some nonce =>
        obtain rfl := Octets.ofBytes?_eq_some_iff.mp hn
        rw [openSealed_eq rfl hb, openSealed_eq rfl hb]
        split
        · rfl
        · split
          · rfl
          · cases contents key nonce ciphertext with
            | error f => rfl
            | ok m =>
              have hrecord := recordNonce_keyPair ⟨id, limit, own, some key, nonces⟩ pair nonce
              exact congrArg (fun t => Except.ok (m, t)) hrecord

/-- A sealed message has the same outcome whatever the key pair, and leaves it as it is. -/
theorem process_keyPair {ciphertext : String} {nonce : Option String} (pair : Option KeyPair)
    (e' : Entropy) (hd : Frame.decode data = .ok (.sealed ciphertext nonce)) :
    { s with keyPair := pair }.process e' data =
      ((s.process e data).1, { (s.process e data).2.1 with keyPair := pair }, e') := by
  have hopen := fun iv => openSealed_keyPair s pair ciphertext iv
  obtain ⟨id, limit, own, key?, nonces⟩ := s
  simp only [process, hd, handleFrame, handshakeComplete]
  cases key? with
  | none => rfl
  | some key =>
    cases nonce with
    | none => rfl
    | some iv =>
      simp only [Option.isSome_some, Bool.not_true, Bool.false_eq_true, ↓reduceIte, hopen iv]
      cases openSealed ⟨id, limit, own, some key, nonces⟩ ciphertext iv <;> rfl

/-- **A frame that comes to nothing leaves the session as it was.** The identifier, the limit, the
key and the nonces stay, and so does the key pair, unless the frame is a handshake that draws one in
vain: then the fresh pair stays behind. A sealed message that fails leaves everything as it was,
whatever it failed for, and a sealed message that comes after a rejected frame has the outcome that
it would have had without it. -/
theorem rejected_keeps (hs : s.process e data = (result, s', e')) (hr : Rejected result) :
    (s'.connectionId = s.connectionId ∧ s'.nonceLimit = s.nonceLimit ∧ s'.key = s.key ∧
      s'.nonces = s.nonces) ∧
    (¬ DrawsInVain s e data → s' = s ∧ e' = e) ∧
    (DrawsInVain s e data → result = .error (.invalidPeerKey "low-order point") ∧
      s' = { s with keyPair := some (KeyPair.generate e).1 } ∧ e' = (KeyPair.generate e).2) ∧
    ((∃ ciphertext nonce, Frame.decode data = .ok (.sealed ciphertext nonce)) →
      s' = s ∧ e' = e) ∧
    ∀ retry ciphertext nonce, Frame.decode retry = .ok (.sealed ciphertext nonce) →
      s'.process e' retry =
        ((s.process e retry).1, { (s.process e retry).2.1 with keyPair := s'.keyPair }, e') := by
  have hstep := process_step s e data
  rw [hs] at hstep
  have hsame : ¬ DrawsInVain s e data → s' = s ∧ e' = e := hstep.eq_of_rejected hr
  have hdrawn : DrawsInVain s e data → result = .error (.invalidPeerKey "low-order point") ∧
      s' = { s with keyPair := some (KeyPair.generate e).1 } ∧ e' = (KeyPair.generate e).2 := by
    intro hv
    rw [process_drawsInVain hv] at hs
    obtain ⟨rfl, hrest⟩ := Prod.mk.inj hs
    obtain ⟨rfl, rfl⟩ := Prod.mk.inj hrest
    exact ⟨rfl, rfl, rfl⟩
  have hpair : s' = { s with keyPair := s'.keyPair } := by
    by_cases hv : DrawsInVain s e data
    · obtain ⟨-, rfl, -⟩ := hdrawn hv
      rfl
    · obtain ⟨rfl, -⟩ := hsame hv
      rfl
  refine ⟨?_, hsame, hdrawn, ?_, fun retry ciphertext nonce hretry => ?_⟩
  · rw [hpair]
    exact ⟨rfl, rfl, rfl, rfl⟩
  · rintro ⟨ciphertext, nonce, hd⟩
    refine hsame fun ⟨_, publicKey, _, hd', _⟩ => ?_
    rw [hd] at hd'
    cases hd'
  · have hkept := process_keyPair (s := s) (e := e) s'.keyPair e' hretry
    rwa [← hpair] at hkept

/-- A ciphertext that is too short for its tag cannot be opened. -/
theorem process_cut {key : SessionKey} {nonce : Octets 12} (hk : s.key = some key)
    (hu : nonce ∉ s.nonces) (hl : s.nonces.length < s.nonceLimit) :
    s.process e (Client.sealedFrame [] nonce) = (.error .authenticationFailed, s, e) := by
  have hdecrypt : Aead.decrypt key nonce.toBytes [] = .error .authenticationFailed := by
    rw [Aead.decrypt, Aead.checkNonce_toBytes]
    rfl
  have hcontents : contents key nonce (Base64.encode []) = .error .authenticationFailed := by
    rw [contents, decodeBase64_encode]
    exact bind_eq_error_iff.mpr (.inr ⟨_, rfl, bind_eq_error_iff.mpr (.inl hdecrypt)⟩)
  rw [process_sealed hk (Client.decode_sealedFrame _ _) (decodeBase64_encode _), if_neg hu,
    if_neg (Nat.not_le.mpr hl), hcontents]

end Session

namespace Sample

/-- A point whose secret is all zeros, as the key of a client. -/
def lowOrder : KeyPair := ⟨.zero 32, .zero 32⟩

theorem drawsInVain (limit : Nat) :
    (Session.create "c1" limit).DrawsInVain entropy (Client.hello lowOrder) := by
  refine ⟨rfl, _, .zero 32, Client.decode_hello _, decodeBase64_encode _, ?_⟩
  rw [generate_eq]
  decide +kernel

end Sample

/-- A message is accepted after its ciphertext has been cut on the way and sent again, and a fresh
session has nothing but a key pair after a handshake in vain. -/
theorem Session.rejected_keeps_greeting :
    (∃ s' e', (Sample.session 4 []).process ⟨[]⟩ (Client.sealedFrame [] Sample.nonce) =
        (.error .authenticationFailed, s', e') ∧ s' = Sample.session 4 [] ∧
      (s'.process e' Sample.frame).1 = .ok (.accepted Sample.message)) ∧
    ∃ f s' e', (Session.create "c1" 4).process Sample.entropy (Client.hello Sample.lowOrder) =
        (.error f, s', e') ∧
      s' = { Session.create "c1" 4 with keyPair := some Sample.gateway } := by
  have hcut : (Sample.session 4 []).process ⟨[]⟩ (Client.sealedFrame [] Sample.nonce) =
      (.error .authenticationFailed, Sample.session 4 [], ⟨[]⟩) :=
    process_cut rfl List.not_mem_nil (by decide)
  have hframe : (Sample.session 4 []).process ⟨[]⟩ Sample.frame =
      (.ok (.accepted Sample.message), Sample.session 4 [Sample.nonce], ⟨[]⟩) :=
    process_sealedFrame rfl List.not_mem_nil (by decide) Sample.canonical Sample.length_le
  obtain ⟨-, -, -, hsealed, hretry⟩ := rejected_keeps hcut trivial
  have hvain := process_drawsInVain (Sample.drawsInVain 4)
  obtain ⟨-, -, hdrawn, -⟩ := rejected_keeps hvain trivial
  refine ⟨⟨_, _, hcut, (hsealed ⟨_, _, Client.decode_sealedFrame _ _⟩).1, ?_⟩, _, _, _, hvain, ?_⟩
  · have hsame := congrArg Prod.fst (hretry Sample.frame _ _ (Client.decode_sealedFrame _ _))
    rw [hsame, hframe]
  · rw [(hdrawn (Sample.drawsInVain 4)).2.1, Sample.generate_eq]

end SealedGateway
