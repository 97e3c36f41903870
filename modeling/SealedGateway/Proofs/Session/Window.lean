import SealedGateway.Proofs.Session.Client

/-!
# The nonce window

The nonces that a session keeps are those of the messages accepted since the last handshake that
succeeded (`window`): each of them once, and at most the limit. So the three answers to a sealed
message (a nonce used before, a full window, the message itself) are decided by the history.

- **`WindowInv`** is the invariant of a run, and `WindowInv.record` its step.
- **`window_accounting`** has the count and the answers.
-/

namespace SealedGateway.Session

/-- The messages accepted since the last handshake that succeeded, latest first. -/
def window (events : List Event) : List Event :=
  (events.takeWhile fun ev => !ev.acknowledged).filter (·.accepted)

theorem window_acknowledged {ev : Event} {events : List Event} (h : ev.acknowledged = true) :
    window (ev :: events) = [] := by simp [window, h]

theorem window_accepted {ev : Event} {events : List Event} (h : ev.accepted = true) :
    window (ev :: events) = ev :: window events := by
  have hn : ev.acknowledged = false := by
    obtain ⟨m, hm⟩ := Event.accepted_iff.mp h
    simp [Event.acknowledged, hm]
  simp [window, hn, h]

theorem window_other {ev : Event} {events : List Event} (hk : ev.acknowledged = false)
    (ha : ev.accepted = false) : window (ev :: events) = window events := by
  simp [window, hk, ha]

/-- The session keeps exactly the nonces of the window. -/
structure WindowInv (limit : Nat) (r : Run) : Prop where
  nonceLimit : r.session.nonceLimit = max limit 1
  nonces : r.session.nonces.map some = (window r.events).map fun ev => Frame.nonce? ev.frame
  nodup : r.session.nonces.Nodup
  length_le : r.session.nonces.length ≤ max limit 1

namespace WindowInv

variable {limit : Nat} {r : Run}

theorem start (connectionId : String) (limit : Nat) (e : Entropy) :
    WindowInv limit (Run.start connectionId limit e) where
  nonceLimit := rfl
  nonces := rfl
  nodup := List.nodup_nil
  length_le := Nat.zero_le _

/-- A frame that is neither a new key nor a message leaves the window as it was. -/
theorem of_same (h : WindowInv limit r) {frame : Bytes} {result : Except Failure Outcome}
    {s : Session} {e : Entropy} (hn : s.nonces = r.session.nonces)
    (hl : s.nonceLimit = r.session.nonceLimit)
    (hk : Event.acknowledged ⟨frame, r.session, result, s⟩ = false)
    (ha : Event.accepted ⟨frame, r.session, result, s⟩ = false) :
    WindowInv limit (r.record frame result s e) where
  nonceLimit := hl.trans h.nonceLimit
  nonces := by
    simp only [Run.record, window_other hk ha, hn]
    exact h.nonces
  nodup := by simpa only [Run.record, hn] using h.nodup
  length_le := by simpa only [Run.record, hn] using h.length_le

theorem record (h : WindowInv limit r) {frame : Bytes} {result : Except Failure Outcome}
    {s : Session} {e : Entropy} (hs : Step r.session r.entropy frame result s e) :
    WindowInv limit (r.record frame result s e) := by
  cases hs with
  | agreed hg hp hs =>
    exact
      { nonceLimit := h.nonceLimit
        nonces := by
          simp only [Run.record]
          rw [window_acknowledged rfl]
          rfl
        nodup := List.nodup_nil
        length_le := Nat.zero_le _ }
  | lowOrder hg hp hs => exact h.of_same rfl rfl rfl rfl
  | accepted hk hd hn hu hl hm =>
    exact
      { nonceLimit := h.nonceLimit
        nonces := by
          simp only [Run.record]
          rw [window_accepted rfl, List.map_cons, List.map_cons, h.nonces, Frame.nonce?_eq hd hn]
        nodup := List.nodup_cons.mpr ⟨hu, h.nodup⟩
        length_le := by
          rw [h.nonceLimit] at hl
          exact hl }
  | failed hf => exact h.of_same rfl rfl rfl rfl
  | dropped => exact h.of_same rfl rfl rfl rfl

theorem feed (h : WindowInv limit r) (frames : List Bytes) : WindowInv limit (r.feed frames) :=
  Run.feed_induction h (fun _ _ _ _ _ hs ih => ih.record hs) frames

theorem run (connectionId : String) (limit : Nat) (e : Entropy) (frames : List Bytes) :
    WindowInv limit (Session.run connectionId limit e frames) :=
  (start connectionId limit e).feed frames

theorem length_eq (h : WindowInv limit r) :
    r.session.nonces.length = (window r.events).length := by
  simpa using congrArg List.length h.nonces

end WindowInv

/-! ## The answers to a sealed message -/

section Answers

variable {s : Session} {e : Entropy} {data : Bytes} {key : SessionKey} {ciphertext iv : String}
  {nonce : Octets 12}

/-- The failures of the window are not among those of the contents. -/
theorem contents_error_ne {f : Failure} (h : contents key nonce ciphertext = .error f) :
    f ≠ .nonceReused ∧ ∀ limit, f ≠ .rekeyRequired limit := by
  rcases contents_error h with rfl | ⟨c, rfl⟩ <;> exact ⟨nofun, nofun⟩

theorem process_nonceReused_iff (hk : s.key = some key)
    (hd : Frame.decode data = .ok (.sealed ciphertext (some iv)))
    (hn : decodeBase64 iv = .ok nonce.toBytes) :
    (s.process e data).1 = .error .nonceReused ↔ nonce ∈ s.nonces := by
  rw [process_sealed hk hd hn]
  by_cases hu : nonce ∈ s.nonces
  · simp only [hu, ↓reduceIte]
  · simp only [hu, ↓reduceIte, iff_false]
    split
    · exact nofun
    · cases hm : contents key nonce ciphertext with
      | ok m => exact nofun
      | error f => exact fun h => (contents_error_ne hm).1 (Except.error.inj h)

theorem process_rekeyRequired_iff (hk : s.key = some key)
    (hd : Frame.decode data = .ok (.sealed ciphertext (some iv)))
    (hn : decodeBase64 iv = .ok nonce.toBytes) (hu : nonce ∉ s.nonces) (limit : Nat) :
    (s.process e data).1 = .error (.rekeyRequired limit) ↔
      s.nonceLimit = limit ∧ s.nonceLimit ≤ s.nonces.length := by
  rw [process_sealed hk hd hn]
  by_cases hl : s.nonceLimit ≤ s.nonces.length
  · simp only [hu, hl, ↓reduceIte, and_true, Except.error.injEq, Failure.rekeyRequired.injEq]
  · simp only [hu, hl, ↓reduceIte, and_false, iff_false]
    cases hm : contents key nonce ciphertext with
    | ok m => exact nofun
    | error f => exact fun h => (contents_error_ne hm).2 limit (Except.error.inj h)

theorem process_accepted_iff (hk : s.key = some key)
    (hd : Frame.decode data = .ok (.sealed ciphertext (some iv)))
    (hn : decodeBase64 iv = .ok nonce.toBytes) (hu : nonce ∉ s.nonces)
    (hl : s.nonces.length < s.nonceLimit) (m : Message) :
    (s.process e data).1 = .ok (.accepted m) ↔
      ∃ sealedText text, decodeBase64 ciphertext = .ok sealedText ∧
        Aead.decrypt key nonce.toBytes sealedText = .ok text ∧ Message.decode text = .ok m := by
  rw [process_sealed hk hd hn, if_neg hu, if_neg (Nat.not_le.mpr hl), ← contents_eq_ok_iff]
  cases contents key nonce ciphertext with
  | ok m' => simp
  | error f => simp

end Answers

/-- **Accounting.** After any frames, the nonces kept are those of the messages accepted since the
last successful handshake, and they alone decide what becomes of the next sealed message. -/
theorem window_accounting (connectionId : String) (limit : Nat) (e : Entropy)
    (frames : List Bytes) :
    let r := run connectionId limit e frames
    let s := r.session
    (s.nonces.map some = (window r.events).map (fun ev => Frame.nonce? ev.frame) ∧
      s.nonces.Nodup ∧ s.nonces.length = (window r.events).length ∧
      s.nonces.length ≤ max limit 1) ∧
    ∀ key, s.key = some key → ∀ data ciphertext iv, ∀ nonce : Octets 12,
      Frame.decode data = .ok (.sealed ciphertext (some iv)) →
      decodeBase64 iv = .ok nonce.toBytes → ∀ e',
        ((s.process e' data).1 = .error .nonceReused ↔ nonce ∈ s.nonces) ∧
        (nonce ∉ s.nonces →
          ((s.process e' data).1 = .error (.rekeyRequired (max limit 1)) ↔
            s.nonces.length = max limit 1)) ∧
        (nonce ∉ s.nonces → s.nonces.length ≠ max limit 1 → ∀ m,
          ((s.process e' data).1 = .ok (.accepted m) ↔
            ∃ sealedText text, decodeBase64 ciphertext = .ok sealedText ∧
              Aead.decrypt key nonce.toBytes sealedText = .ok text ∧
              Message.decode text = .ok m)) := by
  intro r s
  have h : WindowInv limit r := WindowInv.run connectionId limit e frames
  have hlimit : s.nonceLimit = max limit 1 := h.nonceLimit
  have hle : s.nonces.length ≤ max limit 1 := h.length_le
  refine ⟨⟨h.nonces, h.nodup, h.length_eq, hle⟩, ?_⟩
  intro key hk data ciphertext iv nonce hd hn e'
  refine ⟨process_nonceReused_iff hk hd hn, fun hu => ?_, fun hu hne m => ?_⟩
  · rw [process_rekeyRequired_iff hk hd hn hu, hlimit]
    exact ⟨fun hl => Nat.le_antisymm hle hl.2, fun hl => ⟨rfl, Nat.le_of_eq hl.symm⟩⟩
  · exact process_accepted_iff hk hd hn hu (by omega) m

/-- A full window still knows its own nonces, and asks for a new key at any other. -/
theorem window_accounting_full :
    let s := (run "c1" 1 Sample.entropy Sample.frames).session
    (s.process ⟨[]⟩ Sample.frame).1 = .error .nonceReused ∧
    (s.process ⟨[]⟩ (Client.sealedFrame [] (.zero 12))).1 = .error (.rekeyRequired 1) := by
  have h := window_accounting "c1" 1 Sample.entropy Sample.frames
  rw [Sample.run_frames] at h ⊢
  obtain ⟨-, hanswers⟩ := h
  have hzero : Octets.zero 12 ∉ [Sample.nonce] := by decide
  refine ⟨?_, ?_⟩
  · have hreplay := hanswers Sample.key rfl Sample.frame _ _ Sample.nonce
      (Client.decode_sealedFrame _ _) (decodeBase64_encode _) ⟨[]⟩
    exact hreplay.1.mpr (List.mem_singleton.mpr rfl)
  · have hother := hanswers Sample.key rfl _ _ _ (.zero 12)
      (Client.decode_sealedFrame [] (.zero 12)) (decodeBase64_encode _) ⟨[]⟩
    exact (hother.2.1 hzero).mpr rfl

end SealedGateway.Session
