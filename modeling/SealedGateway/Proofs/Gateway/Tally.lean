import SealedGateway.Proofs.Gateway.Step

/-!
# What becomes of the frames that are taken

No frame makes the task of a connection leave. A task can leave in the middle of one, for reasons
that lie elsewhere, and the tally is then short of that frame.

- **`Breaks`**: the reasons to leave in the middle of a frame; `Move.breaks` finds no other.
- **`FrameInv`** is the invariant of a run: the tally adds up, and what waits for the pool is what
  the tasks wait for. `FrameInv.step` is its step.
-/

namespace SealedGateway

/-! ## Connections -/

namespace Connection

variable {c : Connection}

theorem loop_of_listens (h : c.listens = true) : c.loop = .listening := by
  simp only [listens, Bool.and_eq_true, decide_eq_true_eq] at h
  exact h.1

theorem brokeOff_eq_false (h : c.brokeOff = true → c.left = true) (hl : c.left = false) :
    c.brokeOff = false := by
  refine Bool.eq_false_iff.mpr fun hb => ?_
  rw [h hb] at hl
  cases hl

end Connection

namespace Gateway

open Connection

variable {g g' : Gateway} {ev : Event} {n : Nat} {c c' : Connection}

/-- Why a task leaves in the middle of a frame: its reply cannot be written, or the pool is closed
before or while it waits to submit a message. -/
inductive Breaks (g : Gateway) (n : Nat) (c : Connection) : Event → Prop where
  | replyFailed {ack : Ack} (hl : c.loop = .replying ack) : Breaks g n c (.failReply n)
  | turnedAway {m : Message} (hl : c.loop = .submitting m) (hp : g.pool.isClosed = true) :
      Breaks g n c (.submit n)
  | refused {i : Nat} {m : Message} (hl : c.loop = .offering m)
      (ho : g.pool.offers[i]? = some ⟨n, m⟩) (hp : g.pool.isCancelled = true) :
      Breaks g n c (.refuse i)

/-- What waits for the pool in the name of a connection is what its task waits for. -/
def OffersOf (g : Gateway) (n : Nat) (c : Connection) : Prop :=
  ∀ m, ⟨n, m⟩ ∈ g.pool.offers → c.loop = .offering m

namespace Move

/-- A task that has left does not come back. -/
theorem stays_left (h : Move g n ev c c') (ho : OffersOf g n c) (hl : c.left = true) :
    c'.left = true ∧ c'.brokeOff = c.brokeOff := by
  cases h with
  | same | tooLong | rejected => exact ⟨hl, rfl⟩
  | agreed hlisten | opened hlisten | hungUp _ hlisten =>
    simp [left, loop_of_listens hlisten] at hl
  | replied h | replyFailed h | turnedAway h | offered h | mailedLast _ h => simp [left, h] at hl
  | enqueued h | refused h => simp [left, ho _ (List.mem_of_getElem? h)] at hl
  | mailed => exact ⟨hl, rfl⟩
  | released => exact ⟨rfl, rfl⟩

/-- A task breaks off by leaving. -/
theorem left_of_brokeOff (h : Move g n ev c c') (ho : OffersOf g n c)
    (hb : c.brokeOff = true → c.left = true) (hb' : c'.brokeOff = true) : c'.left = true := by
  cases h with
  | same | tooLong | rejected | mailed => exact hb hb'
  | agreed hlisten | opened hlisten =>
    have hleft := hb hb'
    simp [left, loop_of_listens hlisten] at hleft
  | replied h | offered h =>
    have hleft := hb hb'
    simp [left, h] at hleft
  | enqueued h =>
    have hleft := hb hb'
    simp [left, ho _ (List.mem_of_getElem? h)] at hleft
  | _ => rfl

/-- No frame makes a task leave, and few things make it leave in the middle of one. -/
theorem breaks (h : Move g n ev c c') (ho : OffersOf g n c) (hl : c.left = false)
    (hl' : c'.left = true) :
    (∀ data, ev ≠ .frame n data) ∧ c'.brokeOff = c.inFrame ∧
      (c.inFrame = true → Breaks g n c ev) := by
  cases h with
  | same | tooLong | rejected | mailed => cases hl.symm.trans hl'
  | agreed | opened | replied | offered | enqueued => cases hl'
  | replyFailed h => exact ⟨nofun, by simp [inFrame, leave, h], fun _ => .replyFailed h⟩
  | turnedAway h hp => exact ⟨nofun, by simp [inFrame, leave, h], fun _ => .turnedAway h hp⟩
  | refused h hp =>
    have hloop := ho _ (List.mem_of_getElem? h)
    exact ⟨nofun, by simp [inFrame, leave, hloop], fun _ => .refused hloop h hp⟩
  | mailedLast _ h => exact ⟨nofun, by simp [inFrame, leave, h], by simp [inFrame, h]⟩
  | hungUp hev hlisten =>
    have hloop := loop_of_listens hlisten
    refine ⟨?_, by simp [inFrame, leave, hloop], by simp [inFrame, hloop]⟩
    rcases hev with rfl | rfl <;> exact nofun
  | released h => simp [left, h] at hl

/-- A task that waits for the pool goes on waiting until the pool has taken its message or refused
it. -/
theorem offering (h : Move g n ev c c') {m : Message} (hl : c.loop = .offering m) :
    c'.loop = .offering m ∨
      ∃ i m', g.pool.offers[i]? = some ⟨n, m'⟩ ∧ (ev = .enqueue i ∨ ev = .refuse i) := by
  cases h with
  | same | tooLong | rejected | mailed => exact .inl hl
  | agreed hlisten | opened hlisten | hungUp _ hlisten =>
    rw [loop_of_listens hlisten] at hl
    cases hl
  | replied h | replyFailed h | turnedAway h | offered h | mailedLast _ h | released h =>
    rw [h] at hl
    cases hl
  | enqueued h => exact .inr ⟨_, _, h, .inl rfl⟩
  | refused h => exact .inr ⟨_, _, h, .inr rfl⟩

end Move

/-! ## The tally -/

/-- How a count changes when one item goes on. -/
theorem countP_set_add {α : Type} {p : α → Bool} {l : List α} {a : α} (h : l[n]? = some a)
    (b : α) : (l.set n b).countP p + (p a).toNat = l.countP p + (p b).toNat := by
  obtain ⟨hlt, rfl⟩ := List.getElem?_eq_some_iff.mp h
  have htoNat (x : Bool) : x.toNat = if x = true then 1 else 0 := by cases x <;> rfl
  have hle := List.boole_getElem_le_countP hlt (p := p)
  rw [List.countP_set hlt, htoNat, htoNat]
  omega

/-- Every frame that came in is processed, failed, in progress, or was broken off. -/
def Balanced (g : Gateway) : Prop :=
  g.tally.received = g.tally.processed + g.tally.failed +
    g.connections.countP inFrame + g.connections.countP brokeOff

/-- The tally adds up if it does so for the one connection that goes on. -/
theorem Balanced.set (h : Balanced g) (hc : g.connections[n]? = some c)
    (hconnections : g'.connections = g.connections.set n c')
    (htally : g'.tally.received + g.tally.processed + g.tally.failed +
        c.inFrame.toNat + c.brokeOff.toNat =
      g.tally.received + g'.tally.processed + g'.tally.failed +
        c'.inFrame.toNat + c'.brokeOff.toNat) : Balanced g' := by
  have hbusy := countP_set_add (p := inFrame) hc c'
  have hbroken := countP_set_add (p := brokeOff) hc c'
  unfold Balanced at h ⊢
  rw [hconnections]
  omega

/-- The invariant of a run. -/
structure FrameInv (g : Gateway) : Prop where
  balanced : Balanced g
  offers : ∀ d ∈ g.pool.offers,
    ∃ c, g.connections[d.connection]? = some c ∧ c.loop = .offering d.message
  nodup : (g.pool.offers.map Delivery.connection).Nodup
  broke : ∀ (n : Nat) c, g.connections[n]? = some c → c.brokeOff = true → c.left = true

theorem closePool_offers (g : Gateway) : g.closePool.pool.offers = g.pool.offers := by
  unfold closePool
  cases hp : g.pool.step .close with
  | none => rfl
  | some pool => exact (Pool.step_of_eq_some hp).offers_eq nofun nofun nofun

namespace FrameInv

theorem offersOf (h : FrameInv g) (hc : g.connections[n]? = some c) : OffersOf g n c := by
  intro m hm
  obtain ⟨c', hc', hloop⟩ := h.offers _ hm
  obtain rfl : c = c' := Option.some.inj (hc.symm.trans hc')
  exact hloop

theorem brokeOff_eq_false (h : FrameInv g) (hc : g.connections[n]? = some c)
    (hl : c.left = false) : c.brokeOff = false :=
  Connection.brokeOff_eq_false (h.broke n c hc) hl

theorem broke_step (h : FrameInv g) (hs : Step g ev g') (n : Nat) (c' : Connection)
    (hc' : g'.connections[n]? = some c') (hb : c'.brokeOff = true) : c'.left = true := by
  cases hc : g.connections[n]? with
  | none =>
    obtain ⟨id, serial, rfl⟩ := hs.newConnection hc hc'
    cases hb
  | some c =>
    obtain ⟨c'', hc'', hmove⟩ := hs.connection hc
    obtain rfl : c'' = c' := Option.some.inj (hc''.symm.trans hc')
    exact hmove.left_of_brokeOff (h.offersOf hc) (h.broke n c hc) hb

/-- A task begins with a frame. -/
theorem balanced_begin (h : FrameInv g) (hc : g.connections[n]? = some c) (hl : c.listens = true)
    (hconnections : g'.connections = g.connections.set n c')
    (htally : g'.tally = { g.tally with received := g.tally.received + 1 })
    (hbusy : c'.inFrame = true) (hbroke : c'.brokeOff = c.brokeOff) : Balanced g' := by
  have hidle : c.inFrame = false := by simp [inFrame, loop_of_listens hl]
  refine h.balanced.set hc hconnections ?_
  rw [htally, hidle, hbusy, hbroke, Bool.toNat_true, Bool.toNat_false]
  dsimp only
  omega

/-- A task is done with its frame. -/
theorem balanced_done (h : FrameInv g) (hc : g.connections[n]? = some c) (hl : c.inFrame = true)
    (hconnections : g'.connections = g.connections.set n c')
    (htally : g'.tally = { g.tally with processed := g.tally.processed + 1 })
    (hidle : c'.inFrame = false) (hbroke : c'.brokeOff = c.brokeOff) : Balanced g' := by
  refine h.balanced.set hc hconnections ?_
  rw [htally, hidle, hl, hbroke, Bool.toNat_true, Bool.toNat_false]
  dsimp only
  omega

/-- A task leaves, in the middle of a frame or not. -/
theorem balanced_leave (h : FrameInv g) (hc : g.connections[n]? = some c) (hl : c.left = false)
    (hconnections : g'.connections = g.connections.set n c') (htally : g'.tally = g.tally)
    (hidle : c'.inFrame = false) (hbroke : c'.brokeOff = c.inFrame) : Balanced g' := by
  refine h.balanced.set hc hconnections ?_
  rw [htally, hidle, hbroke, h.brokeOff_eq_false hc hl, Bool.toNat_false]
  omega

theorem balanced_step (h : FrameInv g) (hs : Step g ev g') : Balanced g' := by
  have hbalanced := h.balanced
  cases hs with
  | accepted hs =>
    simp only [Balanced, List.countP_append] at hbalanced ⊢
    exact hbalanced
  | tooLong hc hl hd =>
    simp only [Balanced, countReceived, countFailed] at hbalanced ⊢
    omega
  | agreed hc hl hd hp => exact h.balanced_begin hc hl rfl rfl rfl rfl
  | opened hc hl hd hp => exact h.balanced_begin hc hl rfl rfl rfl rfl
  | @rejected n data c s e r hc hl hd hp hr =>
    refine hbalanced.set hc rfl ?_
    show g.tally.received + 1 + g.tally.processed + g.tally.failed + c.inFrame.toNat +
      c.brokeOff.toNat = g.tally.received + g.tally.processed + (g.tally.failed + 1) +
        c.inFrame.toNat + c.brokeOff.toNat
    omega
  | replied hc hl => exact h.balanced_done hc (by simp [inFrame, hl]) rfl rfl rfl rfl
  | replyFailed hc hl =>
    exact h.balanced_leave hc (by simp [left, hl]) rfl rfl rfl (by simp [inFrame, leave, hl])
  | turnedAway hc hl hp =>
    exact h.balanced_leave hc (by simp [left, hl]) rfl rfl rfl (by simp [inFrame, leave, hl])
  | offered hc hl hp =>
    refine hbalanced.set hc rfl ?_
    simp [inFrame, hl, setConnection]
  | @enqueued i d pool c ho hp hc =>
    have hloop := h.offersOf hc d.message (List.mem_of_getElem? ho)
    exact h.balanced_done hc (by simp [inFrame, hloop]) rfl rfl rfl rfl
  | @refused i d pool c ho hp hc =>
    have hloop := h.offersOf hc d.message (List.mem_of_getElem? ho)
    exact h.balanced_leave hc (by simp [left, hloop]) rfl rfl rfl
      (by simp [inFrame, leave, hloop])
  | mailed hc he hf hm hl => exact hbalanced.set hc rfl rfl
  | mailedLast hc he hm hl ho =>
    exact h.balanced_leave hc (by simp [left, hl]) rfl rfl rfl (by simp [inFrame, leave, hl])
  | hungUp hc hl | noticed _ hc hl =>
    have hloop := loop_of_listens hl
    exact h.balanced_leave hc (by simp [left, hloop]) rfl rfl rfl
      (by simp [inFrame, leave, hloop])
  | released hc hl =>
    refine hbalanced.set hc rfl ?_
    simp [inFrame, hl, setConnection]
  | _ => exact hbalanced

/-- What one event does to what waits for the pool: a task that submits its message waits, and an
offer that is taken or refused waits no more. -/
theorem offers_eq (hs : Step g ev g') :
    (∀ i, ev ≠ .enqueue i ∧ ev ≠ .refuse i) ∧
        (g'.pool.offers = g.pool.offers ∨
          ∃ n m c c', g.connections[n]? = some c ∧ c.loop = .submitting m ∧
            g'.connections[n]? = some c' ∧ c'.loop = .offering m ∧
            g'.pool.offers = g.pool.offers ++ [⟨n, m⟩]) ∨
      ∃ i d, (ev = .enqueue i ∨ ev = .refuse i) ∧ g.pool.offers[i]? = some d ∧
        g'.pool.offers = g.pool.offers.eraseIdx i := by
  cases hs with
  | turnedAway hc hl hp =>
    refine .inl ⟨fun _ => ⟨nofun, nofun⟩, .inl ?_⟩
    simp only [Pool.submit, hp, ↓reduceIte]
  | @offered n c m hc hl hp =>
    obtain ⟨hlt, -⟩ := List.getElem?_eq_some_iff.mp hc
    refine .inl ⟨fun _ => ⟨nofun, nofun⟩, .inr ⟨n, m, c, { c with loop := .offering m }, hc, hl,
      List.getElem?_set_self hlt, rfl, ?_⟩⟩
    simp only [Pool.submit, hp]
    rfl
  | @enqueued i d pool c ho hp hc =>
    refine .inr ⟨i, d, .inl rfl, ho, ?_⟩
    cases Pool.step_of_eq_some (e := .enqueue i) hp with
    | enqueued _ _ => rfl
  | @refused i d pool c ho hp hc =>
    refine .inr ⟨i, d, .inr rfl, ho, ?_⟩
    cases Pool.step_of_eq_some (e := .refuse i) hp with
    | refused _ _ => rfl
  | @forwarded w d pool hw hp =>
    have hpool := Pool.step_of_eq_some (e := .finish w _) hp
    exact .inl ⟨fun _ => ⟨nofun, nofun⟩, .inl (hpool.offers_eq nofun nofun nofun)⟩
  | pooled hp hsubmit henqueue hrefuse _ _ _ _ =>
    have hpool := Pool.step_of_eq_some hp
    exact .inl ⟨fun _ => ⟨nofun, nofun⟩, .inl (hpool.offers_eq hsubmit henqueue hrefuse)⟩
  | poolReleased hp =>
    have hpool := Pool.step_of_eq_some hp
    exact .inl ⟨fun _ => ⟨nofun, nofun⟩, .inl (hpool.offers_eq nofun nofun nofun)⟩
  | poolClosed => exact .inl ⟨fun _ => ⟨nofun, nofun⟩, .inl (closePool_offers g)⟩
  | drained _ _ => exact .inl ⟨fun _ => ⟨nofun, nofun⟩, .inl (closePool_offers g)⟩
  | _ => exact .inl ⟨fun _ => ⟨nofun, nofun⟩, .inl rfl⟩

theorem offers_step (h : FrameInv g) (hs : Step g ev g') : ∀ d ∈ g'.pool.offers,
    ∃ c, g'.connections[d.connection]? = some c ∧ c.loop = .offering d.message := by
  have hkept (d : Delivery) (hd : d ∈ g.pool.offers)
      (hev : ∀ i m, g.pool.offers[i]? = some ⟨d.connection, m⟩ →
        ev ≠ .enqueue i ∧ ev ≠ .refuse i) :
      ∃ c, g'.connections[d.connection]? = some c ∧ c.loop = .offering d.message := by
    obtain ⟨c, hc, hloop⟩ := h.offers d hd
    obtain ⟨c', hc', hmove⟩ := hs.connection hc
    refine ⟨c', hc', (hmove.offering hloop).resolve_right ?_⟩
    rintro ⟨i, m, hi, heq | heq⟩
    · exact (hev i m hi).1 heq
    · exact (hev i m hi).2 heq
  intro d hd
  rcases offers_eq hs with
    ⟨hev, hsame | ⟨n, m, c, c', hc, hl, hc', hl', hmore⟩⟩ | ⟨i, o, hi, ho, hless⟩
  · exact hkept d (hsame ▸ hd) fun i _ _ => hev i
  · rw [hmore, List.mem_append, List.mem_singleton] at hd
    rcases hd with hd | rfl
    · exact hkept d hd fun i _ _ => hev i
    · exact ⟨c', hc', hl'⟩
  · rw [hless] at hd
    refine hkept d (List.mem_of_mem_eraseIdx hd) fun j m hj => ?_
    -- The offer that is taken is of another connection, because each has one at most.
    have hne : o.connection ≠ d.connection := by
      have hnodup := ((Pool.offers_perm ho).map Delivery.connection).nodup h.nodup
      exact fun heq => (List.nodup_cons.mp hnodup).1 (heq ▸ List.mem_map_of_mem hd)
    have hij : i ≠ j := by
      rintro rfl
      obtain rfl := Option.some.inj (ho.symm.trans hj)
      exact hne rfl
    rcases hi with rfl | rfl
    · exact ⟨fun heq => hij (Event.enqueue.inj heq), nofun⟩
    · exact ⟨nofun, fun heq => hij (Event.refuse.inj heq)⟩

theorem nodup_step (h : FrameInv g) (hs : Step g ev g') :
    (g'.pool.offers.map Delivery.connection).Nodup := by
  rcases offers_eq hs with
    ⟨-, hsame | ⟨n, m, c, c', hc, hl, -, -, hmore⟩⟩ | ⟨i, o, -, -, hless⟩
  · exact hsame ▸ h.nodup
  · rw [hmore, List.map_append]
    refine List.nodup_append.mpr ⟨h.nodup, List.nodup_singleton _, fun k hk j hj => ?_⟩
    obtain ⟨d, hd, rfl⟩ := List.mem_map.mp hk
    obtain rfl : j = n := List.mem_singleton.mp hj
    rintro rfl
    -- A task that submits a message does not wait with another one.
    rw [h.offersOf hc d.message hd] at hl
    cases hl
  · rw [hless]
    exact h.nodup.sublist ((List.eraseIdx_sublist _ _).map _)

theorem step (h : FrameInv g) (hs : Step g ev g') : FrameInv g' :=
  ⟨h.balanced_step hs, h.offers_step hs, h.nodup_step hs, h.broke_step hs⟩

theorem start {config : Config} {entropy : Entropy} (h : create config entropy = .ok g) :
    FrameInv g := by
  obtain ⟨-, rfl⟩ := gateway_of_create h
  refine ⟨rfl, fun d hd => absurd hd List.not_mem_nil, List.nodup_nil, fun n c hc => ?_⟩
  rw [List.getElem?_nil] at hc
  cases hc

theorem run {config : Config} {entropy : Entropy} (h : create config entropy = .ok g)
    {events : List Event} (hrun : g.run? events = some g') : FrameInv g' :=
  Machine.run_invariant (f := Gateway.step) (start h)
    (fun _ _ _ hinv hstep => hinv.step (step_of_eq_some hstep)) hrun

end FrameInv

end Gateway

end SealedGateway
