import SealedGateway.Gateway.Backend
import SealedGateway.Proofs.Gateway.Run
import SealedGateway.Proofs.Outbound.Owner

/-!
# What a push through the control plane keeps

- **`Step`**: one constructor for each thing that can happen.
- **`Kept`**: a connection keeps its calls, and the answers to them.
- **`BackendInv`** is the invariant of a run, `BackendInv.step` its step: a push looks up once, and
  calls on one connection only.
-/

namespace SealedGateway.Backend

/-! ## Events -/

/-- What an event can do. -/
inductive Step (b : Backend) : Event → Backend → Prop where
  | asked {id : String} {payload : Bytes} :
      Step b (.ask id payload) { b with pushes := b.pushes ++ [⟨id, payload, .asked⟩] }
  | lookedUp {i : Nat} {id : String} {payload : Bytes}
      (hi : b.pushes[i]? = some ⟨id, payload, .asked⟩) :
      Step b (.lookUp i) (b.setStage i ((b.find? id).elim .absent .found))
  | called {i n : Nat} {id : String} {payload : Bytes} {handle : Handle} {c : Connection}
      {gateway : Gateway} (hi : b.pushes[i]? = some ⟨id, payload, .found handle⟩)
      (hc : b.gateway.connections[n]? = some c) (hs : c.serial = handle.serial)
      (hg : b.gateway.step (.mailbox n (.call (.push payload))) = some gateway) :
      Step b (.call i n)
        { b.setStage i (.called handle n c.mailbox.calls.length) with gateway }
  | learned {i n k : Nat} {id : String} {payload : Bytes} {handle : Handle} {c : Connection}
      {request : OutboundRequest} {f : Option Failure}
      (hi : b.pushes[i]? = some ⟨id, payload, .called handle n k⟩)
      (hc : b.gateway.connections[n]? = some c)
      (hk : c.mailbox.calls[k]? = some ⟨request, .answered f⟩) :
      Step b (.learn i) (b.setStage i (.answered handle n k f))
  | went {ev : Gateway.Event} {gateway : Gateway} (hg : b.gateway.step ev = some gateway) :
      Step b (.gateway ev) { b with gateway }

variable {b b' : Backend} {e : Event} {i j n k : Nat} {p : PushTask}

/-- An event that is enabled does one of the things that `Step` lists. -/
theorem step_of_eq_some (h : b.step e = some b') : Step b e b' := by
  cases e with
  | ask id payload =>
    cases h
    exact .asked
  | lookUp i =>
    simp only [step, lookUp] at h
    split at h
    case h_2 => cases h
    case h_1 hi =>
      cases h
      exact .lookedUp hi
  | call i n =>
    simp only [step, call] at h
    split at h
    case h_2 => cases h
    case h_1 hi hc =>
      split at h
      case isFalse => cases h
      case isTrue hs =>
        obtain ⟨gateway, hg, rfl⟩ := Option.map_eq_some_iff.mp h
        exact .called hi hc hs hg
  | learn i =>
    simp only [step, learn] at h
    split at h
    case h_2 => cases h
    case h_1 hi =>
      split at h
      case h_2 => cases h
      case h_1 hk =>
        cases h
        obtain ⟨c, hc, hk⟩ := Option.bind_eq_some_iff.mp hk
        exact .learned hi hc hk
  | gateway ev =>
    obtain ⟨gateway, hg, rfl⟩ := Option.map_eq_some_iff.mp h
    exact .went hg

/-- What `Step` lists can happen. -/
theorem Step.eq_some (h : Step b e b') : b.step e = some b' := by
  cases h with
  | asked => rfl
  | lookedUp hi => simp only [step, lookUp, hi]
  | called hi hc hs hg => simp only [step, call, hi, hc, hs, ↓reduceIte, hg, Option.map_some]
  | learned hi hc hk => simp only [step, learn, hi, hc, Option.bind_some, hk]
  | went hg => simp only [step, hg, Option.map_some]

/-! ## What connections keep -/

/-- A connection goes on: it is who it was, and its calls are what they were, with the answers that
they had. -/
structure Kept (c c' : Connection) : Prop where
  id : c'.id = c.id
  serial : c'.serial = c.serial
  calls : ∀ (k : Nat) request stage, c.mailbox.calls[k]? = some ⟨request, stage⟩ →
    ∃ after, c'.mailbox.calls[k]? = some ⟨request, after⟩ ∧
      ∀ f, stage = .answered f → after = .answered f

variable {config : Config} {entropy : Entropy} {g₀ g g' : Gateway} {ev : Gateway.Event}
  {es : List Gateway.Event} {c : Connection}

theorem Kept.of_move {c' : Connection} {capacity : Nat} {mes : List Mailbox.Event}
    (hm : Gateway.Move g n ev c c')
    (hmailbox : (Mailbox.empty capacity).run? mes = some c.mailbox) : Kept c c' := by
  obtain ⟨hid, hserial⟩ := hm.identity
  refine ⟨hid, hserial, fun k request stage hk => ?_⟩
  have hsame (hcalls : c'.mailbox.calls = c.mailbox.calls) :
      ∃ after, c'.mailbox.calls[k]? = some ⟨request, after⟩ ∧
        ∀ f, stage = .answered f → after = .answered f :=
    ⟨stage, hcalls ▸ hk, fun _ h => h⟩
  have hstep {e : Mailbox.Event} {mailbox : Mailbox} (hs : c.mailbox.step e = some mailbox) :
      ∃ after, mailbox.calls[k]? = some ⟨request, after⟩ ∧
        ∀ f, stage = .answered f → after = .answered f := by
    have hs := Mailbox.step_of_eq_some hs
    obtain ⟨after, hafter⟩ := hs.request hk
    refine ⟨after, hafter, ?_⟩
    rintro f rfl
    have hkept := (Mailbox.PushInv.run hmailbox).1.answered_kept hs hk
    exact congrArg Call.stage (Option.some.inj (hafter.symm.trans hkept))
  cases hm with
  | mailed hs | mailedLast hs =>
    have hkept := hstep hs
    exact hkept
  | _ => exact hsame rfl

/-- All connections of a gateway go on. -/
def AllKept (g g' : Gateway) : Prop :=
  ∀ (n : Nat) c, g.connections[n]? = some c → ∃ c', g'.connections[n]? = some c' ∧ Kept c c'

theorem AllKept.refl : AllKept g g :=
  fun _ c hc => ⟨c, hc, rfl, rfl, fun _ _ stage hk => ⟨stage, hk, fun _ h => h⟩⟩

/-- Whatever happens in a gateway, its connections go on. -/
theorem AllKept.of_step (h₀ : Gateway.create config entropy = .ok g₀) (h : g₀.run? es = some g)
    (hstep : g.step ev = some g') : AllKept g g' := by
  intro n c hc
  obtain ⟨c', hc', hm⟩ := (Gateway.step_of_eq_some hstep).connection hc
  obtain ⟨mes, hmailbox⟩ := Gateway.mailbox_run h₀ h hc
  exact ⟨c', hc', .of_move hm hmailbox⟩

/-- A call on a mailbox is the latest of its calls. -/
theorem calls_of_call {request : OutboundRequest}
    (hstep : g.step (.mailbox n (.call request)) = some g') (hc : g.connections[n]? = some c) :
    ∃ c', g'.connections[n]? = some c' ∧ c'.serial = c.serial ∧
      c'.mailbox.calls = c.mailbox.calls ++ [⟨request, .waitingForSpace⟩] := by
  obtain ⟨c', m, hc', hserial, hm, hsame⟩ := Gateway.mailbox_of_step hstep hc
  cases hm
  refine ⟨c', hc', hserial, ?_⟩
  rcases hsame with hsame | ⟨-, hsame⟩ <;> rw [hsame]
  rfl

/-- Anybody can call on a connection at any time. -/
theorem exists_call (request : OutboundRequest) (hc : g.connections[n]? = some c) :
    ∃ g', g.step (.mailbox n (.call request)) = some g' := by
  refine Option.isSome_iff_exists.mp ?_
  simp [Gateway.step, Gateway.mailbox, hc, Gateway.isOwnerEvent, Mailbox.step]

/-! ## The invariant -/

variable {events : List Event}

/-- The connection that an event has a push call on. -/
def Event.callee? (i : Nat) : Event → Option Nat
  | .call j n => if j = i then some n else none
  | _ => none

/-- The connections that a push called on, the first one first. -/
def callsOf (i : Nat) (events : List Event) : List Nat := events.filterMap (Event.callee? i)

theorem callsOf_concat : callsOf i (events ++ [e]) = callsOf i events ++ (e.callee? i).toList := by
  rw [callsOf, List.filterMap_append, List.filterMap_cons, List.filterMap_nil, callsOf]
  cases e.callee? i <;> rfl

theorem callsOf_of_none (he : e.callee? i = none) :
    callsOf i (events ++ [e]) = callsOf i events := by
  rw [callsOf_concat, he, Option.toList_none, List.append_nil]

/-- A push looked its identifier up, once, and what it found then. -/
def LookedUp (g₀ : Gateway) (events : List Event) (i : Nat) (id : String)
    (entry : Option Handle) : Prop :=
  ∃ before after b, events = before ++ .lookUp i :: after ∧ .lookUp i ∉ before ∧
    .lookUp i ∉ after ∧ (start g₀).run? before = some b ∧ b.find? id = entry

theorem LookedUp.concat {id : String} {entry : Option Handle}
    (h : LookedUp g₀ events i id entry) (he : e ≠ .lookUp i) :
    LookedUp g₀ (events ++ [e]) i id entry := by
  obtain ⟨before, after, b, rfl, hbefore, hafter, hrun, hfind⟩ := h
  refine ⟨before, after ++ [e], b, ?_, hbefore, fun hin => ?_, hrun, hfind⟩
  · rw [List.append_assoc, List.cons_append]
  · rcases List.mem_append.mp hin with hin | hin
    · exact hafter hin
    · exact he (List.mem_singleton.mp hin).symm

/-- There is one look-up of a push, so there is one thing that it found. -/
theorem LookedUp.unique {id : String} {entry entry' : Option Handle}
    (h : LookedUp g₀ events i id entry) (h' : LookedUp g₀ events i id entry') :
    entry = entry' := by
  obtain ⟨before, after, b, rfl, hbefore, hafter, hrun, rfl⟩ := h
  obtain ⟨before', after', b', heq, hbefore', hafter', hrun', rfl⟩ := h'
  obtain rfl : before = before' := by
    rcases List.append_eq_append_iff.mp heq with ⟨more, rfl, hmore⟩ | ⟨more, rfl, hmore⟩
    · cases more with
      | nil => exact (List.append_nil _).symm
      | cons e more =>
        obtain ⟨rfl, -⟩ := List.cons.inj hmore
        exact absurd (List.mem_append_right _ List.mem_cons_self) hbefore'
    · cases more with
      | nil => exact List.append_nil _
      | cons e more =>
        obtain ⟨rfl, -⟩ := List.cons.inj hmore
        exact absurd (List.mem_append_right _ List.mem_cons_self) hbefore
  obtain rfl := Option.some.inj (hrun.symm.trans hrun')
  rfl

/-- What a history says about a push. -/
structure TaskInv (g₀ : Gateway) (events : List Event) (g : Gateway) (i : Nat) (p : PushTask) :
    Prop where
  unasked : p.stage.entry? = none → .lookUp i ∉ events
  entry : ∀ entry, p.stage.entry? = some entry → LookedUp g₀ events i p.id entry
  /-- A handle that was found is that of a connection of this identifier. -/
  owner : ∀ handle, p.stage.entry? = some (some handle) →
    ∃ (n : Nat) (c : Connection), g.connections[n]? = some c ∧ c.id = p.id ∧
      c.serial = handle.serial
  once : callsOf i events = (p.stage.call?.map Prod.fst).toList
  call : ∀ n k, p.stage.call? = some (n, k) → ∃ handle c stage,
    p.stage.entry? = some (some handle) ∧ g.connections[n]? = some c ∧ c.serial = handle.serial ∧
      c.mailbox.calls[k]? = some ⟨.push p.payload, stage⟩
  answer : ∀ handle n k f, p.stage = .answered handle n k f → ∃ c : Connection,
    g.connections[n]? = some c ∧ c.mailbox.calls[k]? = some ⟨.push p.payload, .answered f⟩

namespace TaskInv

/-- Something happens that is no business of a push. -/
theorem grow (h : TaskInv g₀ events g i p) (hlook : e ≠ .lookUp i) (hcall : e.callee? i = none)
    (hg : AllKept g g') :
    TaskInv g₀ (events ++ [e]) g' i p := by
  refine ⟨fun hnone hin => ?_, fun entry he => (h.entry entry he).concat hlook,
    fun handle he => ?_, ?_, fun n k hk => ?_, fun handle n k f hs => ?_⟩
  · rcases List.mem_append.mp hin with hin | hin
    · exact h.unasked hnone hin
    · exact hlook (List.mem_singleton.mp hin).symm
  · obtain ⟨n, c, hc, hid, hserial⟩ := h.owner handle he
    obtain ⟨c', hc', hkept⟩ := hg n c hc
    exact ⟨n, c', hc', hkept.id.trans hid, hkept.serial.trans hserial⟩
  · exact (callsOf_of_none hcall).trans h.once
  · obtain ⟨handle, c, stage, he, hc, hserial, hrequest⟩ := h.call n k hk
    obtain ⟨c', hc', hkept⟩ := hg n c hc
    obtain ⟨after, hafter, -⟩ := hkept.calls k _ _ hrequest
    exact ⟨handle, c', after, he, hc', hkept.serial.trans hserial, hafter⟩
  · obtain ⟨c, hc, hrequest⟩ := h.answer handle n k f hs
    obtain ⟨c', hc', hkept⟩ := hg n c hc
    obtain ⟨after, hafter, hsame⟩ := hkept.calls k _ _ hrequest
    exact ⟨c', hc', by rw [hafter, hsame f rfl]⟩

/-- A push is asked for. -/
theorem asked {id : String} {payload : Bytes} (hlook : .lookUp i ∉ events)
    (hcall : callsOf i events = []) :
    TaskInv g₀ (events ++ [.ask id payload]) g i ⟨id, payload, .asked⟩ := by
  refine ⟨fun _ hin => ?_, nofun, nofun, ?_, nofun, nofun⟩
  · exact hlook ((List.mem_append.mp hin).resolve_right (by simp))
  · exact (callsOf_of_none rfl).trans hcall

/-- A push looks its identifier up. -/
theorem lookedUp {id : String} {payload : Bytes}
    (h : TaskInv g₀ events b.gateway i ⟨id, payload, .asked⟩) (hentry : Gateway.EntryInv b.gateway)
    (hrun : (start g₀).run? events = some b) :
    TaskInv g₀ (events ++ [.lookUp i]) b.gateway i
      ⟨id, payload, (b.find? id).elim .absent .found⟩ := by
  have hlooked : LookedUp g₀ (events ++ [.lookUp i]) i id (b.find? id) :=
    ⟨events, [], b, rfl, h.unasked rfl, List.not_mem_nil, hrun, rfl⟩
  have hnever : callsOf i (events ++ [.lookUp i]) = [] := (callsOf_of_none rfl).trans h.once
  cases hfind : b.find? id with
  | none =>
    rw [hfind] at hlooked
    refine ⟨nofun, fun entry he => ?_, nofun, hnever, nofun, nofun⟩
    cases he
    exact hlooked
  | some handle =>
    rw [hfind] at hlooked
    refine ⟨nofun, fun entry he => ?_, fun handle' he => ?_, hnever, nofun, nofun⟩
    · cases he
      exact hlooked
    · cases he
      exact hentry.entry id handle hfind

/-- A push calls on the connection whose handle it has. -/
theorem called {id : String} {payload : Bytes} {handle : Handle}
    (h : TaskInv g₀ events g i ⟨id, payload, .found handle⟩) (hc : g.connections[n]? = some c)
    (hs : c.serial = handle.serial)
    (hg : g.step (.mailbox n (.call (.push payload))) = some g')
    (hkept : AllKept g g') :
    TaskInv g₀ (events ++ [.call i n]) g' i
      ⟨id, payload, .called handle n c.mailbox.calls.length⟩ := by
  refine ⟨nofun, fun entry he => ?_, fun handle' he => ?_, ?_, fun n' k hk => ?_, nofun⟩
  · exact (h.entry entry he).concat nofun
  · obtain ⟨m, d, hd, hid, hserial⟩ := h.owner handle' he
    obtain ⟨d', hd', hkeep⟩ := hkept m d hd
    exact ⟨m, d', hd', hkeep.id.trans hid, hkeep.serial.trans hserial⟩
  · rw [callsOf_concat, h.once, Event.callee?, if_pos rfl]
    rfl
  · obtain ⟨rfl, rfl⟩ := Prod.mk.inj (Option.some.inj hk)
    obtain ⟨c', hc', hserial, hcalls⟩ := calls_of_call hg hc
    refine ⟨handle, c', .waitingForSpace, rfl, hc', hserial.trans hs, ?_⟩
    rw [hcalls]
    exact List.getElem?_concat_length

/-- A push learns the answer to its call. -/
theorem learned {id : String} {payload : Bytes} {handle : Handle} {request : OutboundRequest}
    {f : Option Failure} (h : TaskInv g₀ events g i ⟨id, payload, .called handle n k⟩)
    (hc : g.connections[n]? = some c)
    (hk : c.mailbox.calls[k]? = some ⟨request, .answered f⟩) :
    TaskInv g₀ (events ++ [.learn i]) g i ⟨id, payload, .answered handle n k f⟩ := by
  have hgrown := h.grow (e := .learn i) nofun rfl .refl
  refine ⟨nofun, hgrown.entry, hgrown.owner, hgrown.once, hgrown.call, fun _ _ _ _ hs => ?_⟩
  cases hs
  obtain ⟨-, d, stage, -, hd, -, hrequest⟩ := h.call n k rfl
  obtain rfl := Option.some.inj (hc.symm.trans hd)
  obtain rfl : request = .push payload :=
    congrArg Call.request (Option.some.inj (hk.symm.trans hrequest))
  exact ⟨c, hc, hk⟩

end TaskInv

/-- The invariant of a run. -/
structure BackendInv (g₀ : Gateway) (events : List Event) (b : Backend) : Prop where
  gateway : ∃ es, g₀.run? es = some b.gateway
  fresh : ∀ i, b.pushes.length ≤ i → .lookUp i ∉ events ∧ callsOf i events = []
  tasks : ∀ (i : Nat) p, b.pushes[i]? = some p → TaskInv g₀ events b.gateway i p
  /-- Each call is that of one push. -/
  distinct : ∀ (i j : Nat) p q n k, b.pushes[i]? = some p → b.pushes[j]? = some q →
    p.stage.call? = some (n, k) → q.stage.call? = some (n, k) → i = j

/-- A push stays what it was, or it is the one that goes on to a stage. -/
theorem eq_or_of_setStage {s : PushStage} (h : (b.setStage i s).pushes[j]? = some p) :
    (i ≠ j ∧ b.pushes[j]? = some p) ∨
      i = j ∧ ∃ before, b.pushes[j]? = some before ∧ p = { before with stage := s } := by
  simp only [setStage, List.getElem?_modify] at h
  obtain ⟨before, hbefore, rfl⟩ := Option.map_eq_some_iff.mp h
  by_cases heq : i = j
  · rw [if_pos heq]
    exact .inr ⟨heq, before, hbefore, rfl⟩
  · rw [if_neg heq]
    exact .inl ⟨heq, hbefore⟩

namespace BackendInv

theorem start (g₀ : Gateway) : BackendInv g₀ [] (start g₀) := by
  have hnone (i : Nat) (p : PushTask) : (Backend.start g₀).pushes[i]? ≠ some p := by
    simp [Backend.start]
  exact ⟨⟨[], rfl⟩, fun _ _ => ⟨List.not_mem_nil, rfl⟩,
    fun i p hi => absurd hi (hnone i p), fun i _ p _ _ _ hi => absurd hi (hnone i p)⟩

/-- One push goes on, and the gateway may go on with it. -/
theorem goOn (h : BackendInv g₀ events b) {s : PushStage} (hi : b.pushes[i]? = some p)
    (hlook : ∀ j, e = .lookUp j → j = i) (hcall : ∀ j, i ≠ j → e.callee? j = none)
    (hrun : ∃ es, g₀.run? es = some g')
    (hkept : AllKept b.gateway g')
    (htask : TaskInv g₀ (events ++ [e]) g' i { p with stage := s })
    (hnew : ∀ n k, s.call? = some (n, k) → p.stage.call? = some (n, k) ∨
      ∀ (j : Nat) q, b.pushes[j]? = some q → q.stage.call? ≠ some (n, k)) :
    BackendInv g₀ (events ++ [e]) ⟨g', (b.setStage i s).pushes⟩ := by
  have hlt := (List.getElem?_eq_some_iff.mp hi).1
  have hlength : (b.setStage i s).pushes.length = b.pushes.length := List.length_modify ..
  refine ⟨hrun, fun j hj => ?_, fun j q hq => ?_, fun j l q r n k hq hr hcq hcr => ?_⟩
  · have hj : b.pushes.length ≤ j := hlength ▸ hj
    have hne : i ≠ j := by omega
    obtain ⟨hnolook, hnocall⟩ := h.fresh j hj
    refine ⟨fun hin => ?_, ?_⟩
    · rcases List.mem_append.mp hin with hin | hin
      · exact hnolook hin
      · exact hne (hlook j (List.mem_singleton.mp hin).symm).symm
    · exact (callsOf_of_none (hcall j hne)).trans hnocall
  · rcases eq_or_of_setStage hq with ⟨hne, hq'⟩ | ⟨rfl, before, hq', rfl⟩
    · exact (h.tasks j q hq').grow (fun heq => hne (hlook j heq).symm) (hcall j hne) hkept
    · obtain rfl := Option.some.inj (hi.symm.trans hq')
      exact htask
  · have hother {l : Nat} {r : PushTask} (hr : b.pushes[l]? = some r) (hcs : s.call? = some (n, k))
        (hcr : r.stage.call? = some (n, k)) : i = l := by
      rcases hnew n k hcs with hold | hnone
      · exact h.distinct i l p r n k hi hr hold hcr
      · exact absurd hcr (hnone l r hr)
    rcases eq_or_of_setStage hq with ⟨-, hq'⟩ | ⟨rfl, before, -, rfl⟩ <;>
      rcases eq_or_of_setStage hr with ⟨-, hr'⟩ | ⟨rfl, before', -, rfl⟩
    · exact h.distinct j l q r n k hq' hr' hcq hcr
    · exact (hother hq' hcr hcq).symm
    · exact hother hr' hcq hcr
    · rfl

/-- A push is asked for, and the others are what they were. -/
theorem asked {id : String} {payload : Bytes} (h : BackendInv g₀ events b) :
    BackendInv g₀ (events ++ [.ask id payload])
      { b with pushes := b.pushes ++ [⟨id, payload, .asked⟩] } := by
  refine ⟨h.gateway, fun j hj => ?_, fun j q hq => ?_, fun j l q r n k hq hr hcq hcr => ?_⟩
  · have hj : b.pushes.length ≤ j := by
      simp only [List.length_append, List.length_singleton] at hj
      omega
    obtain ⟨hlook, hcall⟩ := h.fresh j hj
    exact ⟨by simpa using hlook, (callsOf_of_none rfl).trans hcall⟩
  · rcases Machine.eq_or_of_newcomer hq with hq | ⟨rfl, rfl⟩
    · exact (h.tasks j q hq).grow nofun rfl .refl
    · obtain ⟨hlook, hcall⟩ := h.fresh _ (Nat.le_refl _)
      exact .asked hlook hcall
  · rcases Machine.eq_or_of_newcomer hq with hq | ⟨rfl, rfl⟩
    · rcases Machine.eq_or_of_newcomer hr with hr | ⟨rfl, rfl⟩
      · exact h.distinct j l q r n k hq hr hcq hcr
      · cases hcr
    · cases hcq

theorem step (h₀ : Gateway.create config entropy = .ok g₀) (h : BackendInv g₀ events b)
    (hrun : (Backend.start g₀).run? events = some b) (hs : Step b e b') :
    BackendInv g₀ (events ++ [e]) b' := by
  obtain ⟨es, hes⟩ := h.gateway
  have hstep {ev : Gateway.Event} {g' : Gateway} (hg : b.gateway.step ev = some g') :
      (∃ es, g₀.run? es = some g') ∧ AllKept b.gateway g' :=
    ⟨⟨es ++ [ev], Machine.run_concat_iff.mpr ⟨_, hes, hg⟩⟩, .of_step h₀ hes hg⟩
  cases hs with
  | asked => exact h.asked
  | @lookedUp i id payload hi =>
    refine h.goOn hi (fun j hj => (Event.lookUp.inj hj).symm) (fun _ _ => rfl) ⟨es, hes⟩ .refl
      ((h.tasks i _ hi).lookedUp (.run h₀ hes) hrun) fun n k hk => ?_
    cases hfind : b.find? id <;> rw [hfind] at hk <;> cases hk
  | @called i n id payload handle c gateway hi hc hserial hg =>
    obtain ⟨hrun', hkept⟩ := hstep hg
    refine h.goOn hi nofun (fun j hj => if_neg hj) hrun' hkept
      ((h.tasks i _ hi).called hc hserial hg hkept) fun m k hk => .inr fun j q hq hcall => ?_
    -- The call is new, so it is that of no push.
    obtain ⟨rfl, rfl⟩ := Prod.mk.inj (Option.some.inj hk)
    obtain ⟨-, d, stage, -, hd, -, hold⟩ := (h.tasks j q hq).call _ _ hcall
    obtain rfl := Option.some.inj (hc.symm.trans hd)
    exact absurd (List.getElem?_eq_some_iff.mp hold).1 (Nat.lt_irrefl _)
  | @learned i n k id payload handle c request f hi hc hk =>
    exact h.goOn hi nofun (fun _ _ => rfl) ⟨es, hes⟩ .refl ((h.tasks i _ hi).learned hc hk)
      fun m l hl => .inl hl
  | @went ev gateway hg =>
    obtain ⟨hrun', hkept⟩ := hstep hg
    refine ⟨hrun', fun j hj => ?_, fun j q hq => (h.tasks j q hq).grow nofun rfl hkept,
      h.distinct⟩
    obtain ⟨hlook, hcall⟩ := h.fresh j hj
    exact ⟨by simpa using hlook, (callsOf_of_none rfl).trans hcall⟩

theorem run (h₀ : Gateway.create config entropy = .ok g₀)
    (h : (Backend.start g₀).run? events = some b) : BackendInv g₀ events b :=
  Machine.run_induction (f := Backend.step) (motive := BackendInv g₀) (start g₀)
    (fun _ _ _ _ hrun hinv hs => hinv.step h₀ hrun (step_of_eq_some hs)) h

end BackendInv

end SealedGateway.Backend
