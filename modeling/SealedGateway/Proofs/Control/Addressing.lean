import SealedGateway.Proofs.Control.Views
import SealedGateway.Proofs.Gateway.Server
import SealedGateway.Proofs.Net.ClientName

/-!
# Every registered connection can be addressed

A connection is known by a name, and a name stands for itself in a path: no character of it ends a
segment, the path, or has to be decoded. So a backend that writes an identifier into a target as it
is reaches the connection of that identifier.

- **`Resource.names_segmentTarget`**: the three targets of a name.
- **`Server.NamesInv`**: whatever happens, connections are known by names.
- **`Server.registered_addressable`**: who is registered can be asked for, pushed to and
  disconnected.
-/

namespace SealedGateway

open ClientName (IsName Safe)

/-! ## Names in a target -/

namespace ClientName

theorem not_safe_of_mem : ∀ c ∈ ['/', '?', '#', '%'], ¬ Safe c := by
  intro c hc
  rw [← allows_iff]
  simp only [List.mem_cons, List.not_mem_nil, or_false] at hc
  rcases hc with rfl | rfl | rfl | rfl <;> decide

theorem ascii_of_safe {c : Char} (h : Safe c) : c.toNat < 0x80 := by
  have hle {b : Char} (hb : c ≤ b) : c.toNat ≤ b.toNat := hb
  rcases h with ⟨-, hz⟩ | ⟨-, hz⟩ | ⟨-, hz⟩ | hmark
  · exact Nat.lt_of_le_of_lt (hle hz) (by decide)
  · exact Nat.lt_of_le_of_lt (hle hz) (by decide)
  · exact Nat.lt_of_le_of_lt (hle hz) (by decide)
  · simp only [List.mem_cons, List.not_mem_nil, or_false] at hmark
    rcases hmark with rfl | rfl | rfl | rfl | rfl <;> decide

variable {name : String}

theorem IsName.isSegment (h : IsName name) : Resource.IsSegment name := by
  intro c hc hmem
  exact not_safe_of_mem c (List.mem_append_left ['%'] hc) (h.safe c hmem)

/-- A name is its own decoding. -/
theorem IsName.decode?_eq (h : IsName name) : Percent.decode? name = some name := by
  have hoctets : Utf8.encode name = name.toList.map fun c => UInt8.ofNat c.toNat := by
    conv => lhs; rw [← @String.ofList_toList name]
    exact Utf8.encode_ofList_ascii fun c hc => ascii_of_safe (h.safe c hc)
  have hpercent : 0x25 ∉ Utf8.encode name := by
    rw [hoctets]
    intro hmem
    obtain ⟨c, hc, heq⟩ := List.mem_map.mp hmem
    have hlt := ascii_of_safe (h.safe c hc)
    have hnat : c.toNat = ('%').toNat := by
      have := congrArg UInt8.toNat heq
      rw [UInt8.toNat_ofNat'] at this
      exact (Nat.mod_eq_of_lt (by omega)).symm.trans this
    obtain rfl : c = '%' := Char.ext (UInt32.toNat_inj.mp hnat)
    exact not_safe_of_mem '%' (by decide) (h.safe _ hc)
  rw [Percent.decode?, Percent.decodeOctets_eq_self hpercent, Utf8.decode?_encode]

end ClientName

/-- A name can be written into a target as it is. -/
theorem Resource.names_segmentTarget {name : String} (h : IsName name) :
    Names (segmentTarget name "connected") .presence name ∧
      Names (segmentTarget name "payload") .payload name ∧
      Names (segmentTarget name "connection") .connection name := by
  obtain ⟨hpresence, hpayload, hconnection⟩ := ofTarget?_segmentTarget h.isSegment
  exact ⟨⟨_, hpresence, h.decode?_eq⟩, ⟨_, hpayload, h.decode?_eq⟩,
    ⟨_, hconnection, h.decode?_eq⟩⟩

/-! ## Who is registered -/

/-- A connection as the listener hands it over: its name is what its query asks for, and its other
identifier was generated. -/
structure Arrival.Vetted (a : Arrival) : Prop where
  name : ∃ query, a.name = ClientName.ofQuery? query
  fresh : ∃ e, a.fresh = (generateConnectionId e).1

theorem Arrival.Vetted.isName {a : Arrival} (h : a.Vetted) (config : Config) :
    IsName (Gateway.identifier config a.name a.fresh) := by
  obtain ⟨⟨query, hquery⟩, e, hfresh⟩ := h
  have hgenerated : IsName a.fresh := hfresh ▸ ClientName.isName_generated e
  unfold Gateway.identifier
  split
  · cases hname : a.name with
    | none => exact hgenerated
    | some name => exact ClientName.isName_of_query (hquery.symm.trans hname)
  · exact hgenerated

/-- What holds of the identifiers of all connections, and of that which a new one is given, holds
after an event. -/
theorem Gateway.Step.ids {g g' : Gateway} {ev : Gateway.Event} {P : String → Prop}
    (hs : Gateway.Step g ev g')
    (h : ∀ (n : Nat) c, g.connections[n]? = some c → P c.id)
    (hnew : ∀ name fresh remote, ev = .accept name fresh remote →
      P (Gateway.identifier g.config name fresh)) :
    ∀ (n : Nat) c, g'.connections[n]? = some c → P c.id := by
  intro n c' hc'
  cases hc : g.connections[n]? with
  | none =>
    obtain ⟨name, fresh, remote, hev, rfl⟩ := hs.acceptance hc hc'
    exact hnew name fresh remote hev
  | some c =>
    obtain ⟨c'', hc'', hmove⟩ := hs.connection hc
    obtain rfl := Option.some.inj (hc''.symm.trans hc')
    rw [hmove.identity.1]
    exact h n c hc

namespace Server

variable {config : Config} {entropy : Entropy} {g₀ : Gateway} {s s' : Server} {ev : Event}
  {events : List Event}

/-- Connections are known by names, also those on their way. -/
structure NamesInv (s : Server) : Prop where
  arriving : ∀ a ∈ s.arriving, a.Vetted
  connections : ∀ (n : Nat) c, s.gateway.connections[n]? = some c → IsName c.id

namespace NamesInv

theorem step (h : NamesInv s) (hs : Step s ev s') (hvetted : ∀ a, ev = .arrive a → a.Vetted) :
    NamesInv s' := by
  cases hs with
  | @arrived a hserving =>
    refine ⟨fun b hb => ?_, h.connections⟩
    rcases List.mem_append.mp hb with hb | hb
    · exact h.arriving b hb
    · exact hvetted b (List.mem_singleton.mp hb ▸ rfl)
  | @registered i a g ha hg =>
    have hname := (h.arriving a (List.mem_of_getElem? ha)).isName s.gateway.config
    have hnew (name : Option String) (fresh : String) (remote : SocketAddr)
        (hev : Gateway.Event.accept a.name a.fresh a.remote = .accept name fresh remote) :
        IsName (Gateway.identifier s.gateway.config name fresh) := by
      cases hev
      exact hname
    have hids := Gateway.Step.ids (P := IsName) hg h.connections hnew
    exact ⟨fun b hb => h.arriving b (List.mem_of_mem_eraseIdx hb), hids⟩
  | moved hg haccept hdrain =>
    refine ⟨h.arriving, Gateway.Step.ids hg h.connections fun name fresh remote hev => ?_⟩
    exact absurd hev (haccept name fresh remote)

theorem run (h₀ : Gateway.create config entropy = .ok g₀)
    (hvetted : ∀ a, .arrive a ∈ events → a.Vetted) (h : (start g₀).run? events = some s) :
    NamesInv s := by
  revert hvetted
  refine Machine.run_induction (f := Server.step)
    (motive := fun es s => (∀ a, .arrive a ∈ es → a.Vetted) → NamesInv s) ?_ ?_ h
  · intro _
    obtain ⟨-, rfl⟩ := Gateway.gateway_of_create h₀
    refine ⟨fun a ha => absurd ha List.not_mem_nil, fun n c hc => ?_⟩
    have hc : ([] : List Connection)[n]? = some c := hc
    rw [List.getElem?_nil] at hc
    cases hc
  · intro es e t u _ ih hstep hall
    have hbefore := ih fun a ha => hall a (List.mem_append_left [e] ha)
    refine hbefore.step (step_of_eq_some hstep) fun a he => hall a ?_
    exact List.mem_append_right es (List.mem_singleton.mpr he.symm)

end NamesInv

theorem entries_of_run (h₀ : Gateway.create config entropy = .ok g₀)
    (h : (start g₀).run? events = some s) : Gateway.EntryInv s.gateway :=
  run_keeps (.start h₀) (fun _ _ h => ⟨h.next, h.serial, h.entry⟩) (fun _ _ _ h hs => h.step hs) h

end Server

/-! ## What a backend does with an identifier -/

namespace ControlPlane

variable {σ : Type} {c : ControlPlane (σ × OwnerLog)} {id : String} {handle : Handle}

/-- A payload for an identifier with an entry goes to the owner of that entry. -/
theorem push_logged (lines : Lines σ) (payload : Bytes)
    (h : c.registry.directory.find? id = some handle) :
    (c.push lines.logged id payload).2.owners.2 = c.owners.2 ++ [(handle.serial, .push payload)] ∧
      ((lines.push c.owners.1 handle.serial payload).1 = .ok () →
        (c.push lines.logged id payload).1 = .sent) := by
  have hanswer : (lines.logged.push c.owners handle.serial payload).1 =
      (lines.push c.owners.1 handle.serial payload).1 := rfl
  have hlog : (lines.logged.push c.owners handle.serial payload).2.2 =
      c.owners.2 ++ [(handle.serial, .push payload)] := rfl
  unfold push
  rw [h]
  dsimp only
  split
  next heq =>
    rw [heq] at hlog
    exact ⟨hlog, fun _ => rfl⟩
  next f _ heq =>
    rw [heq] at hanswer hlog
    exact ⟨hlog, fun hok => nomatch hanswer.trans hok⟩

end ControlPlane

namespace Server

variable {σ : Type}

open Resource (segmentTarget)

/-- **Identifiers are names, and who is registered under one can be addressed by it.**

- A query asks for a name just if that is the value of the first of its pairs that starts with
  `user=`, and it is one to 128 safe characters; a later pair makes no difference.
- An identifier that some query asks for, or that was generated, can be written into a target as it
  is: the request is for that identifier.
- In any run of the server in which the listener vets connections, an entry is that of a connection.
  A backend that writes its identifier as it is learns that it is there, and its payload or its
  request to close reaches the owner of just that entry, whatever else the owners do. -/
theorem registered_addressable (lines : Lines σ) :
    (∀ query name, ClientName.ofQuery? query = some name ↔ ∃ text before after,
      query = some text ∧
      text.toList.splitOn '&' = before ++ ("user=".toList ++ name.toList) :: after ∧
      (∀ pair ∈ before, ¬ "user=".toList <+: pair) ∧
      1 ≤ name.length ∧ name.length ≤ 128 ∧ ∀ c ∈ name.toList, Safe c) ∧
    (∀ id, ((∃ query, ClientName.ofQuery? query = some id) ∨
        ∃ e, (generateConnectionId e).1 = id) → ∀ body,
      (Request.mk "GET" (segmentTarget id "connected") body).command = .ok (.presence id) ∧
      (Request.mk "DELETE" (segmentTarget id "connection") body).command = .ok (.disconnect id) ∧
      (body.length ≤ Request.maxPayload →
        (Request.mk "POST" (segmentTarget id "payload") body).command = .ok (.push id body))) ∧
    ∀ config entropy g₀ events s, Gateway.create config entropy = .ok g₀ →
      (∀ a, .arrive a ∈ events → a.Vetted) → (start g₀).run? events = some s →
      ∀ id handle, s.gateway.registry.directory.find? id = some handle →
        (∃ (n : Nat) (c : Connection), s.gateway.connections[n]? = some c ∧ c.id = id ∧
          c.serial = handle.serial) ∧
        ∀ (owners : σ × OwnerLog) sent now body,
          let plane : ControlPlane (σ × OwnerLog) := ⟨s.gateway.registry, owners, sent⟩
          let ask := fun method what =>
            plane.respond lines.logged now ⟨method, segmentTarget id what, body⟩
          (ask "GET" "connected").1.Shows (.object [("connected", .bool true)]) ∧
          (body.length ≤ Request.maxPayload →
            (ask "POST" "payload").2.owners.2 = owners.2 ++ [(handle.serial, .push body)] ∧
            ((lines.push owners.1 handle.serial body).1 = .ok () →
              (ask "POST" "payload").1.Shows (.object [("ack", .string "Payload sent")]))) ∧
          (ask "DELETE" "connection").1.Shows (.object [("disconnected", .bool true)]) ∧
          (ask "DELETE" "connection").2.owners.2 = owners.2 ++ [(handle.serial, .close)] ∧
          (ask "DELETE" "connection").2.registry.directory.find? id = none := by
  refine ⟨fun query name => ?_, fun id hid body => ?_, ?_⟩
  · cases query with
    | none => exact iff_of_false nofun (by simp)
    | some query =>
      rw [ClientName.ofQuery?_eq_some_iff]
      constructor
      · rintro ⟨⟨before, after, hsplit, hbefore⟩, hone, hle, hsafe⟩
        exact ⟨query, before, after, rfl, hsplit, hbefore, hone, hle, hsafe⟩
      · rintro ⟨_, before, after, ⟨⟩, hsplit, hbefore, hone, hle, hsafe⟩
        exact ⟨⟨before, after, hsplit, hbefore⟩, hone, hle, hsafe⟩
  · have hname : IsName id := by
      rcases hid with ⟨query, hquery⟩ | ⟨e, rfl⟩
      · exact ClientName.isName_of_query hquery
      · exact ClientName.isName_generated e
    obtain ⟨hpresence, hpayload, hconnection⟩ := Resource.names_segmentTarget hname
    exact ⟨Request.command_presence hpresence, Request.command_disconnect hconnection,
      Request.command_push hpayload⟩
  · intro config entropy g₀ events s h₀ hvetted h id handle hfound
    obtain ⟨n, c, hc, hid, hserial⟩ := (entries_of_run h₀ h).entry id handle hfound
    have hname : IsName id := hid ▸ (NamesInv.run h₀ hvetted h).connections n c hc
    obtain ⟨hpresence, hpayload, hconnection⟩ := Resource.names_segmentTarget hname
    refine ⟨⟨n, c, hc, hid, hserial⟩, fun owners sent now body => ?_⟩
    intro plane ask
    have hentry : plane.registry.directory.find? id = some handle := hfound
    have hget : ask "GET" "connected" = _ := ControlPlane.respond_presence hpresence
    have hdelete : ask "DELETE" "connection" = _ := ControlPlane.respond_disconnect hconnection
    obtain ⟨hremoved, hdirectory, hclosed⟩ := ControlPlane.disconnect_logged lines plane id
    rw [hentry] at hremoved hclosed
    refine ⟨?_, fun hbody => ?_, ?_, ?_, ?_⟩
    · rw [hget, ControlPlane.isConnected, hentry]
      exact ⟨rfl, ControlPlane.json?_bool "connected" true⟩
    · have hpost : ask "POST" "payload" = _ :=
        ControlPlane.respond_eq (Request.command_push hpayload hbody) (by decide : "POST" ≠ "HEAD")
      obtain ⟨hlog, hsent⟩ := ControlPlane.push_logged lines body hentry
      rw [hpost]
      refine ⟨hlog, fun hok => ?_⟩
      simp only [ControlPlane.perform, hsent hok]
      exact ⟨rfl, ControlPlane.json?_ack 200 _⟩
    · rw [hdelete]
      refine ⟨rfl, ?_⟩
      rw [hremoved]
      exact ControlPlane.json?_bool "disconnected" true
    · rw [hdelete]
      exact hclosed
    · rw [hdelete]
      exact (congrArg (Directory.find? · id) hdirectory).trans
        ((Directory.find?_remove _ _ _).trans (if_pos rfl))

namespace Sample

/-- The name of a client, with each of the marks. -/
def name : String := "ada:1@x.y_z-0"

/-- A client that sets its name twice, the second time badly. -/
def arrival : Arrival :=
  ⟨ClientName.ofQuery? (some ("v=1&user=" ++ name ++ "&user=a/b")),
    (generateConnectionId Gateway.Sample.draws).1, ⟨.v4 ⟨127, 0, 0, 1⟩, 4000⟩⟩

theorem name_arrival : arrival.name = some name := by decide +kernel

theorem run_arrival : ∃ g₀ s, Gateway.create Gateway.Sample.config Gateway.Sample.draws = .ok g₀ ∧
    (start g₀).run? [.arrive arrival, .register 0] = some s ∧
    s.gateway.registry.directory.find? name = some ⟨1, arrival.remote, 0⟩ := by
  refine ⟨_, _, rfl, rfl, ?_⟩
  have hid : Gateway.identifier Gateway.Sample.config arrival.name arrival.fresh = name := by
    rw [name_arrival]
    rfl
  show (Directory.empty.add (Gateway.identifier Gateway.Sample.config arrival.name arrival.fresh)
    ⟨1, arrival.remote, 0⟩).find? name = _
  rw [hid, Directory.find?_add, if_pos rfl]

end Sample

theorem registered_addressable_marks :
    ∃ g₀ s, Gateway.create Gateway.Sample.config Gateway.Sample.draws = .ok g₀ ∧
      (start g₀).run? [.arrive Sample.arrival, .register 0] = some s ∧
      let plane : ControlPlane (BenchOwners × OwnerLog) := ⟨s.gateway.registry, ([], []), 0⟩
      (plane.respond BenchOwners.lines.logged 0
        ⟨"DELETE", "/v1/users/ada:1@x.y_z-0/connection", []⟩).2.owners.2 = [(1, .close)] := by
  obtain ⟨-, -, hrun⟩ := registered_addressable BenchOwners.lines
  obtain ⟨g₀, s, h₀, h, hfound⟩ := Sample.run_arrival
  have hvetted : ∀ a, .arrive a ∈ [Event.arrive Sample.arrival, .register 0] → a.Vetted := by
    intro a ha
    obtain rfl : a = Sample.arrival := by simpa using ha
    exact ⟨⟨_, rfl⟩, ⟨Gateway.Sample.draws, rfl⟩⟩
  obtain ⟨-, hask⟩ := hrun _ _ g₀ _ s h₀ hvetted h Sample.name _ hfound
  obtain ⟨-, -, -, hclosed, -⟩ := hask ([], []) 0 0 []
  exact ⟨g₀, s, h₀, h, hclosed⟩

end Server

end SealedGateway
