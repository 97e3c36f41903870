import Mathlib.Data.List.TakeWhile
import SealedGateway.Control.Bench
import SealedGateway.Proofs.Control.Listing
import SealedGateway.Proofs.Failure
import SealedGateway.Proofs.Text.Percent
import SealedGateway.Proofs.Text.Split

/-!
# The views of the control plane agree

What the control plane shows of the directory by its resources, and what its requests do to it. A
client names an identifier by any segment that decodes to it, and reads a body as a JSON document.

- **`Resource.ofTarget?_userTarget`**: every identifier can be named.
- **`Lines.logged`**: owners whose requests are written down, whatever they answer.
- **`views_agree`**: presence, listing and count say the same, a disconnection takes away exactly
  what is listed under its identifier, and nothing else changes anything.
-/

namespace SealedGateway

/-! ## Naming an identifier -/

namespace Target

/-- A target that holds neither a query nor a fragment is its own path. -/
theorem path_slash {target : String} {s : List Char} (htarget : target.toList = '/' :: s)
    (hquery : '?' ∉ s) (hfragment : '#' ∉ s) : path target = '/' :: s := by
  have hself : ∀ c : Char, c ≠ '/' → c ∉ s → ('/' :: s).takeWhile (· ≠ c) = '/' :: s := by
    intro c hslash hc
    refine List.takeWhile_eq_self_iff.mpr fun d hd => decide_eq_true ?_
    rintro rfl
    rcases List.mem_cons.mp hd with rfl | hmem
    · exact hslash rfl
    · exact hc hmem
  rw [path, reference, htarget, hself '#' (by decide) hfragment, behindAuthority?_slash,
    Option.getD_none, hself '?' (by decide) hquery]

end Target

namespace Resource

/-- A target names a resource of the identifier `id`, however that is encoded. -/
def Names (target : String) (resource : String → Resource) (id : String) : Prop :=
  ∃ segment, ofTarget? target = some (resource segment) ∧ Percent.decode? segment = some id

/-- The target of something that belongs to the user whom a segment names. -/
def segmentTarget (segment what : String) : String := "/v1/users/" ++ segment ++ "/" ++ what

/-- The target of something that belongs to an identifier. -/
def userTarget (id what : String) : String := "/v1/users/" ++ Percent.encode id ++ "/" ++ what

/-- Whether a text is one segment of a path: it ends neither itself nor the path. -/
def IsSegment (text : String) : Prop := ∀ c ∈ ['/', '?', '#'], c ∉ text.toList

instance (text : String) : Decidable (IsSegment text) := List.decidableBAll _ ['/', '?', '#']

theorem segments_segmentTarget {segment what : String} (hsegment : IsSegment segment)
    (hwhat : IsSegment what) :
    segments (segmentTarget segment what) = ["", "v1", "users", segment, what] := by
  have htarget : (segmentTarget segment what).toList =
      '/' :: ("v1/users/".toList ++ segment.toList ++ '/' :: what.toList) := by
    simp [segmentTarget]
  have hnot : ∀ c ∈ ['?', '#'], c ∉ "v1/users/".toList ++ segment.toList ++ '/' :: what.toList := by
    intro c hc hmem
    have hstart : c ∉ "v1/users/".toList ∧ c ≠ '/' := by
      simp only [List.mem_cons, List.not_mem_nil, or_false] at hc
      rcases hc with rfl | rfl <;> decide
    simp only [List.mem_append, List.mem_cons] at hmem
    rcases hmem with (hs | hid) | hslash | hend
    · exact hstart.1 hs
    · exact hsegment c (List.mem_cons_of_mem _ hc) hid
    · exact hstart.2 hslash
    · exact hwhat c (List.mem_cons_of_mem _ hc) hend
  have hjoin : '/' :: ("v1/users/".toList ++ segment.toList ++ '/' :: what.toList) =
      ['/'].intercalate (["", "v1", "users", segment, what].map String.toList) := by
    simp [List.intercalate, List.intersperse]
  have hpieces : ∀ piece ∈ ["", "v1", "users", segment, what].map String.toList, '/' ∉ piece := by
    simp only [List.map_cons, List.map_nil, List.forall_mem_cons]
    exact ⟨by decide, by decide, by decide, hsegment '/' (by decide), hwhat '/' (by decide), nofun⟩
  rw [segments, Target.path_slash htarget (hnot '?' (by decide)) (hnot '#' (by decide)), hjoin,
    (split_intercalate_iff (by simp)).mpr hpieces, List.map_map]
  simp

theorem ofTarget?_segmentTarget {segment : String} (h : IsSegment segment) :
    ofTarget? (segmentTarget segment "connected") = some (.presence segment) ∧
      ofTarget? (segmentTarget segment "payload") = some (.payload segment) ∧
      ofTarget? (segmentTarget segment "connection") = some (.connection segment) := by
  refine ⟨?_, ?_, ?_⟩ <;>
    rw [ofTarget?, segments_segmentTarget h (by decide)] <;> rfl

theorem isSegment_encode (id : String) : IsSegment (Percent.encode id) := by
  intro c hc
  have hother : Percent.isUnreserved c = false ∧ c ≠ '%' := by
    simp only [List.mem_cons, List.not_mem_nil, or_false] at hc
    rcases hc with rfl | rfl | rfl <;> decide
  exact Percent.notMem_encode hother.1 hother.2

/-- Every identifier can be named. -/
theorem ofTarget?_userTarget (id : String) :
    ofTarget? (userTarget id "connected") = some (.presence (Percent.encode id)) ∧
      ofTarget? (userTarget id "payload") = some (.payload (Percent.encode id)) ∧
      ofTarget? (userTarget id "connection") = some (.connection (Percent.encode id)) :=
  ofTarget?_segmentTarget (isSegment_encode id)

theorem names_userTarget (id : String) :
    Names (userTarget id "connected") .presence id ∧ Names (userTarget id "payload") .payload id ∧
      Names (userTarget id "connection") .connection id := by
  obtain ⟨hpresence, hpayload, hconnection⟩ := ofTarget?_userTarget id
  have hid := Percent.decode?_encode id
  exact ⟨⟨_, hpresence, hid⟩, ⟨_, hpayload, hid⟩, ⟨_, hconnection, hid⟩⟩

end Resource

/-! ## Owners -/

/-- What reached the owners, oldest first: the serial of a connection with each request. -/
abbrev OwnerLog := List (UInt64 × OutboundRequest)

/-- Owners whose requests are written down. -/
def Lines.logged {σ : Type} (lines : Lines σ) : Lines (σ × OwnerLog) where
  push s serial payload :=
    let (answer, owners) := lines.push s.1 serial payload
    (answer, owners, s.2 ++ [(serial, .push payload)])
  close s serial :=
    let (taken, owners) := lines.close s.1 serial
    (taken, owners, s.2 ++ [(serial, .close)])

/-! ## Requests -/

namespace Request

variable {target id : String} {body : Bytes}

theorem identifier_eq {segment : String} (h : Percent.decode? segment = some id) :
    identifier segment = .ok id := by
  rw [identifier, h]

theorem command_presence (h : Resource.Names target .presence id) :
    (Request.mk "GET" target body).command = .ok (.presence id) := by
  obtain ⟨segment, htarget, hid⟩ := h
  simp only [command, htarget, reads, allow, identifier_eq hid]
  rfl

theorem command_disconnect (h : Resource.Names target .connection id) :
    (Request.mk "DELETE" target body).command = .ok (.disconnect id) := by
  obtain ⟨segment, htarget, hid⟩ := h
  simp only [command, htarget, allow, identifier_eq hid]
  rfl

theorem command_push (h : Resource.Names target .payload id) (hbody : body.length ≤ maxPayload) :
    (Request.mk "POST" target body).command = .ok (.push id body) := by
  obtain ⟨segment, htarget, hid⟩ := h
  simp only [command, htarget, allow, identifier_eq hid]
  exact if_neg (Nat.not_lt.mpr hbody)

theorem command_listing (h : Resource.ofTarget? target = some .connections) :
    (Request.mk "GET" target body).command = .ok .listing := by
  simp only [command, h, reads, allow]
  rfl

theorem command_health (h : Resource.ofTarget? target = some .health) :
    (Request.mk "GET" target body).command = .ok .health := by
  simp only [command, h, reads, allow]
  rfl

/-- Only one method disconnects. -/
theorem method_of_disconnect {r : Request} (h : r.command = .ok (.disconnect id)) :
    r.method = "DELETE" := by
  unfold command at h
  split at h
  · cases h
  · obtain ⟨_, -, h⟩ := bind_eq_ok_iff.mp h
    obtain ⟨_, -, h⟩ := bind_eq_ok_iff.mp h
    cases h
  · obtain ⟨_, -, h⟩ := bind_eq_ok_iff.mp h
    obtain ⟨_, -, h⟩ := bind_eq_ok_iff.mp h
    split at h <;> cases h
  · obtain ⟨_, hallow, -⟩ := bind_eq_ok_iff.mp h
    by_cases hmethod : r.method = "DELETE"
    · exact hmethod
    · simp [allow, hmethod] at hallow
  · obtain ⟨_, -, h⟩ := bind_eq_ok_iff.mp h
    cases h
  · obtain ⟨_, -, h⟩ := bind_eq_ok_iff.mp h
    cases h

end Request

namespace ControlPlane

variable {σ : Type} {lines : Lines σ} {c : ControlPlane σ} {now : Nat} {r : Request}

theorem respond_eq {command : Command} (hc : r.command = .ok command) (hr : r.method ≠ "HEAD") :
    c.respond lines now r = c.perform lines now command := by
  simp only [respond, hc, if_neg hr]

theorem push_registry (id : String) (payload : Bytes) :
    (c.push lines id payload).2.registry = c.registry := by
  unfold push
  split
  · rfl
  · split <;> rfl

/-- A request that does not disconnect leaves the registry as it is. -/
theorem respond_registry (h : r.method ≠ "DELETE") :
    (c.respond lines now r).2.registry = c.registry := by
  have hdone : ∀ command, r.command = .ok command →
      (c.perform lines now command).2.registry = c.registry := by
    intro command hc
    cases command with
    | disconnect id => exact absurd (Request.method_of_disconnect hc) h
    | push id payload => exact push_registry id payload
    | presence | listing | health => rfl
  unfold respond
  cases hc : r.command with
  | error refusal => rfl
  | ok command => exact hdone command hc

section Answers

variable {target id : String} {body : Bytes}

theorem respond_listing (h : Resource.ofTarget? target = some .connections) :
    c.respond lines now ⟨"GET", target, body⟩ =
      (⟨200, listingText now c.registry.directory⟩, c) :=
  respond_eq (Request.command_listing h) (by decide : "GET" ≠ "HEAD")

theorem respond_health (h : Resource.ofTarget? target = some .health) :
    c.respond lines now ⟨"GET", target, body⟩ =
      (⟨200, Json.printRecord [("status", Json.quote "ok"),
        ("connections", toString c.registry.directory.size)]⟩, c) :=
  respond_eq (Request.command_health h) (by decide : "GET" ≠ "HEAD")

theorem respond_presence (h : Resource.Names target .presence id) :
    c.respond lines now ⟨"GET", target, body⟩ =
      (⟨200, Json.printRecord [("connected", truthText (c.isConnected id))]⟩, c) :=
  respond_eq (Request.command_presence h) (by decide : "GET" ≠ "HEAD")

theorem respond_disconnect (h : Resource.Names target .connection id) :
    c.respond lines now ⟨"DELETE", target, body⟩ =
      (⟨200, Json.printRecord [("disconnected", truthText (c.disconnect lines id).1)]⟩,
        (c.disconnect lines id).2) :=
  respond_eq (Request.command_disconnect h) (by decide : "DELETE" ≠ "HEAD")

theorem respond_absent (h : Resource.Names target .payload id)
    (hbody : body.length ≤ Request.maxPayload) (hid : c.registry.directory.find? id = none) :
    c.respond lines now ⟨"POST", target, body⟩ =
      (⟨200, Json.printRecord [("ack", Json.quote "No active connection")]⟩, c) := by
  rw [respond_eq (Request.command_push h hbody) (by decide : "POST" ≠ "HEAD"), perform, push, hid]
  rfl

end Answers

/-- What a disconnection takes away, and whom it asks to close. -/
theorem disconnect_logged (lines : Lines σ) (c : ControlPlane (σ × OwnerLog)) (id : String) :
    let found := c.registry.directory.find? id
    (c.disconnect lines.logged id).1 = found.isSome ∧
      (c.disconnect lines.logged id).2.registry.directory = c.registry.directory.remove id ∧
      (c.disconnect lines.logged id).2.owners.2 =
        c.owners.2 ++ (found.map fun handle => (handle.serial, .close)).toList := by
  intro found
  have hfound : found = c.registry.directory.find? id := rfl
  unfold disconnect Registry.remove
  rw [← hfound]
  cases found with
  | none => exact ⟨rfl, rfl, (List.append_nil _).symm⟩
  | some handle => exact ⟨rfl, rfl, rfl⟩

/-- **The views of the control plane agree.** In any state, however it was reached, and whatever
the owners answer:

- every identifier can be named in a target;
- the listing has one item for each entry, with what belongs to it, in the order of the octets of
  the identifiers, and the number that is shown is its length;
- somebody is present just if listed, and just if there is an entry;
- a disconnection answers whether somebody was listed. It takes that item away and leaves the
  others, and asks the owner of that entry to close, and nobody else;
- a payload for somebody who is not listed is answered and reaches nobody;
- no `GET` and no `POST` changes the listing.

The clock and the size of the directory are numbers of 64 bits. -/
theorem views_agree (lines : Lines σ) (c : ControlPlane (σ × OwnerLog)) (hnow : now < 2 ^ 64)
    (hsize : c.registry.directory.size < 2 ^ 64) :
    let listed := items now c.registry.directory
    let ids := listed.map Item.id
    let ask := fun method target body => c.respond lines.logged now ⟨method, target, body⟩
    (∀ id, Resource.Names (Resource.userTarget id "connected") .presence id ∧
      Resource.Names (Resource.userTarget id "payload") .payload id ∧
      Resource.Names (Resource.userTarget id "connection") .connection id) ∧
    ((∀ target body, Resource.ofTarget? target = some .connections →
        (ask "GET" target body).1.Shows
          (.object [("connections", .array (listed.map Item.value))])) ∧
      (∀ i, i ∈ listed ↔ ∃ handle, c.registry.directory.find? i.id = some handle ∧
        i.remote = handle.remote.text ∧ i.seconds = now - handle.since) ∧
      ids.Pairwise fun a b => Utf8.encode a < Utf8.encode b) ∧
    (∀ target body, Resource.ofTarget? target = some .health →
      (ask "GET" target body).1.Shows
        (.object [("connections", .number (.integer listed.length)), ("status", .string "ok")])) ∧
    (∀ id target body, Resource.Names target .presence id →
      ∃ b, (ask "GET" target body).1.Shows (.object [("connected", .bool b)]) ∧
        (b = true ↔ id ∈ ids) ∧
        (b = true ↔ ∃ handle, c.registry.directory.find? id = some handle)) ∧
    (∀ id target body, Resource.Names target .connection id →
      ∃ b, (ask "DELETE" target body).1.Shows (.object [("disconnected", .bool b)]) ∧
        (b = true ↔ id ∈ ids) ∧
        (∀ k, (ask "DELETE" target body).2.registry.directory.find? k =
          if id = k then none else c.registry.directory.find? k) ∧
        items now (ask "DELETE" target body).2.registry.directory =
          (listed.filter fun i => i.id ≠ id) ∧
        (ask "DELETE" target body).2.owners.2 = c.owners.2 ++
          ((c.registry.directory.find? id).map fun handle => (handle.serial, .close)).toList) ∧
    (∀ id target body, Resource.Names target .payload id → body.length ≤ Request.maxPayload →
      id ∉ ids →
      (ask "POST" target body).1.Shows (.object [("ack", .string "No active connection")]) ∧
        (ask "POST" target body).2 = c) ∧
    ∀ r : Request, r.method = "GET" ∨ r.method = "POST" →
      (c.respond lines.logged now r).2.registry = c.registry := by
  intro listed ids ask
  have hfound : ∀ id, (c.registry.directory.find? id).isSome = true ↔ id ∈ ids :=
    fun id => mem_ids.symm
  refine ⟨Resource.names_userTarget, ⟨fun target body h => ?_, fun i => mem_items, ids_increasing⟩,
    fun target body h => ?_, fun id target body h => ?_, fun id target body h => ?_,
    fun id target body h hbody hid => ?_, fun r hr => ?_⟩
  · change (c.respond lines.logged now ⟨"GET", target, body⟩).1.Shows _
    rw [respond_listing h]
    exact ⟨rfl, json?_listing hnow _⟩
  · have hlength : listed.length = c.registry.directory.size := length_items
    change (c.respond lines.logged now ⟨"GET", target, body⟩).1.Shows _
    rw [respond_health h, hlength]
    exact ⟨rfl, json?_health hsize⟩
  · change ∃ b, (c.respond lines.logged now ⟨"GET", target, body⟩).1.Shows _ ∧ _
    rw [respond_presence h]
    exact ⟨_, ⟨rfl, json?_bool "connected" (c.isConnected id)⟩, hfound id,
      Option.isSome_iff_exists⟩
  · obtain ⟨hanswer, hdirectory, hlog⟩ := disconnect_logged lines c id
    have hask : ask "DELETE" target body = _ := respond_disconnect h
    rw [hask]
    refine ⟨_, ⟨rfl, json?_bool "disconnected" (c.disconnect lines.logged id).1⟩, ?_, fun k => ?_,
      ?_, hlog⟩
    · rw [hanswer]
      exact hfound id
    · exact (congrArg (Directory.find? · k) hdirectory).trans (Directory.find?_remove _ _ _)
    · exact (congrArg (items now) hdirectory).trans (items_remove id)
  · have hnone : c.registry.directory.find? id = none :=
      Option.not_isSome_iff_eq_none.mp fun hsome => hid ((hfound id).mp hsome)
    have hask : ask "POST" target body = _ := respond_absent h hbody hnone
    rw [hask]
    exact ⟨⟨rfl, json?_ack 200 _⟩, rfl⟩
  · exact respond_registry (by rcases hr with h | h <;> rw [h] <;> decide)

/-! ## Two entries -/

namespace Sample

/-- The address of the clients. -/
def remote : SocketAddr := ⟨.v4 ⟨127, 0, 0, 1⟩, 4000⟩

/-- A control plane with two entries, one under an identifier that has to be encoded. -/
def plane : ControlPlane (BenchOwners × OwnerLog) :=
  ⟨{ Registry.empty with
      directory := (Directory.empty.add "u/1" ⟨7, remote, 100⟩).add "u2" ⟨8, remote, 90⟩ },
    ([], []), 0⟩

theorem find?_plane : plane.registry.directory.find? "u/1" = some ⟨7, remote, 100⟩ := by
  rw [plane, Directory.find?_add, if_neg (by decide), Directory.find?_add, if_pos rfl]

theorem names_plane : Resource.Names "/v1/users/u%2f1/connection" .connection "u/1" :=
  (Resource.names_userTarget "u/1").2.2

end Sample

theorem views_agree_encoded :
    (Sample.plane.respond BenchOwners.lines.logged 105
        ⟨"DELETE", "/v1/users/u%2f1/connection", []⟩).1.Shows
      (.object [("disconnected", .bool true)]) ∧
    (Sample.plane.respond BenchOwners.lines.logged 105
        ⟨"DELETE", "/v1/users/u%2f1/connection", []⟩).2.owners.2 = [(7, .close)] := by
  obtain ⟨-, -, -, -, hdisconnect, -⟩ :=
    views_agree BenchOwners.lines Sample.plane (by decide : 105 < 2 ^ 64) (by decide)
  obtain ⟨b, hshows, hlisted, -, -, hlog⟩ := hdisconnect "u/1" _ [] Sample.names_plane
  obtain rfl : b = true := hlisted.mpr (mem_ids.mpr (by rw [Sample.find?_plane]; rfl))
  exact ⟨hshows, by rw [hlog, Sample.find?_plane]; rfl⟩

end ControlPlane

end SealedGateway
