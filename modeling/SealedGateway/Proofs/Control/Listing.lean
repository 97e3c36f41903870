import SealedGateway.Control.Http
import SealedGateway.Proofs.Json.Value
import SealedGateway.Proofs.Text.Order

/-!
# The listing of the directory

The entries of the directory as the control plane lists them, and as a client reads them. The
listing is in the order of the octets of the identifiers, it holds one item for each entry, and an
entry that is removed is missing from it and nothing else is.

- **`ControlPlane.items`**: what is listed, with **`mem_items`** and **`ids_increasing`**.
- **`items_remove`**: the listing without an identifier.
- **`Response.json?`**: a body as a client reads it, and what it finds in those of the control plane
  (**`json?_listing`**).
-/

namespace SealedGateway

/-! ## The order of the directory -/

namespace Directory

theorem entries_pairwise (d : Directory) : d.entries.Pairwise fun a b => a.1 < b.1 := by
  have hcompare : d.toList.Pairwise fun a b => compare a.1 b.1 = .lt :=
    Std.TreeMap.ordered_keys_toList
  exact hcompare.imp fun h => compareOfLessAndEq_eq_lt.mp h

/-- Removing an identifier takes its entry away, and leaves the others in their order. -/
theorem entries_remove (d : Directory) (id : String) :
    (d.remove id).entries = d.entries.filter fun e => e.1 ≠ id := by
  have hremoved := (d.remove id).entries_pairwise
  have hfiltered := d.entries_pairwise.filter fun e => decide (e.1 ≠ id)
  have hnodup : ∀ {l : List (String × Handle)}, l.Pairwise (fun a b => a.1 < b.1) → l.Nodup :=
    fun h => h.imp fun hlt heq => absurd (heq ▸ hlt) (String.lt_irrefl _)
  refine List.Perm.eq_of_pairwise (fun a b _ _ hab hba => absurd hab (String.lt_asymm hba)) hremoved
    hfiltered ((List.perm_ext_iff_of_nodup (hnodup hremoved) (hnodup hfiltered)).mpr ?_)
  rintro ⟨k, handle⟩
  rw [List.mem_filter, mem_entries, mem_entries, find?_remove]
  by_cases h : id = k
  · simp [h]
  · simp [h, Ne.symm h]

end Directory

/-! ## What a client reads -/

/-- A body as a client reads it. -/
def Response.json? (r : Response) : Option Json := Json.document? (Utf8.encode r.body)

/-- A client is shown a value. -/
def Response.Shows (r : Response) (v : Json) : Prop := r.status = 200 ∧ r.json? = some v

/-- An entry of the directory as it is listed. -/
structure Item where
  id : String
  remote : String
  /-- For how many seconds the connection has been there. -/
  seconds : Nat

/-- An item as it is read. -/
def Item.value (i : Item) : Json :=
  .object [("connected_secs", .number (.integer i.seconds)), ("id", .string i.id),
    ("remote", .string i.remote)]

namespace ControlPlane

variable {σ : Type} {now : Nat} {d : Directory}

/-- The item of an entry in the second `now`. -/
def item (now : Nat) (entry : String × Handle) : Item :=
  ⟨entry.1, entry.2.remote.text, now - entry.2.since⟩

/-- The items of all entries. -/
def items (now : Nat) (d : Directory) : List Item := d.entries.map (item now)

theorem mem_items {i : Item} :
    i ∈ items now d ↔ ∃ handle, d.find? i.id = some handle ∧ i.remote = handle.remote.text ∧
      i.seconds = now - handle.since := by
  obtain ⟨id, remote, seconds⟩ := i
  simp only [items, List.mem_map, item, Prod.exists, d.mem_entries, Item.mk.injEq]
  constructor
  · rintro ⟨k, handle, hk, rfl, rfl, rfl⟩
    exact ⟨handle, hk, rfl, rfl⟩
  · rintro ⟨handle, hk, rfl, rfl⟩
    exact ⟨id, handle, hk, rfl, rfl, rfl⟩

theorem mem_ids {id : String} : id ∈ (items now d).map Item.id ↔ (d.find? id).isSome = true := by
  rw [List.mem_map, Option.isSome_iff_exists]
  constructor
  · rintro ⟨i, hi, rfl⟩
    obtain ⟨handle, hfind, -⟩ := mem_items.mp hi
    exact ⟨handle, hfind⟩
  · rintro ⟨handle, hfind⟩
    exact ⟨item now (id, handle), mem_items.mpr ⟨handle, hfind, rfl, rfl⟩, rfl⟩

/-- The identifiers are listed in the order of their octets, each once. -/
theorem ids_increasing :
    ((items now d).map Item.id).Pairwise fun a b => Utf8.encode a < Utf8.encode b := by
  have hids : (items now d).map Item.id = d.entries.map Prod.fst := by
    rw [items, List.map_map]
    rfl
  rw [hids, List.pairwise_map]
  exact d.entries_pairwise.imp Utf8.encode_lt_encode

theorem length_items : (items now d).length = d.size := by
  rw [items, List.length_map]
  exact Std.TreeMap.length_toList

theorem items_remove (id : String) :
    items now (d.remove id) = (items now d).filter fun i => i.id ≠ id := by
  rw [items, Directory.entries_remove, items, List.filter_map]
  rfl

/-! ## Bodies -/

theorem json?_record (height : Nat) (p : Json.Part) (parts : List Json.Part)
    (h : ∀ q ∈ p :: parts, Json.Reads height q.text q.value) (hheight : height < Json.maxDepth)
    (status : Nat) :
    (Response.mk status (Json.printRecord ((p :: parts).map Json.Part.field))).json? =
      some (Json.ofMembers ((p :: parts).map Json.Part.member)) :=
  Json.document?_eq (Json.Reads.record p parts h) hheight

theorem reads_entryText (hnow : now < 2 ^ 64) (entry : String × Handle) :
    Json.Reads 1 (entryText now entry) (item now entry).value := by
  have hseconds : now - entry.2.since < 2 ^ 64 := by omega
  have hrecord : Json.Reads 1 _ _ := Json.Reads.record
    ⟨"id", Json.quote entry.1, .string entry.1⟩
    [⟨"remote", Json.quote entry.2.remote.text, .string entry.2.remote.text⟩,
      ⟨"connected_secs", toString (now - entry.2.since),
        .number (.integer (now - entry.2.since : Nat))⟩]
    (by simpa using ⟨.quote _, .quote _, .natural hseconds⟩)
  have hmembers : Json.ofMembers [("id", .string entry.1),
      ("remote", .string entry.2.remote.text),
      ("connected_secs", .number (.integer (now - entry.2.since : Nat)))] =
      (item now entry).value := by
    have hremote : ¬ "remote" < "id" := by decide
    have hsecs : "connected_secs" < "id" := by decide
    simp only [Json.ofMembers, List.foldl_cons, List.foldl_nil, Json.setMember, hremote, hsecs,
      ↓reduceIte, String.reduceEq, item, Item.value]
  exact hmembers ▸ hrecord

theorem json?_listing (hnow : now < 2 ^ 64) (d : Directory) :
    (Response.mk 200 (listingText now d)).json? =
      some (.object [("connections", .array ((items now d).map Item.value))]) := by
  have hitems : ∀ i ∈ d.entries.map fun e => (entryText now e, (item now e).value),
      Json.Reads 1 i.1 i.2 := by
    intro i hi
    obtain ⟨entry, -, rfl⟩ := List.mem_map.mp hi
    exact reads_entryText hnow entry
  have harray := Json.Reads.array hitems
  rw [List.map_map, List.map_map] at harray
  have hvalues : d.entries.map (Prod.snd ∘ fun e => (entryText now e, (item now e).value)) =
      (items now d).map Item.value := by
    rw [items, List.map_map]
    rfl
  rw [hvalues] at harray
  exact json?_record 2
    ⟨"connections", "[" ++ ",".intercalate (d.entries.map (entryText now)) ++ "]",
      .array ((items now d).map Item.value)⟩ [] (List.forall_mem_singleton.mpr harray) (by decide)
    200

theorem json?_bool (name : String) (b : Bool) :
    (Response.mk 200 (Json.printRecord [(name, truthText b)])).json? =
      some (.object [(name, .bool b)]) :=
  json?_record 0 ⟨name, truthText b, .bool b⟩ []
    (by simpa [truthText] using .bool b) (by decide) 200

theorem json?_ack (status : Nat) (text : String) :
    (Response.mk status (Json.printRecord [("ack", Json.quote text)])).json? =
      some (.object [("ack", .string text)]) :=
  json?_record 0 ⟨"ack", Json.quote text, .string text⟩ []
    (by simpa using .quote text) (by decide) status

theorem json?_health {n : Nat} (hn : n < 2 ^ 64) :
    (Response.mk 200 (Json.printRecord
        [("status", Json.quote "ok"), ("connections", toString n)])).json? =
      some (.object [("connections", .number (.integer n)), ("status", .string "ok")]) := by
  have hmembers : Json.ofMembers [("status", .string "ok"),
      ("connections", .number (.integer n))] =
      .object [("connections", .number (.integer n)), ("status", .string "ok")] := by
    have hlt : "connections" < "status" := by decide
    simp only [Json.ofMembers, List.foldl_cons, List.foldl_nil, Json.setMember, hlt, ↓reduceIte]
  rw [← hmembers]
  exact json?_record 0 ⟨"status", Json.quote "ok", .string "ok"⟩
    [⟨"connections", toString n, .number (.integer n)⟩]
    (by simpa using ⟨.quote _, .natural hn⟩) (by decide) 200

end ControlPlane

end SealedGateway
