import SealedGateway.Proofs.Machine
import SealedGateway.Registry.Tasks

/-!
# Entries and the tasks that made them

- **`Step`**: one constructor for each thing that can happen.
- **`TaskInv`**: what the history says about tasks and entries. An entry is that of a task that did
  not release it, and serials tell tasks apart.
- **`EntryOf`**: what becomes of an entry once it is made, `EntryOf.step` its step.
- **`entry_lifetime`**: which entry there is after any history.
-/

namespace SealedGateway

namespace Directory

theorem belongs_iff {d : Directory} {id : String} {serial : UInt64} :
    d.belongs id serial = true ↔ ∃ handle, d.find? id = some handle ∧ handle.serial = serial := by
  unfold belongs
  cases d.find? id with
  | none => simp
  | some handle => simp

theorem find?_release (d : Directory) (id : String) (serial : UInt64) (k : String) :
    (d.release id serial).find? k =
      if d.belongs id serial = true ∧ id = k then none else d.find? k := by
  unfold release
  by_cases hb : d.belongs id serial = true
  · rw [if_pos hb, find?_remove]
    simp only [hb, true_and]
  · rw [if_neg hb, if_neg fun h => hb h.1]

theorem find?_release_none {d : Directory} {k : String} (h : d.find? k = none) (id : String)
    (serial : UInt64) : (d.release id serial).find? k = none := by
  rw [find?_release, h, ite_self]

/-- Who releases its own entry has none. -/
theorem find?_release_self {d : Directory} {id : String} {handle : Handle}
    (h : d.find? id = some handle) : (d.release id handle.serial).find? id = none := by
  rw [find?_release, if_pos ⟨belongs_iff.mpr ⟨handle, h, rfl⟩, rfl⟩]

end Directory

namespace Registry.Shared

/-! ## Acts -/

/-- What an act can do. -/
inductive Step (s : Shared) : Act → Shared → Prop where
  | arrived :
      Step s .arrive
        ⟨{ s.registry with nextSerial := s.registry.nextSerial + 1 },
          s.tasks ++ [.arrived s.registry.nextSerial]⟩
  | added {t : Nat} {id : String} {remote : SocketAddr} {since : Nat} {serial : UInt64}
      (ht : s.tasks[t]? = some (.arrived serial)) :
      Step s (.add t id remote since)
        ⟨s.registry.change (s.registry.directory.add id ⟨serial, remote, since⟩),
          s.tasks.set t (.registered id ⟨serial, remote, since⟩)⟩
  | released {t : Nat} {id : String} {handle : Handle}
      (ht : s.tasks[t]? = some (.registered id handle)) :
      Step s (.release t)
        ⟨s.registry.change (s.registry.directory.release id handle.serial),
          s.tasks.set t (.gone id handle)⟩
  | removed {id : String} :
      Step s (.remove id) ⟨s.registry.change (s.registry.directory.remove id), s.tasks⟩
  | lookedUp {id : String} : Step s (.lookUp id) s
  | displayed {position size : Nat} (hi : s.registry.unshown[position]? = some size) :
      Step s (.display position)
        ⟨{ s.registry with
            shown := some size
            unshown := s.registry.unshown.eraseIdx position }, s.tasks⟩

variable {s s' : Shared} {a : Act} {acts : List Act}

/-- An act that is possible does one of the things that `Step` lists. -/
theorem step_of_eq_some (h : s.step a = some s') : Step s a s' := by
  cases a with
  | arrive =>
    cases h
    exact .arrived
  | add t id remote since =>
    simp only [step] at h
    split at h
    case h_2 => cases h
    case h_1 serial ht =>
      cases h
      exact .added ht
  | release t =>
    simp only [step] at h
    split at h
    case h_2 => cases h
    case h_1 id handle ht =>
      cases h
      exact .released ht
  | remove id =>
    cases h
    exact .removed
  | lookUp id =>
    cases h
    exact .lookedUp
  | display position =>
    simp only [step, apply, Registry.step, Registry.display] at h
    cases hi : s.registry.unshown[position]? with
    | none =>
      rw [hi] at h
      cases h
    | some size =>
      rw [hi] at h
      cases h
      exact .displayed hi

/-! ## Tasks by number -/

section Tasks

variable {tasks : List Task} {t u : Nat} {task new : Task}

theorem getElem?_goOn (h : tasks[t]? = some task) (new : Task) (u : Nat) :
    (tasks.set t new)[u]? = if t = u then some new else tasks[u]? := by
  obtain ⟨hlt, -⟩ := List.getElem?_eq_some_iff.mp h
  rw [List.getElem?_set]
  simp only [hlt, ↓reduceIte]

/-- Another task does what it did. -/
theorem getElem?_goOn_other (h : tasks[t]? = some task) (hu : tasks[u]? = some new)
    (hne : task ≠ new) {next : Task} : (tasks.set t next)[u]? = some new := by
  rw [getElem?_goOn h, if_neg, hu]
  rintro rfl
  exact hne (Option.some.inj (h.symm.trans hu))

end Tasks

/-! ## The invariant -/

/-- What a history says about tasks and entries. -/
structure TaskInv (acts : List Act) (s : Shared) : Prop where
  arrivals : s.tasks.length = acts.countP Act.isArrival
  next : s.registry.nextSerial = UInt64.ofNat (s.tasks.length + 1)
  serial : ∀ (t : Nat) (task : Task), s.tasks[t]? = some task → task.serial = UInt64.ofNat (t + 1)
  owned : ∀ id handle, s.find? id = some handle →
    ∃ t : Nat, s.tasks[t]? = some (.registered id handle)
  added : ∀ (t : Nat) id handle, s.tasks[t]? = some (.registered id handle) →
    ∃ remote since, .add t id remote since ∈ acts
  gone : ∀ t, .release t ∈ acts → ∃ id handle, s.tasks[t]? = some (.gone id handle)

namespace TaskInv

theorem start : TaskInv [] start := by
  refine ⟨rfl, rfl, nofun, fun id handle h => ?_, nofun, nofun⟩
  simp [find?, Shared.start, Registry.empty, Directory.find?, Directory.empty] at h

/-- What neither tells of tasks nor makes an entry. -/
theorem of_tasks (h : TaskInv acts s) (htasks : s'.tasks = s.tasks)
    (hnext : s'.registry.nextSerial = s.registry.nextSerial)
    (hentry : ∀ id handle, s'.find? id = some handle → s.find? id = some handle)
    (hcount : ¬ a.isArrival) (ha : ∀ t, a ≠ .release t) : TaskInv (acts ++ [a]) s' := by
  refine ⟨?_, ?_, ?_, fun id handle hid => ?_, fun t id handle ht => ?_, fun t ht => ?_⟩
  · rw [htasks, h.arrivals, List.countP_append, List.countP_cons_of_neg hcount]
    rfl
  · rw [hnext, htasks]
    exact h.next
  · rw [htasks]
    exact h.serial
  · rw [htasks]
    exact h.owned id handle (hentry id handle hid)
  · obtain ⟨remote, since, hmem⟩ := h.added t id handle (htasks ▸ ht)
    exact ⟨remote, since, List.mem_append_left _ hmem⟩
  · rw [htasks]
    rcases List.mem_append.mp ht with ht | ht
    · exact h.gone t ht
    · exact absurd (List.mem_singleton.mp ht).symm (ha t)

theorem arrived (h : TaskInv acts s) :
    TaskInv (acts ++ [.arrive])
      ⟨{ s.registry with nextSerial := s.registry.nextSerial + 1 },
        s.tasks ++ [.arrived s.registry.nextSerial]⟩ := by
  refine ⟨?_, ?_, fun t task ht => ?_, fun id handle hid => ?_, fun t id handle ht => ?_,
    fun t ht => ?_⟩
  · rw [List.length_append, h.arrivals, List.countP_append]
    rfl
  · change s.registry.nextSerial + 1 = _
    rw [h.next, List.length_append, List.length_singleton, UInt64.ofNat_add (s.tasks.length + 1)]
    rfl
  · rcases Machine.eq_or_of_newcomer ht with ht | ⟨rfl, rfl⟩
    · exact h.serial t task ht
    · exact h.next
  · obtain ⟨t, ht⟩ := h.owned id handle hid
    exact ⟨t, Machine.getElem?_newcomer ht⟩
  · rcases Machine.eq_or_of_newcomer ht with ht | ⟨-, heq⟩
    · obtain ⟨remote, since, hmem⟩ := h.added t id handle ht
      exact ⟨remote, since, List.mem_append_left _ hmem⟩
    · cases heq
  · obtain ⟨id, handle, hgone⟩ := h.gone t (by simpa using ht)
    exact ⟨id, handle, Machine.getElem?_newcomer hgone⟩

theorem added_step (h : TaskInv acts s) {t : Nat} {id : String} {remote : SocketAddr}
    {since : Nat} {serial : UInt64} (ht : s.tasks[t]? = some (.arrived serial)) :
    TaskInv (acts ++ [.add t id remote since])
      ⟨s.registry.change (s.registry.directory.add id ⟨serial, remote, since⟩),
        s.tasks.set t (.registered id ⟨serial, remote, since⟩)⟩ := by
  have hset := getElem?_goOn ht (.registered id ⟨serial, remote, since⟩)
  refine ⟨?_, ?_, fun u task hu => ?_, fun k handle hk => ?_, fun u k handle hu => ?_,
    fun u hu => ?_⟩
  · rw [List.length_set, h.arrivals, List.countP_append]
    rfl
  · rw [List.length_set]
    exact h.next
  · rw [hset] at hu
    split at hu
    · next heq =>
      subst heq
      cases hu
      exact h.serial t (.arrived serial) ht
    · exact h.serial u task hu
  · change (s.registry.directory.add id ⟨serial, remote, since⟩).find? k = some handle at hk
    rw [Directory.find?_add] at hk
    split at hk
    · next heq =>
      subst heq
      cases hk
      exact ⟨t, by rw [hset, if_pos rfl]⟩
    · obtain ⟨u, hu⟩ := h.owned k handle hk
      exact ⟨u, getElem?_goOn_other ht hu nofun⟩
  · rw [hset] at hu
    split at hu
    · next heq =>
      subst heq
      cases hu
      exact ⟨remote, since, List.mem_append_right _ List.mem_cons_self⟩
    · obtain ⟨remote', since', hmem⟩ := h.added u k handle hu
      exact ⟨remote', since', List.mem_append_left _ hmem⟩
  · obtain ⟨k, handle, hgone⟩ := h.gone u (by simpa using hu)
    exact ⟨k, handle, getElem?_goOn_other ht hgone nofun⟩

theorem released_step (h : TaskInv acts s) {t : Nat} {id : String} {handle : Handle}
    (ht : s.tasks[t]? = some (.registered id handle)) :
    TaskInv (acts ++ [.release t])
      ⟨s.registry.change (s.registry.directory.release id handle.serial),
        s.tasks.set t (.gone id handle)⟩ := by
  have hset := getElem?_goOn ht (.gone id handle)
  refine ⟨?_, ?_, fun u task hu => ?_, fun k other hk => ?_, fun u k other hu => ?_,
    fun u hu => ?_⟩
  · rw [List.length_set, h.arrivals, List.countP_append]
    rfl
  · rw [List.length_set]
    exact h.next
  · rw [hset] at hu
    split at hu
    · next heq =>
      subst heq
      cases hu
      exact h.serial t (.registered id handle) ht
    · exact h.serial u task hu
  · change (s.registry.directory.release id handle.serial).find? k = some other at hk
    rw [Directory.find?_release] at hk
    split at hk
    · cases hk
    · next hkept =>
      obtain ⟨u, hu⟩ := h.owned k other hk
      refine ⟨u, getElem?_goOn_other ht hu fun heq => hkept ?_⟩
      -- An entry that survives is not the one that the task has made.
      obtain ⟨rfl, rfl⟩ := Task.registered.inj heq
      exact ⟨Directory.belongs_iff.mpr ⟨handle, hk, rfl⟩, rfl⟩
  · rw [hset] at hu
    split at hu
    · cases hu
    · obtain ⟨remote, since, hmem⟩ := h.added u k other hu
      exact ⟨remote, since, List.mem_append_left _ hmem⟩
  · by_cases heq : t = u
    · exact ⟨id, handle, by rw [hset, if_pos heq]⟩
    · obtain ⟨k, other, hgone⟩ := h.gone u (by simpa [Ne.symm heq] using hu)
      exact ⟨k, other, by rw [hset, if_neg heq, hgone]⟩

theorem step (h : TaskInv acts s) (hs : Step s a s') : TaskInv (acts ++ [a]) s' := by
  cases hs with
  | arrived => exact h.arrived
  | added ht => exact h.added_step ht
  | released ht => exact h.released_step ht
  | @removed id =>
    refine h.of_tasks rfl rfl (fun k handle hk => ?_) nofun nofun
    change (s.registry.directory.remove id).find? k = some handle at hk
    rw [Directory.find?_remove] at hk
    split at hk
    · cases hk
    · exact hk
  | lookedUp => exact h.of_tasks rfl rfl (fun _ _ hk => hk) nofun nofun
  | displayed hi => exact h.of_tasks rfl rfl (fun _ _ hk => hk) nofun nofun

theorem run (h : Shared.start.run? acts = some s) : TaskInv acts s :=
  Machine.run_induction (f := Shared.step) start
    (fun _ _ _ _ _ ih hstep => ih.step (step_of_eq_some hstep)) h

end TaskInv

/-- Serials tell tasks apart as long as they do not run out. -/
theorem TaskInv.eq_of_serial (h : TaskInv acts s) (hfew : acts.countP Act.isArrival < UInt64.size)
    {t u : Nat} {task task' : Task} (ht : s.tasks[t]? = some task) (hu : s.tasks[u]? = some task')
    (heq : task.serial = task'.serial) : t = u := by
  obtain ⟨htlt, -⟩ := List.getElem?_eq_some_iff.mp ht
  obtain ⟨hult, -⟩ := List.getElem?_eq_some_iff.mp hu
  have hlength := h.arrivals
  rw [h.serial t task ht, h.serial u task' hu] at heq
  have hnat := congrArg UInt64.toNat heq
  rw [UInt64.toNat_ofNat_of_lt' (by omega), UInt64.toNat_ofNat_of_lt' (by omega)] at hnat
  omega

/-! ## Entries -/

/-- The serial of an entry is that of nobody but the task that made it. -/
theorem TaskInv.entry_eq (h : TaskInv acts s) (hfew : acts.countP Act.isArrival < UInt64.size)
    {t : Nat} {id : String} {handle other : Handle}
    (ht : s.tasks[t]? = some (.registered id handle)) {k : String} (hk : s.find? k = some other)
    (hserial : other.serial = handle.serial) : k = id ∧ other = handle := by
  obtain ⟨u, hu⟩ := h.owned k other hk
  obtain rfl : u = t := h.eq_of_serial hfew hu ht hserial
  exact Task.registered.inj (Option.some.inj (hu.symm.trans ht))

/-- A task that releases its entry leaves those of the others alone. -/
theorem TaskInv.find?_release_other (h : TaskInv acts s)
    (hfew : acts.countP Act.isArrival < UInt64.size) {t : Nat} {id : String}
    {handle other : Handle} (ht : s.tasks[t]? = some (.registered id handle)) {k : String}
    (hk : s.find? k = some other) (hne : other ≠ handle) :
    (s.registry.directory.release id handle.serial).find? k = some other := by
  rw [Directory.find?_release, if_neg]
  · exact hk
  rintro ⟨hbelongs, rfl⟩
  obtain ⟨found, hfound, hserial⟩ := Directory.belongs_iff.mp hbelongs
  obtain ⟨-, rfl⟩ := h.entry_eq hfew ht hfound hserial
  exact hne (Option.some.inj (hk.symm.trans hfound))

/-- What has become of a task and its entry with the acts that followed: the entry is there until
the task releases it or it is removed. -/
structure EntryOf (t : Nat) (id : String) (handle : Handle) (after : List Act) (s : Shared) :
    Prop where
  task : s.tasks[t]? =
    some (if .release t ∈ after then .gone id handle else .registered id handle)
  entry : s.find? id = if .release t ∈ after ∨ .remove id ∈ after then none else some handle

namespace EntryOf

variable {t : Nat} {id : String} {handle : Handle} {after : List Act}

/-- What is neither its release nor its removal leaves an entry as it is. -/
theorem of_same (h : EntryOf t id handle after s) (htask : s'.tasks[t]? = s.tasks[t]?)
    (hentry : s'.find? id = s.find? id) (hrelease : a ≠ .release t) (hremove : a ≠ .remove id) :
    EntryOf t id handle (after ++ [a]) s' := by
  have hmem {b : Act} (hb : a ≠ b) : b ∈ after ++ [a] ↔ b ∈ after := by simp [hb.symm]
  refine ⟨?_, ?_⟩
  · simp only [hmem hrelease]
    exact htask.trans h.task
  · simp only [hmem hrelease, hmem hremove]
    exact hentry.trans h.entry

theorem released_self (h : EntryOf t id handle after s) {k : String} {other : Handle}
    (ht : s.tasks[t]? = some (.registered k other)) :
    EntryOf t id handle (after ++ [.release t])
      ⟨s.registry.change (s.registry.directory.release k other.serial),
        s.tasks.set t (.gone k other)⟩ := by
  have htask := ht.symm.trans h.task
  have hentry := h.entry
  split at htask
  · cases htask
  obtain ⟨rfl, rfl⟩ := Task.registered.inj (Option.some.inj htask)
  have hmem : Act.release t ∈ after ++ [.release t] :=
    List.mem_append_right _ List.mem_cons_self
  refine ⟨by rw [getElem?_goOn ht, if_pos rfl, if_pos hmem], ?_⟩
  rw [if_pos (.inl hmem)]
  change (s.registry.directory.release k other.serial).find? k = none
  split at hentry
  · exact Directory.find?_release_none hentry _ _
  · exact Directory.find?_release_self hentry

theorem released_other (h : EntryOf t id handle after s) (hinv : TaskInv acts s)
    (hfew : acts.countP Act.isArrival < UInt64.size) {v : Nat} {k : String} {other : Handle}
    (hv : s.tasks[v]? = some (.registered k other)) (hne : v ≠ t) :
    EntryOf t id handle (after ++ [.release v])
      ⟨s.registry.change (s.registry.directory.release k other.serial),
        s.tasks.set v (.gone k other)⟩ := by
  refine h.of_same (by rw [getElem?_goOn hv, if_neg hne]) ?_
    (fun heq => hne (Act.release.inj heq)) nofun
  change (s.registry.directory.release k other.serial).find? id = s.find? id
  cases he : s.find? id with
  | none => exact Directory.find?_release_none he _ _
  | some found =>
    -- The handles differ because the serials of the two tasks do.
    refine hinv.find?_release_other hfew hv he ?_
    rintro rfl
    have hentry := he.symm.trans h.entry
    split at hentry
    · cases hentry
    obtain rfl := Option.some.inj hentry
    refine hne (hinv.eq_of_serial hfew hv h.task ?_)
    split <;> rfl

theorem step (h : EntryOf t id handle after s) (hinv : TaskInv acts s)
    (hfew : acts.countP Act.isArrival < UInt64.size) (hs : Step s a s')
    (hother : ∀ u remote since, a ≠ .add u id remote since) :
    EntryOf t id handle (after ++ [a]) s' := by
  cases hs with
  | arrived =>
    exact h.of_same ((Machine.getElem?_newcomer h.task).trans h.task.symm) rfl nofun nofun
  | @added v k remote since serial hv =>
    have hne : k ≠ id := by
      rintro rfl
      exact hother v remote since rfl
    refine h.of_same ?_ ((Directory.find?_add _ _ _ _).trans (if_neg hne)) nofun nofun
    rw [h.task]
    refine getElem?_goOn_other hv h.task ?_
    split <;> exact nofun
  | @released v k other hv =>
    by_cases heq : v = t
    · subst heq
      exact h.released_self hv
    · exact h.released_other hinv hfew hv heq
  | @removed k =>
    have hfind : Shared.find? ⟨s.registry.change (s.registry.directory.remove k), s.tasks⟩ id =
        if k = id then none else s.find? id := Directory.find?_remove _ _ _
    by_cases heq : k = id
    · subst heq
      have hmem : Act.remove k ∈ after ++ [.remove k] :=
        List.mem_append_right _ List.mem_cons_self
      refine ⟨?_, by rw [hfind, if_pos rfl, if_pos (.inr hmem)]⟩
      simp only [List.mem_append, List.mem_singleton, reduceCtorEq, or_false]
      exact h.task
    · exact h.of_same rfl (hfind.trans (if_neg heq)) nofun fun h' => heq (Act.remove.inj h')
  | lookedUp => exact h.of_same rfl rfl nofun nofun
  | displayed hi => exact h.of_same rfl rfl nofun nofun

/-- As long as nobody else makes an entry under the identifier, acts do to the entry what `EntryOf`
says. -/
theorem run {before : List Act} {r : Shared} (hr : Shared.start.run? before = some r)
    (ht : r.tasks[t]? = some (.registered id handle)) (he : r.find? id = some handle)
    (h : r.run? after = some s) (hother : ∀ u remote since, .add u id remote since ∉ after)
    (hfew : (before ++ after).countP Act.isArrival < UInt64.size) :
    EntryOf t id handle after s := by
  refine Machine.run_induction (f := Shared.step)
    (motive := fun es u => (∀ v remote since, .add v id remote since ∉ es) →
      (before ++ es).countP Act.isArrival < UInt64.size → EntryOf t id handle es u)
    (fun _ _ => ⟨by simpa using ht, by simpa using he⟩) ?_ h hother hfew
  intro es a u u' hes ih hstep hother hfew
  have hinv : TaskInv (before ++ es) u := .run (Machine.run_append_iff.mpr ⟨r, hr, hes⟩)
  have hfewer : (before ++ es).countP Act.isArrival < UInt64.size := by
    rw [← List.append_assoc, List.countP_append] at hfew
    omega
  have hentry : EntryOf t id handle es u :=
    ih (fun v remote since hmem => hother v remote since (List.mem_append_left _ hmem)) hfewer
  refine hentry.step hinv hfewer (step_of_eq_some hstep) ?_
  rintro v remote since rfl
  exact hother v remote since (List.mem_append_right _ List.mem_cons_self)

end EntryOf

/-- **The lifetime of an entry.** After any history in which the serials did not run out, an
identifier under which nobody made an entry has none. Else the entry is the one of the task that
made the latest one under it, unless that task released it since, or it was removed since: then
there is none. So a task that releases its entry learns whether the entry was still its own, it
leaves all others alone, and when every task that made an entry has released it there are none. -/
theorem entry_lifetime (h : start.run? acts = some s)
    (hfew : acts.countP Act.isArrival < UInt64.size) :
    (∀ id, (∀ t remote since, .add t id remote since ∉ acts) → s.find? id = none) ∧
    (∀ before t id remote since after, acts = before ++ .add t id remote since :: after →
      (∀ u remote since, .add u id remote since ∉ after) →
      ∃ task, s.tasks[t]? = some task ∧ s.find? id =
        if .release t ∈ after ∨ .remove id ∈ after then none
        else some ⟨task.serial, remote, since⟩) ∧
    (∀ (t : Nat) id handle, s.tasks[t]? = some (.registered id handle) →
      ((s.registry.release id handle.serial).1 = true ↔ s.find? id = some handle) ∧
      ∀ k other, s.find? k = some other → other ≠ handle →
        (s.registry.release id handle.serial).2.directory.find? k = some other) ∧
    ((∀ t id remote since, .add t id remote since ∈ acts → .release t ∈ acts) →
      s.registry.directory.entries = []) := by
  have hinv : TaskInv acts s := .run h
  refine ⟨fun id hnone => ?_, fun before t id remote since after hsplit hother => ?_,
    fun t id handle ht => ⟨⟨fun hown => ?_, fun he => ?_⟩, fun k other hk hne => ?_⟩,
    fun hall => ?_⟩
  · cases he : s.find? id with
    | none => rfl
    | some handle =>
      obtain ⟨t, ht⟩ := hinv.owned id handle he
      obtain ⟨remote, since, hmem⟩ := hinv.added t id handle ht
      exact absurd hmem (hnone t remote since)
  · subst hsplit
    obtain ⟨q, hq, hrest⟩ := Machine.run_append_iff.mp h
    obtain ⟨r, hadd, hafter⟩ := Machine.run_cons_iff.mp hrest
    have hr : start.run? (before ++ [.add t id remote since]) = some r :=
      Machine.run_concat_iff.mpr ⟨q, hq, hadd⟩
    rw [List.append_cons] at hfew
    cases step_of_eq_some hadd with
    | @added _ _ _ _ serial ht =>
      have hfind : Shared.find?
          ⟨q.registry.change (q.registry.directory.add id ⟨serial, remote, since⟩),
            q.tasks.set t (.registered id ⟨serial, remote, since⟩)⟩ id =
            some ⟨serial, remote, since⟩ :=
        (Directory.find?_add _ _ _ _).trans (if_pos rfl)
      obtain ⟨htask, hentry⟩ : EntryOf t id _ after s :=
        .run hr (by rw [getElem?_goOn ht, if_pos rfl]) hfind hafter hother hfew
      refine ⟨_, htask, ?_⟩
      rw [apply_ite Task.serial]
      simpa only [Task.serial, ite_self] using hentry
  · obtain ⟨found, hfound, hserial⟩ := Directory.belongs_iff.mp hown
    obtain ⟨-, rfl⟩ := hinv.entry_eq hfew ht hfound hserial
    exact hfound
  · exact Directory.belongs_iff.mpr ⟨handle, he, rfl⟩
  · exact hinv.find?_release_other hfew ht hk hne
  · refine List.eq_nil_iff_forall_not_mem.mpr fun entry hentry => ?_
    obtain ⟨t, ht⟩ := hinv.owned _ _ ((Directory.mem_entries _ _ _).mp hentry)
    obtain ⟨remote, since, hmem⟩ := hinv.added t _ _ ht
    obtain ⟨id, handle, hgone⟩ := hinv.gone t (hall t _ remote since hmem)
    cases ht.symm.trans hgone

namespace Sample

def address : SocketAddr := ⟨.v4 ⟨127, 0, 0, 1⟩, 4000⟩

/-- A client reconnects under its identifier before the task of its old connection is done. -/
def reconnect : List Act :=
  [.arrive, .add 0 "c1" address 0, .arrive, .add 1 "c1" address 5, .release 0, .lookUp "c1"]

end Sample

/-- The older task does not take the entry of the newer one with it, and the newer one does. -/
theorem entry_lifetime_reconnect :
    (∃ s, start.run? Sample.reconnect = some s ∧
      s.find? "c1" = some ⟨2, Sample.address, 5⟩ ∧ (s.registry.release "c1" 2).1 = true) ∧
    ∃ s, start.run? (Sample.reconnect ++ [.release 1]) = some s ∧
      s.registry.directory.entries = [] := by
  constructor
  · obtain ⟨s, hs, htask⟩ : ∃ s, start.run? Sample.reconnect = some s ∧
        s.tasks[1]? = some (.registered "c1" ⟨2, Sample.address, 5⟩) := ⟨_, rfl, rfl⟩
    obtain ⟨-, hlatest, hrelease, -⟩ := entry_lifetime hs (by decide)
    obtain ⟨task, htask', hentry⟩ :=
      hlatest (Sample.reconnect.take 3) 1 "c1" Sample.address 5 (Sample.reconnect.drop 4) rfl
        (by simp [Sample.reconnect])
    obtain rfl := Option.some.inj (htask.symm.trans htask')
    have hc : ¬ (Act.release 1 ∈ Sample.reconnect.drop 4 ∨
      Act.remove "c1" ∈ Sample.reconnect.drop 4) := by decide
    rw [if_neg hc] at hentry
    exact ⟨s, hs, hentry, (hrelease 1 "c1" _ htask).1.mpr hentry⟩
  · obtain ⟨s, hs⟩ : ∃ s, start.run? (Sample.reconnect ++ [.release 1]) = some s := ⟨_, rfl⟩
    obtain ⟨-, -, -, hempty⟩ := entry_lifetime hs (by decide)
    refine ⟨s, hs, hempty fun t id remote since hmem => ?_⟩
    simp only [Sample.reconnect, List.cons_append, List.nil_append, List.mem_cons, reduceCtorEq,
      Act.add.injEq, List.not_mem_nil, or_false, false_or] at hmem
    rcases hmem with ⟨rfl, -⟩ | ⟨rfl, -⟩ <;> decide

end Registry.Shared

end SealedGateway
