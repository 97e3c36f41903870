import SealedGateway.Proofs.Gateway.Step
import SealedGateway.Proofs.Pool.Autoscale

/-!
# Which configurations can be run

A configuration is handed to a pool, whose queue and timer are made from it, and to connections,
each of which makes a queue of its own. Loading checks most of what they need, but not how long a
queue can be.

- **`Config.load_eq_ok_iff`**: what loading accepts.
- **`Config.Runs`**: what a pool and connections need.
- **`Config.runs_iff_of_load`**: an accepted configuration can be run just if both of its queues can
  be made, which no override decides.
-/

namespace SealedGateway

theorem Capacity.isValid_iff {n : Nat} : Capacity.isValid n = true ↔ 1 ≤ n ∧ n < 2 ^ 61 := by
  have hgreatest : Capacity.greatest = 2 ^ 61 - 1 := rfl
  rw [Capacity.isValid, Bool.and_eq_true, decide_eq_true_iff, decide_eq_true_iff, hgreatest]
  omega

/-- A pool of a size without a fault is made just if its queue can be. -/
theorem Pool.create_of_fault? {J : Type} {sizing : Sizing} (h : sizing.fault? = none) :
    Pool.create (J := J) sizing =
      if Capacity.isValid sizing.queueSize = true then .ok (.start sizing)
      else .error .queueTooLong := by
  unfold Pool.create
  rw [h]

namespace Config

variable {files : Files} {path : Option String} {o : Overrides} {file : ConfigFile} {c : Config}

theorem load_of_readFile (h : readFile files path = .ok file) :
    load files path o = ofFile file o := by
  rw [load, h]
  rfl

theorem ofFile_eq_ok_iff :
    ofFile file o = .ok c ↔ (resolve file o).pool.fault? = none ∧ resolve file o = c := by
  unfold ofFile
  dsimp only
  split
  · next fault hfault => simp [hfault]
  · next hfault => simp [hfault]

theorem ofFile_eq_error_iff {e : ConfigFault} :
    ofFile file o = .error e ↔ ∃ f, (resolve file o).pool.fault? = some f ∧ e = .badSizing f := by
  unfold ofFile
  dsimp only
  split
  · next fault hfault => simp [hfault, eq_comm]
  · next hfault => simp [hfault]

/-- Loading accepts the values of a file and the overrides if the pool has no fault. -/
theorem load_eq_ok_iff :
    load files path o = .ok c ↔ ∃ file, readFile files path = .ok file ∧
      (resolve file o).pool.fault? = none ∧ resolve file o = c := by
  constructor
  · intro h
    obtain ⟨file, hfile, hload⟩ := bind_eq_ok_iff.mp h
    exact ⟨file, hfile, ofFile_eq_ok_iff.mp hload⟩
  · rintro ⟨file, hfile, hload⟩
    exact (load_of_readFile hfile).trans (ofFile_eq_ok_iff.mpr hload)

/-! ## Running -/

/-- What a pool and connections need: workers and their bounds, a timer with a period, a session
that takes a message, and queues that can be made. -/
structure Runs (c : Config) : Prop where
  one_le_minWorkers : 1 ≤ c.pool.minWorkers
  minWorkers_le : c.pool.minWorkers ≤ c.pool.maxWorkers
  interval_ne_zero : c.pool.interval ≠ 0
  one_le_nonceLimit : 1 ≤ c.nonceLimit
  queue : Capacity.isValid c.pool.queueSize = true
  outbound : Capacity.isValid c.outboundBuffer = true

/-- What can be taken for granted of a configuration that was accepted. -/
theorem bounds_of_load (h : load files path o = .ok c) :
    1 ≤ c.pool.minWorkers ∧ c.pool.minWorkers ≤ c.pool.maxWorkers ∧ 1 ≤ c.pool.queueSize ∧
      c.pool.interval ≠ 0 ∧ 1 ≤ c.nonceLimit ∧ 1 ≤ c.outboundBuffer := by
  obtain ⟨file, -, hfault, rfl⟩ := load_eq_ok_iff.mp h
  obtain ⟨hmin, hmax, hqueue, hinterval⟩ := Sizing.fault?_eq_none_iff.mp hfault
  exact ⟨hmin, hmax, hqueue, Nat.one_le_iff_ne_zero.mp hinterval, Nat.le_max_right _ 1,
    Nat.le_max_right _ 1⟩

/-- The lengths of the queues are those of the file, whatever the overrides are. -/
theorem queues_of_load (hfile : readFile files path = .ok file) (h : load files path o = .ok c) :
    c.pool.queueSize = file.pool.queueSize ∧
      c.outboundBuffer = max file.server.outboundBuffer 1 := by
  rw [load_of_readFile hfile] at h
  obtain ⟨-, rfl⟩ := ofFile_eq_ok_iff.mp h
  exact ⟨rfl, rfl⟩

theorem runs_iff (h : load files path o = .ok c) :
    c.Runs ↔ c.pool.queueSize < 2 ^ 61 ∧ c.outboundBuffer < 2 ^ 61 := by
  obtain ⟨hmin, hmax, hqueue, hinterval, hnonces, houtbound⟩ := bounds_of_load h
  constructor
  · intro hruns
    exact ⟨(Capacity.isValid_iff.mp hruns.queue).2, (Capacity.isValid_iff.mp hruns.outbound).2⟩
  · rintro ⟨hshort, hbuffer⟩
    exact ⟨hmin, hmax, hinterval, hnonces, Capacity.isValid_iff.mpr ⟨hqueue, hshort⟩,
      Capacity.isValid_iff.mpr ⟨houtbound, hbuffer⟩⟩

theorem create_iff (h : load files path o = .ok c) (entropy : Entropy) :
    (∃ g, Gateway.create c entropy = .ok g) ↔ c.pool.queueSize < 2 ^ 61 := by
  obtain ⟨hmin, hmax, hqueue, hinterval, -⟩ := bounds_of_load h
  have hfault : c.pool.fault? = none :=
    Sizing.fault?_eq_none_iff.mpr ⟨hmin, hmax, hqueue, Nat.one_le_iff_ne_zero.mpr hinterval⟩
  constructor
  · rintro ⟨g, hg⟩
    obtain ⟨pool, hpool, -⟩ := bind_eq_ok_iff.mp hg
    exact (Capacity.isValid_iff.mp (Pool.isValid_of_create hpool)).2
  · intro hshort
    have hpool := Pool.create_of_fault? (J := Delivery) hfault
    rw [if_pos (Capacity.isValid_iff.mpr ⟨hqueue, hshort⟩)] at hpool
    exact ⟨_, bind_eq_ok_iff.mpr ⟨_, hpool, rfl⟩⟩

/-- **When an accepted configuration can be run.** Loading makes sure that there is a worker, that
the bounds are in order, that the timer has a period, that a session takes a message, and that no
queue is empty. It does not look at the other end: the configuration can be run just if both of its
queues are shorter than the longest that can be made, and a gateway can be made of it just if that
of the pool is. The lengths are those of the file, so what cannot be run cannot be repaired by
overrides. -/
theorem runs_iff_of_load (h : load files path o = .ok c) :
    (1 ≤ c.pool.minWorkers ∧ c.pool.minWorkers ≤ c.pool.maxWorkers ∧ 1 ≤ c.pool.queueSize ∧
      c.pool.interval ≠ 0 ∧ 1 ≤ c.nonceLimit ∧ 1 ≤ c.outboundBuffer) ∧
    (c.Runs ↔ c.pool.queueSize < 2 ^ 61 ∧ c.outboundBuffer < 2 ^ 61) ∧
    (∀ entropy, (∃ g, Gateway.create c entropy = .ok g) ↔ c.pool.queueSize < 2 ^ 61) ∧
    ∀ o' c', load files path o' = .ok c' → (c'.Runs ↔ c.Runs) := by
  refine ⟨bounds_of_load h, runs_iff h, create_iff h, fun o' c' h' => ?_⟩
  obtain ⟨file, hfile, -⟩ := load_eq_ok_iff.mp h
  obtain ⟨hqueue, hbuffer⟩ := queues_of_load hfile h
  obtain ⟨hqueue', hbuffer'⟩ := queues_of_load hfile h'
  rw [runs_iff h, runs_iff h', hqueue, hbuffer, hqueue', hbuffer']

namespace Sample

/-- A file, wherever one looks. -/
def disk (text : String) : Files := ⟨none, fun _ => .file (Utf8.encode text)⟩

theorem readFile_disk {text : String} (h : ConfigFile.parse? text = some file) :
    readFile (disk text) (some "config.toml") = .ok file := by
  simp only [readFile, disk, Utf8.decode?_encode, h]

/-- A pool with a queue of a given length, and connections with queues of another. -/
def withQueues (minWorkers queueSize outboundBuffer : Nat) : ConfigFile :=
  { ConfigFile.default with
    server := { ConfigFile.defaultServer with outboundBuffer }
    pool := { ConfigFile.defaultPool with minWorkers, queueSize } }

/-- The longest queue for a pool whose bounds are crossed, and none for connections. -/
def longest : String :=
  "[server]\noutbound_buffer = 0\n[pool]\nmin_workers = 20\nqueue_size = 2305843009213693951\n"

theorem parse?_longest : ConfigFile.parse? longest = some (withQueues 20 (2 ^ 61 - 1) 0) := by
  decide +kernel

/-- Queues that are one too long. -/
def tooLong : String :=
  "[server]\noutbound_buffer = 2305843009213693952\n[pool]\nqueue_size = 2305843009213693952\n"

theorem parse?_tooLong : ConfigFile.parse? tooLong = some (withQueues 2 (2 ^ 61) (2 ^ 61)) := by
  decide +kernel

end Sample

/-- The longest queue can be made, once an override has put the bounds in order. -/
theorem runs_iff_of_load_longest :
    ∃ c, load (Sample.disk Sample.longest) (some "config.toml")
      { Overrides.none with maxWorkers := some 20 } = .ok c ∧ c.pool.queueSize = 2 ^ 61 - 1 ∧
      c.outboundBuffer = 1 ∧ c.Runs := by
  have hload : load (Sample.disk Sample.longest) (some "config.toml")
      { Overrides.none with maxWorkers := some 20 } = .ok _ :=
    load_eq_ok_iff.mpr ⟨_, Sample.readFile_disk Sample.parse?_longest, rfl, rfl⟩
  exact ⟨_, hload, rfl, rfl,
    (runs_iff_of_load hload).2.1.mpr ⟨by decide +kernel, by decide +kernel⟩⟩

/-- A configuration is accepted of which no gateway can be made, and no connection either. -/
theorem load_not_runs :
    ∃ c, load (Sample.disk Sample.tooLong) (some "config.toml") Overrides.none = .ok c ∧
      ¬ c.Runs ∧ Capacity.isValid c.outboundBuffer = false ∧
      Pool.create (J := Delivery) c.pool = .error .queueTooLong := by
  have hload : load (Sample.disk Sample.tooLong) (some "config.toml") Overrides.none = .ok _ :=
    load_eq_ok_iff.mpr ⟨_, Sample.readFile_disk Sample.parse?_tooLong, rfl, rfl⟩
  refine ⟨_, hload, fun hruns => ?_, by decide +kernel, ?_⟩
  · exact absurd hruns.queue (by decide +kernel)
  · rw [Pool.create_of_fault? rfl, if_neg (by decide +kernel)]

end Config

end SealedGateway
