import SealedGateway.Proofs.Config.Load
import SealedGateway.Proofs.Config.Settings

/-!
# Which source a setting comes from

A configuration is put together from a document and the overrides, setting by setting, and its sizes
are checked only then: overrides can repair a file, and can spoil one.

- **`Config.readFile_eq_ok_iff`**: the file that a path leads to, by its document.
- **`Sizing.checks`**: what is checked, in its order, with the fault of each check.
- **`Config.load_precedence`**: what is accepted, what each setting is then, and what is said
  otherwise.
-/

namespace SealedGateway

namespace Sizing

/-- What is checked of the sizes of a pool, in its order, and the fault where that fails. -/
def checks (s : Sizing) : List (Bool × Fault) :=
  [(1 ≤ s.minWorkers, .noWorkers),
    (s.minWorkers ≤ s.maxWorkers, .boundsCrossed s.minWorkers s.maxWorkers),
    (1 ≤ s.queueSize, .noQueue), (1 ≤ s.interval, .noInterval)]

/-- The fault of a size is that of the first check that fails. -/
theorem find?_checks (s : Sizing) :
    s.checks.find? (fun check => !check.1) = s.fault?.map fun f => (false, f) := by
  unfold checks fault?
  by_cases hmin : s.minWorkers = 0
  · simp [hmin]
  have hlow : 1 ≤ s.minWorkers := Nat.one_le_iff_ne_zero.mpr hmin
  by_cases hmax : s.maxWorkers < s.minWorkers
  · simp [hmin, hlow, hmax, Nat.not_le.mpr hmax]
  have hordered : s.minWorkers ≤ s.maxWorkers := Nat.le_of_not_lt hmax
  by_cases hqueue : s.queueSize = 0
  · simp [hmin, hlow, hmax, hordered, hqueue]
  have hlength : 1 ≤ s.queueSize := Nat.one_le_iff_ne_zero.mpr hqueue
  by_cases hinterval : s.interval = 0
  · simp [hmin, hlow, hmax, hordered, hqueue, hlength, hinterval]
  · have hpositive : 1 ≤ s.interval := Nat.one_le_iff_ne_zero.mpr hinterval
    simp [hmin, hlow, hmax, hordered, hqueue, hlength, hinterval, hpositive]

theorem first_fault {s : Sizing} {f : Fault} (h : s.fault? = some f) :
    ∃ before after, s.checks = before ++ (false, f) :: after ∧
      ∀ check ∈ before, check.1 = true := by
  have hfind := s.find?_checks
  rw [h] at hfind
  obtain ⟨-, before, after, hchecks, hbefore⟩ := List.find?_eq_some_iff_append.mp hfind
  exact ⟨before, after, hchecks, fun check hcheck => by simpa using hbefore check hcheck⟩

end Sizing

namespace Config

variable {files : Files} {path : Option String} {o : Overrides} {ms : Toml.Members}
  {file : ConfigFile} {c : Config}

/-- The document that a path leads to, if it can be read. A path that leads nowhere counts as an
empty document. -/
def document? (files : Files) : Option String → Option Toml.Members
  | none => some []
  | some path =>
    match files.look (files.expand path) with
    | .absent => some []
    | .directory => none
    | .file content => Utf8.decode? content >>= Toml.parse?

theorem ofMembers?_nil : ConfigFile.ofMembers? [] = some .default := rfl

theorem readFile_eq_ok_iff :
    readFile files path = .ok file ↔
      ∃ ms, document? files path = some ms ∧ ConfigFile.ofMembers? ms = some file := by
  have hempty : (Except.ok ConfigFile.default : Except ConfigFault ConfigFile) = .ok file ↔
      ∃ ms, some [] = some ms ∧ ConfigFile.ofMembers? ms = some file := by
    simp [ofMembers?_nil]
  cases path with
  | none => exact hempty
  | some path =>
    rw [readFile, document?]
    cases files.look (files.expand path) with
    | absent => exact hempty
    | directory => simp
    | file content =>
      dsimp only
      cases Utf8.decode? content with
      | none => simp
      | some text =>
        dsimp only [ConfigFile.parse?, bind, Option.bind_some]
        cases Toml.parse? text with
        | none => simp
        | some ms => cases hms : ConfigFile.ofMembers? ms <;> simp [hms]

/-- The sizes that a choice of values gives a pool. -/
def sizing (v : (s : Setting) → s.Value) : Sizing :=
  ⟨v .minWorkers, v .maxWorkers, v .queueSize, v .interval⟩

/-- **Each setting has one source, and the sizes are checked in the end.** If a path leads to a
configuration file, every setting is given a value: its own override, or else the value under its
own key, or else its own default.

- Loading succeeds just if the sizes that are given are in order and positive, whichever of the
  sources they come from.
- Each setting of the configuration is then what it is given, where only limits of zero are raised.
- Otherwise the first check that fails decides what is said.
- A setting is the same under all overrides that agree on it. -/
theorem load_precedence (hdocument : document? files path = some ms)
    (hfile : ConfigFile.ofMembers? ms = some file) :
    ∃ v : (s : Setting) → s.Value, (∀ s : Setting, s.given? o ms = some (v s)) ∧
      ((∃ c, load files path o = .ok c) ↔
        1 ≤ v .minWorkers ∧ v .minWorkers ≤ v .maxWorkers ∧ 1 ≤ v .queueSize ∧ 1 ≤ v .interval) ∧
      (∀ c, load files path o = .ok c →
        ∀ s : Setting, s.source.get c = s.source.raise (v s)) ∧
      (∀ e, load files path o = .error e →
        ∃ before f after, (sizing v).checks = before ++ (false, f) :: after ∧
          (∀ check ∈ before, check.1 = true) ∧ e.failure = .other f.message) ∧
      ∀ o' c c', load files path o = .ok c → load files path o' = .ok c' →
        ∀ s : Setting, s.source.override? o = s.source.override? o' →
          s.source.get c = s.source.get c' := by
  have hread : readFile files path = .ok file := readFile_eq_ok_iff.mpr ⟨ms, hdocument, hfile⟩
  have hstated := (ofMembers?_eq_some_iff.mp hfile).2
  have hload : load files path o = ofFile file o := load_of_readFile hread
  refine ⟨fun s => (s.source.override? o).getD (s.source.inFile file),
    fun s => Setting.given?_eq_some (hstated s), ?_, fun c h s => ?_, fun e h => ?_,
    fun o' c c' h h' s hsame => ?_⟩
  · have hfault : (∃ c, load files path o = .ok c) ↔ (resolve file o).pool.fault? = none := by
      rw [hload]
      constructor
      · rintro ⟨c, hc⟩
        exact (ofFile_eq_ok_iff.mp hc).1
      · intro hnone
        exact ⟨_, ofFile_eq_ok_iff.mpr ⟨hnone, rfl⟩⟩
    rw [hfault]
    exact Sizing.fault?_eq_none_iff
  · rw [hload] at h
    obtain ⟨-, rfl⟩ := ofFile_eq_ok_iff.mp h
    exact s.get_resolve file o
  · rw [hload] at h
    obtain ⟨f, hf, rfl⟩ := ofFile_eq_error_iff.mp h
    obtain ⟨before, after, hchecks, hbefore⟩ := Sizing.first_fault hf
    exact ⟨before, f, after, hchecks, hbefore, rfl⟩
  · rw [hload] at h
    rw [load_of_readFile hread] at h'
    obtain ⟨-, rfl⟩ := ofFile_eq_ok_iff.mp h
    obtain ⟨-, rfl⟩ := ofFile_eq_ok_iff.mp h'
    rw [s.get_resolve, s.get_resolve, hsame]

namespace Sample

/-- A file whose bounds are crossed. -/
def crossed : String :=
  "[server]\nport = 9000\nnonce_limit = 0\n[pool]\nmin_workers = 8\nmax_workers = 4\n"

def crossedFile : ConfigFile :=
  { ConfigFile.default with
    server := { ConfigFile.defaultServer with port := 9000, nonceLimit := 0 }
    pool := { ConfigFile.defaultPool with minWorkers := 8, maxWorkers := 4 } }

theorem parse?_crossed : ConfigFile.parse? crossed = some crossedFile := by decide +kernel

end Sample

/-- An override repairs the file, and what it does not set is what the file says. -/
theorem load_precedence_repaired :
    ∃ c, load (Sample.disk Sample.crossed) (some "config.toml")
        { Overrides.none with maxWorkers := some 8 } = .ok c ∧
      c.pool.minWorkers = 8 ∧ c.pool.maxWorkers = 8 ∧ c.port = 9000 ∧ c.nonceLimit = 1 ∧
      ∀ o' c', load (Sample.disk Sample.crossed) (some "config.toml") o' = .ok c' →
        c'.nonceLimit = 1 := by
  obtain ⟨ms, hdocument, hfile⟩ :=
    readFile_eq_ok_iff.mp (Sample.readFile_disk Sample.parse?_crossed)
  have hstated := (ofMembers?_eq_some_iff.mp hfile).2
  obtain ⟨v, hgiven, haccepted, hvalues, -, hsame⟩ :=
    load_precedence (o := { Overrides.none with maxWorkers := some 8 }) hdocument hfile
  have hv (s : Setting) : v s = _ :=
    Option.some.inj ((hgiven s).symm.trans (Setting.given?_eq_some (hstated s)))
  obtain ⟨c, hc⟩ := haccepted.mpr (by simp only [hv]; decide)
  have hget (s : Setting) := (hvalues c hc s).trans (congrArg s.source.raise (hv s))
  exact ⟨c, hc, hget .minWorkers, hget .maxWorkers, hget .port, hget .nonceLimit,
    fun o' c' h' => (hsame o' c c' hc h' .nonceLimit rfl).symm.trans (hget .nonceLimit)⟩

end Config

end SealedGateway
