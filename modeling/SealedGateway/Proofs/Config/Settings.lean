import SealedGateway.Config.Basic

/-!
# The settings of a configuration

Each setting of a configuration has one key of the file, one default, and at most one override, all
in one table (**`Setting.source`**). What a file says is read setting by setting.

- **`ofMembers?_eq_some_iff`**: a document is a configuration file just if its tables are tables and
  every setting has a value that is read from its own key, or its own default.
- **`get_resolve`**: a setting of a configuration is its own override, or else its own value in the
  file, raised if need be.
-/

namespace SealedGateway.Config

/-- The tables of a configuration file. -/
inductive Table where
  | server
  | pool
  | broker

namespace Table

/-- The key of a table. -/
def key : Table → String
  | server => "server"
  | pool => "pool"
  | broker => "broker"

/-- The keys in a table, in their order. -/
def keys : Table → List String
  | server =>
    ["host", "port", "control_port", "metrics_port", "max_frame_size", "outbound_buffer",
      "nonce_limit", "trust_user_param"]
  | pool => ["min_workers", "max_workers", "queue_size", "scale_interval_ms"]
  | broker => ["redis_url"]

/-- The members of a table of a document, none where it is left out. -/
def members? (t : Table) (ms : Toml.Members) : Option Toml.Members :=
  ConfigFile.fields? t.keys (ms.find? t.key)

end Table

/-- Where a setting comes from and where it goes to. -/
structure Source (α : Type) where
  table : Table
  key : String
  read? : Toml → Option α
  absent : α
  override? : Overrides → Option α := fun _ => none
  /-- The value that a value counts as. -/
  raise : α → α := id
  inFile : ConfigFile → α
  get : Config → α

/-- The settings. -/
inductive Setting where
  | host
  | port
  | controlPort
  | metricsPort
  | maxFrameSize
  | outboundBuffer
  | nonceLimit
  | trustsNames
  | minWorkers
  | maxWorkers
  | queueSize
  | interval
  | brokerUrl
  deriving DecidableEq

namespace Setting

/-- What a setting is a value of. -/
abbrev Value : Setting → Type
  | host | brokerUrl => String
  | port | controlPort | metricsPort => UInt16
  | trustsNames => Bool
  | maxFrameSize | outboundBuffer | nonceLimit => Nat
  | minWorkers | maxWorkers | queueSize | interval => Nat

open ConfigFile (text? port? count? truth?)

/-- The sources of all settings. -/
def source : (s : Setting) → Source s.Value
  | host =>
    { table := .server, key := "host", read? := text?, absent := "0.0.0.0"
      inFile := (·.server.host), get := (·.host) }
  | port =>
    { table := .server, key := "port", read? := port?, absent := (8881 : UInt16)
      override? := (·.port), inFile := (·.server.port), get := (·.port) }
  | controlPort =>
    { table := .server, key := "control_port", read? := port?, absent := (4445 : UInt16)
      override? := (·.controlPort), inFile := (·.server.controlPort), get := (·.controlPort) }
  | metricsPort =>
    { table := .server, key := "metrics_port", read? := port?, absent := (4444 : UInt16)
      override? := (·.metricsPort), inFile := (·.server.metricsPort), get := (·.metricsPort) }
  | maxFrameSize =>
    { table := .server, key := "max_frame_size", read? := count?, absent := (1048576 : Nat)
      inFile := (·.server.maxFrameSize), get := (·.maxFrameSize) }
  | outboundBuffer =>
    { table := .server, key := "outbound_buffer", read? := count?, absent := (64 : Nat)
      raise := fun n => max n 1, inFile := (·.server.outboundBuffer), get := (·.outboundBuffer) }
  | nonceLimit =>
    { table := .server, key := "nonce_limit", read? := count?, absent := (4096 : Nat)
      raise := fun n => max n 1, inFile := (·.server.nonceLimit), get := (·.nonceLimit) }
  | trustsNames =>
    { table := .server, key := "trust_user_param", read? := truth?, absent := true
      inFile := (·.server.trustsNames), get := (·.trustsNames) }
  | minWorkers =>
    { table := .pool, key := "min_workers", read? := count?, absent := (2 : Nat)
      override? := (·.minWorkers), inFile := (·.pool.minWorkers), get := (·.pool.minWorkers) }
  | maxWorkers =>
    { table := .pool, key := "max_workers", read? := count?, absent := (16 : Nat)
      override? := (·.maxWorkers), inFile := (·.pool.maxWorkers), get := (·.pool.maxWorkers) }
  | queueSize =>
    { table := .pool, key := "queue_size", read? := count?, absent := (1024 : Nat)
      inFile := (·.pool.queueSize), get := (·.pool.queueSize) }
  | interval =>
    { table := .pool, key := "scale_interval_ms", read? := count?, absent := (2000 : Nat)
      inFile := (·.pool.interval), get := (·.pool.interval) }
  | brokerUrl =>
    { table := .broker, key := "redis_url", read? := text?, absent := "redis://127.0.0.1:6379"
      override? := (·.brokerUrl), inFile := (·.brokerUrl), get := (·.brokerUrl) }

/-- What a document says of a setting. -/
def written? (s : Setting) (ms : Toml.Members) : Option Toml :=
  (s.source.table.members? ms).bind fun table => table.find? s.source.key

/-- The value of a setting in a document: what is written under its key, if that can be read, and
its default where nothing is written. -/
def fileValue? (s : Setting) (ms : Toml.Members) : Option s.Value :=
  match s.written? ms with
  | some v => s.source.read? v
  | none => some s.source.absent

theorem fileValue?_eq_field {t : Table} {ms members : Toml.Members}
    (h : t.members? ms = some members) (s : Setting) (hs : s.source.table = t) :
    s.fileValue? ms = ConfigFile.field s.source.read? members s.source.key s.source.absent := by
  rw [fileValue?, written?, hs, h]
  rfl

end Setting

/-! ## Documents -/

variable {ms : Toml.Members} {file : ConfigFile} {o : Overrides}

/-- Each table of a document can be read as one. -/
def HasTables (ms : Toml.Members) : Prop := ∀ t : Table, (t.members? ms).isSome = true

theorem server?_eq_some_iff {table : ServerTable} :
    ConfigFile.server? (ms.find? "server") = some table ↔
      (Table.server.members? ms).isSome = true ∧
        Setting.host.fileValue? ms = some table.host ∧
        Setting.port.fileValue? ms = some table.port ∧
        Setting.controlPort.fileValue? ms = some table.controlPort ∧
        Setting.metricsPort.fileValue? ms = some table.metricsPort ∧
        Setting.maxFrameSize.fileValue? ms = some table.maxFrameSize ∧
        Setting.outboundBuffer.fileValue? ms = some table.outboundBuffer ∧
        Setting.nonceLimit.fileValue? ms = some table.nonceLimit ∧
        Setting.trustsNames.fileValue? ms = some table.trustsNames := by
  constructor
  · intro h
    simp only [ConfigFile.server?, bind, Option.bind_eq_some_iff] at h
    obtain ⟨members, hmembers, host, hhost, port, hport, control, hcontrol, metrics, hmetrics,
      frame, hframe, buffer, hbuffer, nonces, hnonces, trusts, htrusts, h⟩ := h
    cases h
    have hread := Setting.fileValue?_eq_field (t := .server) hmembers
    refine ⟨Option.isSome_iff_exists.mpr ⟨_, hmembers⟩, ?_, ?_, ?_, ?_, ?_, ?_, ?_, ?_⟩
    all_goals
      rw [hread _ rfl]
      assumption
  · rintro ⟨hsome, hhost, hport, hcontrol, hmetrics, hframe, hbuffer, hnonces, htrusts⟩
    obtain ⟨members, hmembers⟩ := Option.isSome_iff_exists.mp hsome
    have hread := Setting.fileValue?_eq_field hmembers
    rw [hread _ rfl] at hhost hport hcontrol hmetrics hframe hbuffer hnonces htrusts
    simp only [ConfigFile.server?, bind, Option.bind_eq_some_iff]
    exact ⟨members, hmembers, _, hhost, _, hport, _, hcontrol, _, hmetrics, _, hframe, _, hbuffer,
      _, hnonces, _, htrusts, rfl⟩

theorem pool?_eq_some_iff {sizing : Sizing} :
    ConfigFile.pool? (ms.find? "pool") = some sizing ↔
      (Table.pool.members? ms).isSome = true ∧
        Setting.minWorkers.fileValue? ms = some sizing.minWorkers ∧
        Setting.maxWorkers.fileValue? ms = some sizing.maxWorkers ∧
        Setting.queueSize.fileValue? ms = some sizing.queueSize ∧
        Setting.interval.fileValue? ms = some sizing.interval := by
  constructor
  · intro h
    simp only [ConfigFile.pool?, bind, Option.bind_eq_some_iff] at h
    obtain ⟨members, hmembers, low, hlow, high, hhigh, queue, hqueue, interval, hinterval, h⟩ := h
    cases h
    have hread := Setting.fileValue?_eq_field (t := .pool) hmembers
    refine ⟨Option.isSome_iff_exists.mpr ⟨_, hmembers⟩, ?_, ?_, ?_, ?_⟩
    all_goals
      rw [hread _ rfl]
      assumption
  · rintro ⟨hsome, hlow, hhigh, hqueue, hinterval⟩
    obtain ⟨members, hmembers⟩ := Option.isSome_iff_exists.mp hsome
    have hread := Setting.fileValue?_eq_field hmembers
    rw [hread _ rfl] at hlow hhigh hqueue hinterval
    simp only [ConfigFile.pool?, bind, Option.bind_eq_some_iff]
    exact ⟨members, hmembers, _, hlow, _, hhigh, _, hqueue, _, hinterval, rfl⟩

theorem brokerUrl?_eq_some_iff {url : String} :
    ConfigFile.brokerUrl? (ms.find? "broker") = some url ↔
      (Table.broker.members? ms).isSome = true ∧
        Setting.brokerUrl.fileValue? ms = some url := by
  constructor
  · intro h
    simp only [ConfigFile.brokerUrl?, bind, Option.bind_eq_some_iff] at h
    obtain ⟨members, hmembers, hurl⟩ := h
    exact ⟨Option.isSome_iff_exists.mpr ⟨_, hmembers⟩,
      (Setting.fileValue?_eq_field (t := .broker) hmembers _ rfl).trans hurl⟩
  · rintro ⟨hsome, hurl⟩
    obtain ⟨members, hmembers⟩ := Option.isSome_iff_exists.mp hsome
    rw [Setting.fileValue?_eq_field hmembers _ rfl] at hurl
    simp only [ConfigFile.brokerUrl?, bind, Option.bind_eq_some_iff]
    exact ⟨members, hmembers, hurl⟩

/-- A document is a configuration file just if each of its settings has a value. -/
theorem ofMembers?_eq_some_iff :
    ConfigFile.ofMembers? ms = some file ↔
      HasTables ms ∧ ∀ s : Setting, s.fileValue? ms = some (s.source.inFile file) := by
  have hparts : ConfigFile.ofMembers? ms = some file ↔
      ConfigFile.server? (ms.find? "server") = some file.server ∧
        ConfigFile.pool? (ms.find? "pool") = some file.pool ∧
        ConfigFile.brokerUrl? (ms.find? "broker") = some file.brokerUrl := by
    simp only [ConfigFile.ofMembers?, bind, Option.bind_eq_some_iff]
    constructor
    · rintro ⟨server, hserver, pool, hpool, url, hurl, h⟩
      cases h
      exact ⟨hserver, hpool, hurl⟩
    · rintro ⟨hserver, hpool, hurl⟩
      exact ⟨_, hserver, _, hpool, _, hurl, rfl⟩
  rw [hparts, server?_eq_some_iff, pool?_eq_some_iff, brokerUrl?_eq_some_iff]
  constructor
  · rintro ⟨⟨hserver, hhost, hport, hcontrol, hmetrics, hframe, hbuffer, hnonces, htrusts⟩,
      ⟨hpool, hlow, hhigh, hqueue, hinterval⟩, hbroker, hurl⟩
    refine ⟨fun t => ?_, fun s => ?_⟩
    · cases t <;> assumption
    · cases s <;> assumption
  · rintro ⟨htables, hvalues⟩
    exact ⟨⟨htables .server, hvalues .host, hvalues .port, hvalues .controlPort,
        hvalues .metricsPort, hvalues .maxFrameSize, hvalues .outboundBuffer, hvalues .nonceLimit,
        hvalues .trustsNames⟩,
      ⟨htables .pool, hvalues .minWorkers, hvalues .maxWorkers, hvalues .queueSize,
        hvalues .interval⟩, htables .broker, hvalues .brokerUrl⟩

/-! ## Overrides -/

namespace Setting

/-- The value that a setting is given: its own override, or else its own value in a document. -/
def given? (s : Setting) (o : Overrides) (ms : Toml.Members) : Option s.Value :=
  match s.source.override? o with
  | some v => some v
  | none => s.fileValue? ms

theorem given?_eq_some {s : Setting} {v : s.Value} (h : s.fileValue? ms = some v) :
    s.given? o ms = some ((s.source.override? o).getD v) := by
  unfold given?
  cases s.source.override? o with
  | none => exact h
  | some w => rfl

/-- A setting of a configuration is what it is given, raised if need be. -/
theorem get_resolve (s : Setting) (file : ConfigFile) (o : Overrides) :
    s.source.get (resolve file o) =
      s.source.raise ((s.source.override? o).getD (s.source.inFile file)) := by
  cases s <;> rfl

end Setting

end SealedGateway.Config
