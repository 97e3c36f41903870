import SealedGateway.Pool.Sizing
import SealedGateway.Session
import SealedGateway.Toml.Parser

/-!
# The configuration file

A TOML document with the tables `server`, `pool` and `broker`. What is left out has its default, and
what is not known is ignored. A table can also be given as an array of its fields in their order.

**`ConfigFile.ofMembers?`** reads the tables; a known field of another type, or outside the range of
its type, makes the file unusable.
-/

namespace SealedGateway

/-- The table `server`. -/
structure ServerTable where
  host : String
  port : UInt16
  controlPort : UInt16
  metricsPort : UInt16
  maxFrameSize : Nat
  outboundBuffer : Nat
  nonceLimit : Nat
  /-- Whether clients may name themselves. -/
  trustsNames : Bool
  deriving DecidableEq, Repr

/-- The configuration file. -/
structure ConfigFile where
  server : ServerTable
  pool : Sizing
  brokerUrl : String
  deriving DecidableEq, Repr

namespace ConfigFile

/-- The defaults of the table `server`. -/
def defaultServer : ServerTable :=
  { host := "0.0.0.0", port := 8881, controlPort := 4445, metricsPort := 4444
    maxFrameSize := 1048576, outboundBuffer := 64, nonceLimit := Session.defaultNonceLimit
    trustsNames := true }

/-- The defaults of the table `pool`. -/
def defaultPool : Sizing :=
  { minWorkers := 2, maxWorkers := 16, queueSize := 1024, interval := 2000 }

/-- The default of the table `broker`. -/
def defaultBrokerUrl : String := "redis://127.0.0.1:6379"

/-- A file that says nothing. -/
def default : ConfigFile := ⟨defaultServer, defaultPool, defaultBrokerUrl⟩

/-! ## Fields -/

/-- A string. -/
def text? : Toml → Option String
  | .string s => some s
  | _ => none

/-- A truth value. -/
def truth? : Toml → Option Bool
  | .boolean b => some b
  | _ => none

/-- An integer that is not negative. -/
def count? : Toml → Option Nat
  | .integer (.ofNat n) => some n
  | _ => none

/-- The number of a port. -/
def port? (v : Toml) : Option UInt16 :=
  match count? v with
  | some n => if n < UInt16.size then some (UInt16.ofNat n) else none
  | none => none

/-- A field of a table, or its default where it is left out. -/
def field {α : Type} (read? : Toml → Option α) (ms : Toml.Members) (name : String) (absent : α) :
    Option α :=
  match ms.find? name with
  | some v => read? v
  | none => some absent

/-! ## Tables -/

/-- The fields of a table, whose names in their order are `names`. A date has no known field. -/
def fields? (names : List String) : Option Toml → Option Toml.Members
  | none => some []
  | some (.table _ ms) => some ms
  | some (.array items) => some (names.zip items)
  | some (.tables items) => some (names.zip (items.map (.table .header)))
  | some (.datetime _) => some []
  | some _ => none

/-- The table `server`. -/
def server? (v : Option Toml) : Option ServerTable := do
  let names :=
    ["host", "port", "control_port", "metrics_port", "max_frame_size", "outbound_buffer",
      "nonce_limit", "trust_user_param"]
  let ms ← fields? names v
  let host ← field text? ms "host" defaultServer.host
  let port ← field port? ms "port" defaultServer.port
  let controlPort ← field port? ms "control_port" defaultServer.controlPort
  let metricsPort ← field port? ms "metrics_port" defaultServer.metricsPort
  let maxFrameSize ← field count? ms "max_frame_size" defaultServer.maxFrameSize
  let outboundBuffer ← field count? ms "outbound_buffer" defaultServer.outboundBuffer
  let nonceLimit ← field count? ms "nonce_limit" defaultServer.nonceLimit
  let trustsNames ← field truth? ms "trust_user_param" defaultServer.trustsNames
  return ⟨host, port, controlPort, metricsPort, maxFrameSize, outboundBuffer, nonceLimit,
    trustsNames⟩

/-- The table `pool`. -/
def pool? (v : Option Toml) : Option Sizing := do
  let ms ← fields? ["min_workers", "max_workers", "queue_size", "scale_interval_ms"] v
  let minWorkers ← field count? ms "min_workers" defaultPool.minWorkers
  let maxWorkers ← field count? ms "max_workers" defaultPool.maxWorkers
  let queueSize ← field count? ms "queue_size" defaultPool.queueSize
  let interval ← field count? ms "scale_interval_ms" defaultPool.interval
  return ⟨minWorkers, maxWorkers, queueSize, interval⟩

/-- The table `broker`. -/
def brokerUrl? (v : Option Toml) : Option String := do
  let ms ← fields? ["redis_url"] v
  field text? ms "redis_url" defaultBrokerUrl

/-- The tables of a document. -/
def ofMembers? (ms : Toml.Members) : Option ConfigFile := do
  let server ← server? (ms.find? "server")
  let pool ← pool? (ms.find? "pool")
  let brokerUrl ← brokerUrl? (ms.find? "broker")
  return ⟨server, pool, brokerUrl⟩

/-- Reads the text of a file. -/
def parse? (text : String) : Option ConfigFile := Toml.parse? text >>= ofMembers?

end ConfigFile

end SealedGateway
