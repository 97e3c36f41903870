import SealedGateway.Config.File

/-!
# The configuration of a gateway

A value comes from the command line, else from the file, else it is the default. The sizes of the
pool are checked after that, so that one source can repair another (**`Config.load`**).
-/

namespace SealedGateway

/-- What the command line can set. -/
structure Overrides where
  port : Option UInt16
  controlPort : Option UInt16
  metricsPort : Option UInt16
  brokerUrl : Option String
  minWorkers : Option Nat
  maxWorkers : Option Nat
  deriving DecidableEq, Repr

/-- Overrides that set nothing. -/
def Overrides.none : Overrides := ⟨.none, .none, .none, .none, .none, .none⟩

/-- A configuration. -/
structure Config where
  host : String
  port : UInt16
  controlPort : UInt16
  metricsPort : UInt16
  maxFrameSize : Nat
  outboundBuffer : Nat
  nonceLimit : Nat
  /-- Whether clients may name themselves. -/
  trustsNames : Bool
  brokerUrl : String
  pool : Sizing
  deriving DecidableEq, Repr

/-- Why there is no configuration. -/
inductive ConfigFault where
  /-- The file is there and cannot be read as text. -/
  | unreadable
  /-- The text is no configuration file. -/
  | malformed
  | badSizing (fault : Sizing.Fault)
  deriving DecidableEq, Repr

/-- The failure of a fault. -/
def ConfigFault.failure : ConfigFault → Failure
  | unreadable => .io "the configuration file cannot be read"
  | malformed => .other "config parse error"
  | badSizing f => .other f.message

/-- What a path leads to. -/
inductive FileState where
  | absent
  | directory
  | file (content : Bytes)
  deriving DecidableEq, Repr

/-- The files that a configuration can come from. -/
structure Files where
  /-- The directory that a path starting with `~/` starts from, if there is one. -/
  home : Option String
  look : String → FileState

/-- The path that `~/` at the start of a path stands for. -/
def Files.expand (files : Files) (path : String) : String :=
  match path.toList, files.home with
  | '~' :: '/' :: rest, some home =>
    if rest.head? = some '/' then String.ofList rest
    else if home.toList.getLast? = some '/' then home ++ String.ofList rest
    else home ++ "/" ++ String.ofList rest
  | _, _ => path

namespace Config

/-- The configuration of a file and the overrides. Limits of zero count as one. -/
def resolve (file : ConfigFile) (o : Overrides) : Config :=
  { host := file.server.host
    port := o.port.getD file.server.port
    controlPort := o.controlPort.getD file.server.controlPort
    metricsPort := o.metricsPort.getD file.server.metricsPort
    maxFrameSize := file.server.maxFrameSize
    outboundBuffer := max file.server.outboundBuffer 1
    nonceLimit := max file.server.nonceLimit 1
    trustsNames := file.server.trustsNames
    brokerUrl := o.brokerUrl.getD file.brokerUrl
    pool :=
      { file.pool with
        minWorkers := o.minWorkers.getD file.pool.minWorkers
        maxWorkers := o.maxWorkers.getD file.pool.maxWorkers } }

/-- The configuration of a file and the overrides, if the pool can honour its sizes. -/
def ofFile (file : ConfigFile) (o : Overrides) : Except ConfigFault Config :=
  let config := resolve file o
  match config.pool.fault? with
  | some f => .error (.badSizing f)
  | none => .ok config

/-- The file at a path. A path that leads nowhere counts as a file that says nothing. -/
def readFile (files : Files) : Option String → Except ConfigFault ConfigFile
  | none => .ok .default
  | some path =>
    match files.look (files.expand path) with
    | .absent => .ok .default
    | .directory => .error .unreadable
    | .file content =>
      match Utf8.decode? content with
      | none => .error .unreadable
      | some text =>
        match ConfigFile.parse? text with
        | some file => .ok file
        | none => .error .malformed

/-- The configuration at a path, after the overrides. -/
def load (files : Files) (path : Option String) (o : Overrides) : Except ConfigFault Config := do
  ofFile (← readFile files path) o

end Config

end SealedGateway
