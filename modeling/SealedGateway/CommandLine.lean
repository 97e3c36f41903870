import SealedGateway.Config.Basic
import SealedGateway.Text.Numeral

/-!
# The command line

Options with one value each, read from left to right. A value stands behind the option, or in the
same argument.

A value of its own is looked at when the next option or the end of the line is reached, so that an
argument that nothing knows, right behind it, is found first (**`CommandLine.Reader`**).
-/

namespace SealedGateway

/-- What the command line says. -/
structure CommandLine where
  overrides : Overrides
  /-- The path of the configuration file. -/
  config : String
  logLevel : String
  deriving DecidableEq, Repr

namespace CommandLine

/-- A command line without arguments. -/
def default : CommandLine := ⟨.none, "~/.courier/config.toml", "info"⟩

/-- Why a command line gives no settings. -/
inductive Stop where
  /-- A value that is none of its type. -/
  | badValue
  | missingValue
  | unknownArgument
  /-- An option is given twice. -/
  | conflict
  /-- A value for an option that has none. -/
  | unwantedValue
  | helpAsked
  | versionAsked
  deriving DecidableEq, Repr

/-- An option that has a value. -/
inductive Setting where
  | port
  | controlPort
  | metricsPort
  | redisUrl
  | minWorkers
  | maxWorkers
  | config
  | logLevel
  deriving DecidableEq, Repr

/-- An option. -/
inductive Flag where
  | setting (s : Setting)
  | help
  | version
  deriving DecidableEq, Repr

/-- The option of a long name. -/
def longFlag? : String → Option Flag
  | "port" => some (.setting .port)
  | "control-port" => some (.setting .controlPort)
  | "metrics-port" => some (.setting .metricsPort)
  | "redis-url" => some (.setting .redisUrl)
  | "min-workers" => some (.setting .minWorkers)
  | "max-workers" => some (.setting .maxWorkers)
  | "config" => some (.setting .config)
  | "log-level" => some (.setting .logLevel)
  | "help" => some .help
  | "version" => some .version
  | _ => none

/-- The option of a letter. -/
def shortFlag? : Char → Option Flag
  | 'p' => some (.setting .port)
  | 'h' => some .help
  | 'V' => some .version
  | _ => none

/-! ## Values -/

/-- A number of at most 64 bits, with or without a plus. -/
def size? (value : String) : Option Nat :=
  let digits := match value.toList with
    | '+' :: s => s
    | s => s
  match Numeral.whole? 10 digits with
  | some n => if n < Nat.pow 2 64 then some n else none
  | none => none

/-- The number of a port, with or without a plus; zero can also have a minus. -/
def port? (value : String) : Option UInt16 :=
  let n? := match value.toList with
    | '+' :: s => Numeral.whole? 10 s
    | '-' :: s => (Numeral.whole? 10 s).filter (· = 0)
    | s => Numeral.whole? 10 s
  match n? with
  | some n => if n < UInt16.size then some (UInt16.ofNat n) else none
  | none => none

/-- Takes up the value of an option. -/
def store? (line : CommandLine) (value : String) : Setting → Option CommandLine
  | .port => (port? value).map fun n => { line with overrides.port := some n }
  | .controlPort => (port? value).map fun n => { line with overrides.controlPort := some n }
  | .metricsPort => (port? value).map fun n => { line with overrides.metricsPort := some n }
  | .redisUrl => some { line with overrides.brokerUrl := some value }
  | .minWorkers => (size? value).map fun n => { line with overrides.minWorkers := some n }
  | .maxWorkers => (size? value).map fun n => { line with overrides.maxWorkers := some n }
  | .config => some { line with config := value }
  | .logLevel => some { line with logLevel := value }

/-! ## Arguments -/

/-- A command line up to some argument. -/
structure Reader where
  line : CommandLine
  /-- The options whose values were taken up. -/
  given : List Setting
  /-- The last option and its value, if it is still to come or was not looked at yet. -/
  pending : Option (Setting × Option String)
  /-- Whether all further arguments are words. -/
  wordsOnly : Bool

/-- What an argument is. -/
inductive Argument where
  /-- Two hyphens: all further arguments are words. -/
  | separator
  | option (flag : Flag) (value : Option String)
  | unknownOption
  | word
  deriving DecidableEq, Repr

/-- An option with one hyphen, behind the hyphen. -/
def shortOption : List Char → Argument
  | [] => .word
  | c :: value =>
    match shortFlag? c with
    | none => .unknownOption
    | some (.setting s) =>
      match value with
      | [] => .option (.setting s) none
      | '=' :: value => .option (.setting s) (some (String.ofList value))
      | value => .option (.setting s) (some (String.ofList value))
    | some flag => .option flag none

/-- An option with two hyphens, behind the hyphens. -/
def longOption (s : List Char) : Argument :=
  let value := match s.dropWhile (· ≠ '=') with
    | '=' :: value => some (String.ofList value)
    | _ => none
  match longFlag? (String.ofList (s.takeWhile (· ≠ '='))) with
  | some flag => .option flag value
  | none => .unknownOption

/-- What an argument is. -/
def Argument.ofText (text : String) : Argument :=
  match text.toList with
  | ['-', '-'] => .separator
  | '-' :: '-' :: s => longOption s
  | '-' :: s => shortOption s
  | _ => .word

namespace Reader

/-- Before the first argument. -/
def start : Reader := ⟨.default, [], none, false⟩

/-- Takes up the value of an option. -/
def accept (r : Reader) (s : Setting) : Option String → Except Stop Reader
  | none => .error .missingValue
  | some value =>
    if s ∈ r.given then .error .conflict
    else
      match r.line.store? value s with
      | some line => .ok { r with line, given := s :: r.given }
      | none => .error .badValue

/-- Takes up the value of the last option, if that is still to be done. -/
def settle (r : Reader) : Except Stop Reader :=
  match r.pending with
  | none => .ok r
  | some (s, value) => { r with pending := none }.accept s value

/-- One argument. -/
def step (r : Reader) (text : String) : Except Stop Reader :=
  match if r.wordsOnly then none else some (Argument.ofText text) with
  | some .separator => .ok { r with wordsOnly := true }
  | some (.option (.setting s) none) => do
    let r ← r.settle
    return { r with pending := some (s, none) }
  | some (.option (.setting s) value) => do (← r.settle).accept s value
  | some (.option _ (some _)) => .error .unwantedValue
  | some (.option .help none) => do
    let _ ← r.settle
    .error .helpAsked
  | some (.option .version none) => do
    let _ ← r.settle
    .error .versionAsked
  | some .word =>
    match r.pending with
    | some (s, none) => .ok { r with pending := some (s, some text) }
    | _ => .error .unknownArgument
  | some .unknownOption | none => .error .unknownArgument

end Reader

/-- Reads the arguments behind the name of the program. -/
def parse (arguments : List String) : Except Stop CommandLine := do
  let r ← arguments.foldlM Reader.step .start
  return (← r.settle).line

end CommandLine

end SealedGateway
