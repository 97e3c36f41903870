import SealedGateway.CommandLine
import SealedGateway.Gateway.Scenario
import SealedGateway.Gateway.Startup

/-!
# The program

Reads the command line and the configuration, and serves one local client: each line of the
standard input is a frame from the client. Replies to the client are printed behind `<`, and
publications behind `>`. The end of the input is the end of the server.
-/

namespace SealedGateway.Program

/-- What is printed when help is asked for. -/
def usage : String :=
  "Usage: sealed-gateway [OPTIONS]\n\n" ++
  "  -p, --port <PORT>          port for clients\n" ++
  "      --control-port <PORT>  port of the control plane\n" ++
  "      --metrics-port <PORT>  port of the metrics\n" ++
  "      --redis-url <URL>      address of the broker\n" ++
  "      --min-workers <N>      fewest forwarding workers\n" ++
  "      --max-workers <N>      most forwarding workers\n" ++
  "      --config <PATH>        configuration file\n" ++
  "      --log-level <LEVEL>    trace, debug, info, warn or error\n" ++
  "  -h, --help                 print help\n" ++
  "  -V, --version              print version"

/-- The version of the program. -/
def version : String := "sealed-gateway 0.1.0"

/-- The wording of a command line that gives no settings, and the exit code. -/
def explain : CommandLine.Stop → String × UInt32
  | .helpAsked => (usage, 0)
  | .versionAsked => (version, 0)
  | .badValue => ("error: invalid value for an option", 2)
  | .missingValue => ("error: a value is required for an option", 2)
  | .unknownArgument => ("error: unexpected argument found", 2)
  | .conflict => ("error: an option cannot be used multiple times", 2)
  | .unwantedValue => ("error: unexpected value for an option", 2)

/-- What the path leads to now. -/
def look (path : String) : IO FileState := do
  try
    return .file (← IO.FS.readBinFile path).data.toList
  catch
    | .noFileOrDirectory .. => return .absent
    | _ => return .directory

/-- The files as far as the given path is concerned. -/
def filesAt (path : String) : IO Files := do
  let home ← IO.getEnv "HOME"
  let expanded := Files.expand ⟨home, fun _ => .absent⟩ path
  let state ← look expanded
  return ⟨home, fun p => if p = expanded then state else .absent⟩

/-- What was received, as a line. -/
def frameLine : ClientFrame → String
  | .text s => "< " ++ s
  | .binary b => "< " ++ Hex.encode b
  | .closed => "< closed"

/-- Prints what an action led to. -/
def print (r : Scenario.Report) : IO Unit := do
  for (_, frames) in r.frames do
    for f in frames do
      IO.println (frameLine f)
  for (channel, payload) in r.published do
    IO.println ("> " ++ channel ++ " " ++ payload)

/-- Takes an action and prints what it led to. -/
def perform (s : Scenario) (a : Scenario.Action) : IO Scenario := do
  match s.act a with
  | some (r, s) =>
    print r
    return s
  | none => return s

/-- The octets of a line without its end. -/
def frameOfLine (line : String) : Bytes :=
  let isEnd := fun b => b = Ascii.lineFeed || b = Ascii.carriageReturn
  ((Utf8.encode line).reverse.dropWhile isEnd).reverse

/-- Serves the client until the input ends. -/
partial def serve (s : Scenario) : IO Unit := do
  let line ← (← IO.getStdin).getLine
  if line.isEmpty then
    let _ ← perform s .shutdown
  else
    serve (← perform s (.send "local" (frameOfLine line)))

/-- Starts a gateway and serves the client. -/
def run (config : Config) : IO UInt32 := do
  let entropy : Entropy := ⟨(← IO.getRandomBytes 64).data.toList⟩
  let started := do
    let addresses ← config.addresses
    let _ ← addresses.bind []
    (Scenario.start config entropy).mapError Pool.Fault.failure
  match started with
  | .error f =>
    IO.eprintln ("gateway error: " ++ f.message)
    return 1
  | .ok s =>
    serve (← perform s (.connect "local" "/ws"))
    return 0

/-- Reads the command line and the configuration, and runs the gateway. -/
def start (arguments : List String) : IO UInt32 := do
  match CommandLine.parse arguments with
  | .error stop =>
    let (text, code) := explain stop
    if code = 0 then IO.println text else IO.eprintln text
    return code
  | .ok line =>
    let files ← filesAt line.config
    match Config.load files (some line.config) line.overrides with
    | .error fault =>
      IO.eprintln ("failed to load config: " ++ fault.failure.message)
      return 1
    | .ok config => run config

end SealedGateway.Program

/-- The command line of the gateway. -/
def main (arguments : List String) : IO UInt32 := SealedGateway.Program.start arguments
