import DesktopShell.Terminal

/-!
# The command line

Runs a console on the standard input. The configuration is read from the file
that the environment names, if it names one.
-/
namespace DesktopShell.Terminal

/-- The variable that names the file of the configuration. -/
def configVariable : String := "FLUXO_DESKTOP_CONFIG"

def fileFault : IO.Error → FileFault
  | .noFileOrDirectory .. => .missing
  | .inappropriateType .. => .isDirectory
  | error => .other (toString error)

/-- The configuration that the environment names, or the standard one. -/
def loadConfig : IO (Except ConfigFault (Config Float)) := do
  match ← IO.getEnv configVariable with
  | none => return .ok Config.standard
  | some path =>
    try
      return Config.ofToml (← IO.FS.readFile path)
    catch error => return .error (.unreadable path (fileFault error))

/-- The count that a list of the system has for a name, each on a line of its own. -/
def listed? (name text : String) : Option Nat :=
  (text.splitOn "\n").findSome? fun line =>
    match line.splitOn " " with
    | [key, count] => if key = name then count.toNat? else none
    | _ => none

/-- The milliseconds that seconds with hundredths are. -/
def milliseconds? (text : String) : Option Nat :=
  match text.splitOn "." with
  | [seconds, hundredths] => return (← seconds.toNat?) * 1000 + (← hundredths.toNat?) * 10
  | _ => none

/-- The clock, in milliseconds since the beginning of 1970: those up to the start of the system, which are listed in
    whole seconds, and those since then. It shows 0 when the lists have nothing of them. -/
def clock : IO UInt64 := do
  let stat ← IO.FS.readFile "/proc/stat"
  let uptime ← IO.FS.readFile "/proc/uptime"
  match listed? "btime" stat, (uptime.splitOn " ").head? >>= milliseconds? with
  | some started, some running => return UInt64.ofNat (started * 1000 + running)
  | _, _ => return 0

/-- Carries out the lines of the standard input one by one. -/
partial def serve (c : Console) : IO UInt32 := do
  let stdin ← IO.getStdin
  let stdout ← IO.getStdout
  let input ← try pure (some (← stdin.getLine)) catch _ => pure none
  match input with
  | none => return UInt32.ofNat Console.badInput
  | some "" => return 0
  | some line =>
    let now ← clock
    let (c, outcome) := Console.feedAll (fun _ => now) 0 c (Console.inputLines line.toUTF8.toList)
    stdout.putStr outcome.stdout
    stdout.flush
    serve c

end DesktopShell.Terminal

open DesktopShell DesktopShell.Terminal in
def main : IO UInt32 := do
  match ← loadConfig with
  | .error fault =>
    (← IO.getStderr).putStrLn ("error: " ++ fault.message)
    return UInt32.ofNat Console.badConfig
  | .ok config =>
    let (c, shown) := Console.start config (← clock)
    let stdout ← IO.getStdout
    stdout.putStr shown
    stdout.flush
    serve c
