import DesktopShell.Desktop.State
import DesktopShell.Toml

/-!
# Configurations

What a desktop starts from: the sizes and places of windows, a background, and
the catalogue. A configuration is read from a TOML document and then checked;
`Config.ofToml` names the first fault that is found. The standard configuration is
what a desktop starts from when nothing else is said.
-/
namespace DesktopShell

structure Config (α : Type) where
  schema : UInt32
  windows : Defaults α
  background : Option String
  apps : List App

/-- What is wrong with a configuration that could be read. -/
inductive ConfigFlaw where
  /-- A least size is not positive. -/
  | minimum
  /-- The size of new windows is below the least size. -/
  | size (windows : Defaults Float)
  | blankId
  | sameId (id : String)

inductive FileFault where
  | missing
  | isDirectory
  /-- Any other reason, in the words of the system. -/
  | other (reason : String)
deriving Repr, DecidableEq

/-- Why there is no configuration. -/
inductive ConfigFault where
  | unreadable (path : String) (fault : FileFault)
  /-- The document is no TOML, or its values are not what a configuration has. -/
  | malformed
  /-- The document is for another version. -/
  | schema (found : UInt32)
  /-- The values do not make a configuration. -/
  | invalid (flaw : ConfigFlaw)

def ConfigFlaw.message : ConfigFlaw → String
  | .minimum => "minimum window size must be positive"
  | .size w =>
    let size (width height : Float) : String :=
      Number.plain.write width ++ "x" ++ Number.plain.write height
    "default window size " ++ size w.width w.height ++ " is below the minimum "
      ++ size w.minWidth w.minHeight
  | .blankId => "app id must not be empty"
  | .sameId id => "duplicate app id `" ++ id ++ "`"

/-- The words for a fault of a file, with the number that the system has for it if known. -/
def FileFault.message : FileFault → String
  | .missing => "No such file or directory (os error 2)"
  | .isDirectory => "Is a directory (os error 21)"
  | .other reason => reason

def configVersion : UInt32 := 1

def ConfigFault.message : ConfigFault → String
  | .unreadable path fault => "failed to read " ++ path ++ ": " ++ fault.message
  | .malformed => "failed to parse desktop config"
  | .schema found =>
    "config schema mismatch: expected " ++ Number.decimalText configVersion.toNat ++ " found "
      ++ Number.decimalText found.toNat
  | .invalid flaw => "invalid desktop config: " ++ flaw.message

/-- The sizes and places that a configuration has when it does not give them. -/
def Defaults.standard : Defaults Float :=
  { width := 400, height := 300, minWidth := 400, minHeight := 300, firstZ := 100
    originX := 100, originY := 50, step := 30 }

section
variable {V : Type} [Format V]

def Defaults.reader : Reader V (Defaults Float) := do
  let width ← .required "default_width" Format.float?
  let height ← .required "default_height" Format.float?
  let minWidth ← .required "min_width" Format.float?
  let minHeight ← .required "min_height" Format.float?
  let firstZ ← .required "initial_z_index" Format.word?
  let originX ← .required "cascade_origin_x" Format.float?
  let originY ← .required "cascade_origin_y" Format.float?
  let step ← .required "cascade_step" Format.float?
  return { width, height, minWidth, minHeight, firstZ, originX, originY, step }

def backgroundReader : Reader V (Option String) :=
  .withDefault "background" none fun v => (Format.text? v).map some

def Config.reader : Reader V (Config Float) := do
  let schema ← .required "schema_version" Format.version?
  let windows ← .withDefault "windows" Defaults.standard Defaults.reader.record?
  let background ← .withDefault "desktop" none backgroundReader.record?
  let apps ← .withDefault "apps" [] (Format.listOf? App.reader.record?)
  return { schema, windows, background, apps }

end

/-- The first flaw of a catalogue, given the ids before it. -/
def appsFlaw? (seen : List String) : List App → Option ConfigFlaw
  | [] => none
  | app :: rest =>
    if Text.trim app.id = "" then some .blankId
    else if seen.contains app.id then some (.sameId app.id)
    else appsFlaw? (app.id :: seen) rest

def Defaults.flaw? (w : Defaults Float) : Option ConfigFlaw :=
  if w.minWidth ≤ 0 || w.minHeight ≤ 0 then some .minimum
  else if w.width < w.minWidth || w.height < w.minHeight then some (.size w)
  else none

namespace Config

/-- The first fault of a configuration: its version, then its sizes, then its applications. -/
def fault? (config : Config Float) : Option ConfigFault :=
  if config.schema ≠ configVersion then some (.schema config.schema)
  else (config.windows.flaw?.or (appsFlaw? [] config.apps)).map .invalid

def checked (config : Config Float) : Except ConfigFault (Config Float) :=
  match config.fault? with
  | some fault => .error fault
  | none => .ok config

def ofToml (document : String) : Except ConfigFault (Config Float) :=
  match (Toml.read? document).bind Config.reader.record? with
  | some config => config.checked
  | none => .error .malformed

end Config

/-- The applications that come with the desktop. -/
def standardApps : List App :=
  [{ id := "terminal", name := "Terminal", kind := .terminal, icon := "⌘"
     description := "Fluxo terminal with full scripting support"
     executable := "Terminal.fxo", installed := true, multiWindow := true, onDesktop := true },
   { id := "vs-studio", name := "VS.Studio", kind := .studio, icon := "⚡"
     description := "Code editor with Fluxo syntax highlighting"
     executable := "VS.Studio.fxo", installed := true, multiWindow := false, onDesktop := true },
   { id := "files", name := "Files", kind := .files, icon := "📁"
     description := "File system explorer"
     executable := "Files.fxo", installed := true, multiWindow := false, onDesktop := true },
   { id := "browser", name := "Browser", kind := .browser, icon := "🌐"
     description := "Web browser simulation"
     executable := "Browser.fxo", installed := true, multiWindow := true, onDesktop := true },
   { id := "web-store", name := "Web Store", kind := .store, icon := "🛒"
     description := "Install additional applications"
     executable := "WebStore.fxo", installed := true, multiWindow := false, onDesktop := true },
   { id := "properties", name := "Properties", kind := .properties, icon := "ℹ"
     description := "Window and application details"
     executable := "Properties.fxo", installed := false, multiWindow := true, onDesktop := false }]

def Config.standard : Config Float :=
  { schema := configVersion, windows := Defaults.standard, background := none
    apps := standardApps }

end DesktopShell
