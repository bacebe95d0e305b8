import DesktopShell.Config
import DesktopShell.Desktop.Step
import DesktopShell.Script.Program
import DesktopShell.Shell
import DesktopShell.Storage

/-!
# The desk

A desktop at work: its configuration, the scene, the files, and the effects that
wait to be carried out, queued in the order in which steps ask for them. It answers
the lines of a terminal: the built-in commands work on its files, windows and
applications, and everything else is run as a script. Only making a file or folder can
fail; what a user gets wrong otherwise is said in the answer. Its layout is saved as a
snapshot under a name of its own, and a desk takes over a snapshot that it finds there.
Whatever cannot be loaded counts as nothing saved.
-/
namespace DesktopShell

structure Desk where
  config : Config Float
  scene : Scene Float
  files : Files.Tree
  queue : List Effect

/-- The scene that a configuration starts with: its applications, and icons for those that show
    themselves on the desktop. -/
def Scene.start {α : Type} [Coordinate α] (config : Config α) : Scene α :=
  let shown := (config.apps.filter (·.onDesktop)).map (·.id)
  let (icons, nextIcon) := Placement.column 0 (Desktop.empty : Desktop α).nextIcon shown
  { desktop :=
      { Desktop.empty with
        nextZ := config.windows.firstZ
        nextIcon
        apps := config.apps
        icons
        background := config.background }
    gestures := Gestures.none }

namespace Desk

def start (config : Config Float) (files : Files.Tree) : Desk :=
  { config, scene := Scene.start config, files, queue := [] }

/-- Carries out an action and queues its effects. -/
def act (desk : Desk) (now : UInt64) (action : Action Float) : Desk :=
  let (scene, effects) := desk.scene.step desk.config.windows now action
  { desk with scene, queue := desk.queue ++ effects }

/-- Opens a window of an application, and gives the window of it that has the focus then. -/
def openWindow (desk : Desk) (now : UInt64) (app : String) (data : Option Json) :
    Desk × Option String :=
  let desk := desk.act now (.openApp app data)
  let found := desk.scene.desktop.windows.find? fun w => w.focused && w.app = app
  (desk, found.map (·.id))

/-- Installs an application, and gives the id that is new in the catalogue. -/
def install (desk : Desk) (now : UInt64) (app : NewApp) : Desk × Option String :=
  let before := desk.scene.desktop.apps.map (·.id)
  let desk := desk.act now (.install app)
  let found := desk.scene.desktop.apps.find? fun a => !before.contains a.id
  (desk, found.map (·.id))

def takeEffects (desk : Desk) : Desk × List Effect := ({ desk with queue := [] }, desk.queue)

end Desk

def Script.Deed.action : Script.Deed → Action Float
  | .move window x y => .move window x y
  | .resize window width height => .resize window width height
  | .close window => .close window
  | .focus window => .focus window

def Desk.host (now : UInt64) : Script.Host Desk :=
  { isLive := fun desk id => desk.scene.desktop.isLive id
    perform := fun desk deed => desk.act now deed.action }

/-- The windows that are not closed, a line for each. -/
def Desktop.listWindows (d : Desktop Float) : String :=
  Text.unlines ((d.windows.filter (·.isLive)).map Window.summary)

/-- The applications that are installed, a line for each. -/
def Desktop.listApps {α : Type} (d : Desktop α) : String :=
  Text.unlines ((d.apps.filter (·.installed)).map fun app =>
    app.id ++ ": " ++ app.name ++ " - " ++ app.description)

namespace Files

def Node.listed (n : Node) : String := (if n.isFolder then "📁 " else "📄 ") ++ n.name

/-- What a command says of a path where nothing is. -/
def nothingThere (command path : String) : String :=
  command ++ ": " ++ path ++ ": No such file or directory"

def Tree.list (t : Tree) (path : String) : String :=
  match t.byPath? path with
  | none => nothingThere "ls" path
  | some n =>
    if !n.isFolder then n.name
    else
      match t.children n.id with
      | [] => "(empty directory)"
      | children => Text.unlines (children.map Node.listed)

def Tree.display (t : Tree) (path : String) : String :=
  match t.byPath? path with
  | none => nothingThere "cat" path
  | some n =>
    match n.body with
    | .folder => "cat: " ++ path ++ ": Is a directory"
    | .file content _ => if content = "" then "(empty file)" else content

end Files

namespace Desk

/-- The desk with the files after a node was asked for, and the answer or the failure that this is. -/
def made (desk : Desk) (answer : String) :
    Files.Tree × Except Files.Fault Files.Node → Desk × Except Shell.Failure String
  | (files, .ok _) => ({ desk with files }, .ok answer)
  | (files, .error fault) => ({ desk with files }, .error (.ofFault fault))

def runBuiltin (desk : Desk) (now : UInt64) :
    Shell.Builtin → Desk × Except Shell.Failure String
  | .help => (desk, .ok Shell.Registry.builtin.helpText)
  | .clear => (desk, .ok "")
  | .windows => (desk, .ok desk.scene.desktop.listWindows)
  | .apps => (desk, .ok desk.scene.desktop.listApps)
  | .ls path => (desk, .ok (desk.files.list path))
  | .cat path => (desk, .ok (desk.files.display path))
  | .mkdir name => desk.made ("Created folder: " ++ name) (desk.files.createFolder now none name)
  | .touch name => desk.made ("Created file: " ++ name) (desk.files.createFile now none name "")

/-- Carries out a line. -/
def evaluate (desk : Desk) (now : UInt64) (line : String) : Desk × Except Shell.Failure String :=
  match Shell.Command.ofLine line with
  | .empty => (desk, .ok "")
  | .builtin command => desk.runBuiltin now command
  | .script source =>
    let (desk, text) := Script.evaluate (Desk.host now) desk source
    (desk, .ok text)

end Desk

/-- The name that the layout is kept under. -/
def layoutName : String := "system.desktop"

def Store.saveLayout (store : Store) (d : Desktop Float) (stamp : UInt64) : Except String Store :=
  store.saveAs layoutName Desktop.layoutVersion d.snapshot.toJson stamp

def Store.layoutFrom (source : Source) : Option (Snapshot Float) :=
  let migrate := fromVersionZero Snapshot.ofJson?
  match loadFrom source layoutName Desktop.layoutVersion Snapshot.ofJson? migrate with
  | .ok snapshot => snapshot
  | .error _ => none

def Store.loadLayout (store : Store) : Option (Snapshot Float) := layoutFrom store.load

namespace Desk

def save (desk : Desk) (store : Store) (stamp : UInt64) : Except String Store :=
  store.saveLayout desk.scene.desktop stamp

/-- Takes over the layout that there is in a source, if there is one. -/
def restoreFrom (desk : Desk) (now : UInt64) (source : Store.Source) : Desk × Bool :=
  match Store.layoutFrom source with
  | some snapshot => (desk.act now (.restore snapshot), true)
  | none => (desk, false)

def restore (desk : Desk) (now : UInt64) (store : Store) : Desk × Bool := desk.restoreFrom now store.load

/-- The window that an effect wants the input focus in. -/
def focusRequest? : Effect → Option String
  | .focusInput window => some window
  | .save => none

/-- Carries out the effects that wait. However many of them want saving, the layout is saved once,
    as it is now, and a store that fails is passed over. Gives the windows that want the input
    focus, in order. -/
def runEffects (desk : Desk) (store : Store) (stamp : UInt64) : Desk × Store × List String :=
  let (desk, effects) := desk.takeEffects
  let kept :=
    if effects.contains .save then
      match desk.save store stamp with
      | .ok saved => saved
      | .error _ => store
    else store
  (desk, kept, effects.filterMap focusRequest?)

end Desk

end DesktopShell
