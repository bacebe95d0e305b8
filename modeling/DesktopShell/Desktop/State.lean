import DesktopShell.Document
import DesktopShell.Geometry
import DesktopShell.Number

/-!
# The desktop

Applications, windows and icons, and the counters that name the next ones. The
windows stand in the order in which they were opened; which of them is on top is
said by their z values. New windows cascade from an origin, and icons stand in one
column, each below the lowest. Then what can be done to a desktop, by a control or by
a script, and what a step asks of its surroundings: a gesture lasts over several
actions and remembers how things stood when it began. A snapshot is the part of a
desktop that is saved, as a JSON record; in it a coordinate that is not finite is
written as null and does not read back.
-/
namespace DesktopShell

/-- What sort of application runs in a window. -/
inductive AppKind where
  | terminal
  | studio
  | files
  | browser
  | store
  | properties
  | custom
deriving Repr, DecidableEq

namespace AppKind

def all : List AppKind := [.terminal, .studio, .files, .browser, .store, .properties, .custom]

def name : AppKind → String
  | .terminal => "terminal"
  | .studio => "vs-studio"
  | .files => "files"
  | .browser => "browser"
  | .store => "web-store"
  | .properties => "properties"
  | .custom => "custom"

def ofName? (s : String) : Option AppKind := all.find? fun kind => kind.name = s

theorem ofName?_name (kind : AppKind) : ofName? kind.name = some kind := by
  cases kind <;> decide

end AppKind

structure App where
  id : String
  name : String
  kind : AppKind
  icon : String
  description : String
  executable : String
  installed : Bool
  /-- Several windows of the application may be open at a time. -/
  multiWindow : Bool
  /-- The application has an icon on the desktop when the desktop starts. -/
  onDesktop : Bool
deriving Repr, DecidableEq

/-- What an installation says of an application; its id is assigned. -/
structure NewApp where
  name : String
  kind : AppKind
  icon : String
  description : String
  executable : String
  multiWindow : Bool
deriving Repr, DecidableEq

/-- The application with an id, the first one if there are several. -/
def findApp? (apps : List App) (id : String) : Option App := apps.find? fun app => app.id = id

section
variable {V : Type} [Format V]

/-- Reads an application; one that does not say so is not installed, has one window
    at a time and an icon. -/
def App.reader : Reader V App := do
  let id ← .required "id" Format.text?
  let name ← .required "name" Format.text?
  let kind ← .required "type" (Format.named? AppKind.ofName?)
  let icon ← .required "icon" Format.text?
  let description ← .required "description" Format.text?
  let executable ← .required "executable" Format.text?
  let installed ← .withDefault "installed" false Format.flag?
  let multiWindow ← .withDefault "can_multi_instance" false Format.flag?
  let onDesktop ← .withDefault "show_on_desktop" true Format.flag?
  return { id, name, kind, icon, description, executable, installed, multiWindow, onDesktop }

def NewApp.reader : Reader V NewApp := do
  let name ← .required "name" Format.text?
  let kind ← .required "type" (Format.named? AppKind.ofName?)
  let icon ← .required "icon" Format.text?
  let description ← .required "description" Format.text?
  let executable ← .required "executable" Format.text?
  let multiWindow ← .required "can_multi_instance" Format.flag?
  return { name, kind, icon, description, executable, multiWindow }

end

def App.toJson (app : App) : Json :=
  .object [("id", .text app.id), ("name", .text app.name), ("type", .text app.kind.name),
    ("icon", .text app.icon), ("description", .text app.description),
    ("executable", .text app.executable), ("installed", .flag app.installed),
    ("can_multi_instance", .flag app.multiWindow), ("show_on_desktop", .flag app.onDesktop)]

/-- Whether a window shows. -/
inductive Status where
  | shown
  | minimized
  | closed
deriving Repr, DecidableEq

namespace Status

def name : Status → String
  | .shown => "open"
  | .minimized => "minimized"
  | .closed => "closed"

def ofName? (s : String) : Option Status :=
  [shown, minimized, closed].find? fun status => status.name = s

theorem ofName?_name (status : Status) : ofName? status.name = some status := by
  cases status <;> decide

end Status

structure Window (α : Type) where
  id : String
  title : String
  app : String
  kind : AppKind
  rect : Rect α
  status : Status
  z : UInt64
  /-- When the window was opened, in milliseconds. -/
  openedAt : UInt64
  focused : Bool
  /-- What the application keeps in the window. -/
  data : Json

/-- An icon on the desktop. -/
structure Icon (α : Type) where
  id : String
  app : String
  x : α
  y : α
  /-- The rank that the icon was given when it was placed. -/
  order : UInt64

def Window.isMinimized {α : Type} (w : Window α) : Bool := w.status = .minimized

def Window.isLive {α : Type} (w : Window α) : Bool := w.status ≠ .closed

/-- The line that a listing has for a window. -/
def Window.summary (w : Window Float) : String :=
  let place := Number.text w.rect.x ++ "," ++ Number.text w.rect.y
  let size := Number.text w.rect.width ++ "x" ++ Number.text w.rect.height
  w.id ++ ": " ++ w.title ++ " (" ++ place ++ ") " ++ size ++ " [" ++ w.status.name ++ "]"

structure Desktop (α : Type) where
  nextWindow : UInt64
  nextZ : UInt64
  nextApp : UInt64
  nextIcon : UInt64
  windows : List (Window α)
  apps : List App
  icons : List (Icon α)
  background : Option String

/-- The part of a desktop that is saved. -/
structure Snapshot (α : Type) where
  schema : UInt32
  windows : List (Window α)
  icons : List (Icon α)
  nextZ : UInt64
  background : Option String

namespace Desktop
variable {α : Type}

def empty : Desktop α :=
  { nextWindow := 1, nextZ := 100, nextApp := 1, nextIcon := 1
    windows := [], apps := [], icons := [], background := none }

/-- The window with an id, the first one if there are several. -/
def window? (d : Desktop α) (id : String) : Option (Window α) := d.windows.find? fun w => w.id = id

def hasWindow (d : Desktop α) (id : String) : Bool := d.windows.any fun w => w.id = id

/-- The desktop has a window with an id, and it is not closed. -/
def isLive (d : Desktop α) (id : String) : Bool :=
  match d.window? id with
  | some w => w.isLive
  | none => false

/-- The id of the first window that has the focus. -/
def focused? (d : Desktop α) : Option String := (d.windows.find? fun w => w.focused).map (·.id)

def app? (d : Desktop α) (id : String) : Option App := findApp? d.apps id

/-- The version of the layout that snapshots are made in. -/
def layoutVersion : UInt32 := 1

def snapshot (d : Desktop α) : Snapshot α :=
  { schema := layoutVersion, windows := d.windows, icons := d.icons
    nextZ := d.nextZ, background := d.background }

end Desktop

/-- The sizes and places that windows start with. -/
structure Defaults (α : Type) where
  width : α
  height : α
  minWidth : α
  minHeight : α
  /-- The z value of the first window. -/
  firstZ : UInt64
  originX : α
  originY : α
  /-- How far each window is moved against the one before. -/
  step : α
deriving Repr, DecidableEq

namespace Placement
variable {α : Type} [Coordinate α]

/-- The place of a new window when a number of windows is there already. -/
def cascade (defaults : Defaults α) (count : Nat) : Rect α :=
  let shift := Coordinate.ofCount count * defaults.step
  { x := defaults.originX + shift
    y := defaults.originY + shift
    width := defaults.width
    height := defaults.height }

def columnX : α := Coordinate.ofCount 20

/-- The vertical place of the icon with a rank when the desktop starts. -/
def columnY (order : UInt64) : α :=
  Coordinate.ofCount 20 + Coordinate.ofCount 120 * Coordinate.ofCount order.toNat

/-- Icons for applications from a rank and an icon number on, and the number after the last. -/
def column (order next : UInt64) : List String → List (Icon α) × UInt64
  | [] => ([], next)
  | app :: rest =>
    let (icons, after) := column (order + 1) (Counter.next next) rest
    let icon : Icon α :=
      { id := Counter.label "icon" next
        app
        x := columnX
        y := columnY order
        order }
    (icon :: icons, after)

/-- The lowest place that an icon has, the top of the desktop if there is none. -/
def lowest (icons : List (Icon α)) : α :=
  icons.foldl (fun y icon => Coordinate.larger y icon.y) (Coordinate.ofCount 0)

/-- The icon of a newly installed application, one row below the lowest. -/
def below (icons : List (Icon α)) (next : UInt64) (app : String) : Icon α :=
  { id := Counter.label "icon" next
    app
    x := columnX
    y := lowest icons + Coordinate.ofCount 120
    order := UInt64.ofNat icons.length }

end Placement

/-- A window that follows the pointer. -/
structure Drag (α : Type) where
  window : String
  /-- Where the pointer was at the beginning. -/
  pointer : Point α
  /-- Where the window was at the beginning. -/
  start : Rect α

/-- A window whose edge or corner follows the pointer. -/
structure Stretch (α : Type) where
  window : String
  edge : Edge
  pointer : Point α
  start : Rect α

structure Gestures (α : Type) where
  drag : Option (Drag α)
  stretch : Option (Stretch α)

def Gestures.none {α : Type} : Gestures α := { drag := Option.none, stretch := Option.none }

/-- What can be done to the desktop. -/
inductive Action (α : Type) where
  /-- Open a window of an application, or focus the one window that it may have. -/
  | openApp (app : String) (data : Option Json)
  | close (window : String)
  /-- Show a window, raise it and give it the focus. -/
  | focus (window : String)
  | minimize (window : String)
  | move (window : String) (x y : α)
  | resize (window : String) (width height : α)
  /-- Set fields of a window's data. -/
  | setData (window : String) (patch : Json)
  /-- Press the button of a window in the task bar. -/
  | toggle (window : String)
  | beginDrag (window : String) (pointer : Point α)
  | dragTo (pointer : Point α)
  | endDrag
  | beginStretch (window : String) (edge : Edge) (pointer : Point α)
  | stretchTo (pointer : Point α)
  | endStretch
  | install (app : NewApp)
  | uninstall (app : String)
  | setBackground (background : Option String)
  | restore (snapshot : Snapshot α)

/-- What a step asks of the surroundings of the desktop. -/
inductive Effect where
  /-- The layout has changed and wants saving. -/
  | save
  /-- The input focus belongs in a window. -/
  | focusInput (window : String)
deriving Repr, DecidableEq

/-- A window as a record, its place among its other fields. -/
def Window.toJson (w : Window Float) : Json :=
  .object [("id", .text w.id), ("title", .text w.title), ("app_id", .text w.app),
    ("app_type", .text w.kind.name), ("x", .ofFloat w.rect.x), ("y", .ofFloat w.rect.y),
    ("width", .ofFloat w.rect.width), ("height", .ofFloat w.rect.height),
    ("status", .text w.status.name), ("z_index", .ofWord w.z),
    ("start_time_unix_ms", .ofWord w.openedAt), ("focused", .flag w.focused), ("data", w.data)]

def Icon.toJson (icon : Icon Float) : Json :=
  .object [("id", .text icon.id), ("app_id", .text icon.app), ("x", .ofFloat icon.x),
    ("y", .ofFloat icon.y), ("order", .ofWord icon.order)]

def Snapshot.toJson (s : Snapshot Float) : Json :=
  .object [("schema_version", .whole s.schema.toNat),
    ("windows", .list (s.windows.map Window.toJson)),
    ("desktop_icons", .list (s.icons.map Icon.toJson)), ("next_z_index", .ofWord s.nextZ),
    ("background", .ofText? s.background)]

/-- Reads a window; one without data has an empty object. -/
def Window.reader : Reader Json (Window Float) := do
  let id ← .required "id" Format.text?
  let title ← .required "title" Format.text?
  let app ← .required "app_id" Format.text?
  let kind ← .required "app_type" (Format.named? AppKind.ofName?)
  let x ← .required "x" Format.float?
  let y ← .required "y" Format.float?
  let width ← .required "width" Format.float?
  let height ← .required "height" Format.float?
  let status ← .required "status" (Format.named? Status.ofName?)
  let z ← .required "z_index" Format.word?
  let openedAt ← .required "start_time_unix_ms" Format.word?
  let focused ← .required "focused" Format.flag?
  let data ← .withDefault "data" .empty some
  return { id, title, app, kind, rect := { x, y, width, height }, status, z, openedAt, focused, data }

/-- Reads a window from JSON, where its fields have to have names. -/
def Window.ofJson? (value : Json) : Option (Window Float) := Window.reader.namedRecord? value

def Icon.reader : Reader Json (Icon Float) := do
  let id ← .required "id" Format.text?
  let app ← .required "app_id" Format.text?
  let x ← .required "x" Format.float?
  let y ← .required "y" Format.float?
  let order ← .required "order" Format.word?
  return { id, app, x, y, order }

/-- Reads a snapshot, its version whatever it is. -/
def Snapshot.reader : Reader Json (Snapshot Float) := do
  let schema ← .required "schema_version" Format.version?
  let windows ← .required "windows" (Format.listOf? Window.ofJson?)
  let icons ← .required "desktop_icons" (Format.listOf? Icon.reader.record?)
  let nextZ ← .required "next_z_index" Format.word?
  let background ← .nullable "background" Format.text?
  return { schema, windows, icons, nextZ, background }

def Desktop.reader : Reader Json (Desktop Float) := do
  let nextWindow ← .required "next_window_id" Format.word?
  let nextZ ← .required "next_z_index" Format.word?
  let nextApp ← .required "next_app_id" Format.word?
  let nextIcon ← .required "next_icon_id" Format.word?
  let windows ← .required "windows" (Format.listOf? Window.ofJson?)
  let apps ← .required "apps" (Format.listOf? App.reader.record?)
  let icons ← .required "desktop_icons" (Format.listOf? Icon.reader.record?)
  let background ← .nullable "background" Format.text?
  return { nextWindow, nextZ, nextApp, nextIcon, windows, apps, icons, background }

def Snapshot.ofJson? (value : Json) : Option (Snapshot Float) := Snapshot.reader.record? value

def Desktop.ofJson? (value : Json) : Option (Desktop Float) := Desktop.reader.record? value

end DesktopShell
