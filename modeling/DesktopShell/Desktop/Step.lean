import DesktopShell.Desktop.State
import DesktopShell.Sequence

/-!
# Steps of the desktop

What each action does. An action that names an unknown window or application
changes nothing and asks for nothing. The scene is the desktop together with the
gestures under way; `Scene.step` is the only way in which a scene changes. A snapshot
comes from outside and may disagree with itself: when it is taken over, closed windows
are left out, one focus is kept, and the counters move past what the snapshot uses.
-/
namespace DesktopShell.Restore
variable {α : Type}

/-- The number in a window's id, if it is one that the desktop hands out. -/
def windowNumber? (id : String) : Option Nat :=
  match id.toList with
  | 'w' :: 'i' :: 'n' :: '-' :: '+' :: digits => Number.word? 10 digits
  | 'w' :: 'i' :: 'n' :: '-' :: digits => Number.word? 10 digits
  | _ => none

def largest (numbers : List Nat) : Nat := numbers.foldl max 0

/-- The window number after every number that the windows use. -/
def windowsAfter (windows : List (Window α)) : UInt64 :=
  Counter.next (UInt64.ofNat (largest (windows.filterMap fun w => windowNumber? w.id)))

/-- The topmost of some windows, of several equally high the last. -/
def topmost? : List (Window α) → Option (Window α)
  | [] => none
  | w :: rest => match topmost? rest with
    | some best => if w.z ≤ best.z then some best else some w
    | none => some w

/-- The id of the window that keeps the focus: of those that have it and are not minimized
    the topmost. -/
def keeper? (windows : List (Window α)) : Option String :=
  (topmost? (windows.filter fun w => w.focused && !w.isMinimized)).map (·.id)

/-- The windows with the focus on those with one id only. -/
def focusOnly (id : Option String) (windows : List (Window α)) : List (Window α) :=
  windows.map fun w => { w with focused := id = some w.id }

/-- The z value after every one that a snapshot uses, its closed windows included. -/
def zAfter (snapshot : Snapshot α) : UInt64 :=
  match (snapshot.windows.map (·.z)).max? with
  | some z => max snapshot.nextZ (Counter.next z)
  | none => snapshot.nextZ

def windows (snapshot : Snapshot α) : List (Window α) :=
  let live := snapshot.windows.filter (·.isLive)
  focusOnly (keeper? live) live

/-- A desktop after taking over a snapshot; its applications stay. -/
def into (d : Desktop α) (snapshot : Snapshot α) : Desktop α :=
  { d with
    nextWindow := max d.nextWindow (windowsAfter (windows snapshot))
    nextZ := zAfter snapshot
    windows := windows snapshot
    icons := snapshot.icons
    background := snapshot.background }

end DesktopShell.Restore

namespace DesktopShell

namespace Desktop
variable {α : Type}

def change (d : Desktop α) (id : String) (f : Window α → Window α) : Desktop α :=
  { d with windows := changeFirst (fun w => w.id = id) f d.windows }

def remove (d : Desktop α) (id : String) : Desktop α :=
  { d with windows := d.windows.eraseP fun w => w.id = id }

def unfocus (d : Desktop α) : Desktop α :=
  { d with windows := d.windows.map fun w => { w with focused := false } }

/-- The desktop with a window shown, on top and in focus, and no other in focus. -/
def raise (d : Desktop α) (id : String) : Desktop α :=
  { d with
    nextZ := Counter.next d.nextZ
    windows := d.windows.map fun w =>
      if w.id = id then { w with status := .shown, focused := true, z := d.nextZ }
      else { w with focused := false } }

def nextWindowId (d : Desktop α) : String := Counter.label "win" d.nextWindow

/-- The window that is opened next for an application; only an object can be its data. -/
def newWindow [Coordinate α] (d : Desktop α) (defaults : Defaults α) (now : UInt64) (app : App)
    (data : Option Json) : Window α :=
  { id := d.nextWindowId
    title := app.name
    app := app.id
    kind := app.kind
    rect := Placement.cascade defaults d.windows.length
    status := .shown
    z := d.nextZ
    openedAt := now
    focused := true
    data := match data with
      | some (.object fields) => .object fields
      | _ => .empty }

/-- The desktop with a new window on top and in focus; other windows keep their focus. -/
def addWindow [Coordinate α] (d : Desktop α) (defaults : Defaults α) (now : UInt64) (app : App)
    (data : Option Json) : Desktop α :=
  { d with
    nextWindow := Counter.next d.nextWindow
    nextZ := Counter.next d.nextZ
    windows := d.windows ++ [d.newWindow defaults now app data] }

/-- The first id from a number on that no application has, and the number after it. With as many
    tries as there are applications and one more, one of the ids is free. -/
def freshAppId (apps : List App) : Nat → UInt64 → String × UInt64
  | 0, n => (Counter.label "app" n, Counter.next n)
  | tries + 1, n =>
    let id := Counter.label "app" n
    if (findApp? apps id).isSome then freshAppId apps tries (Counter.next n)
    else (id, Counter.next n)

/-- The id of the application that is installed next, and the number after it. -/
def nextAppId (d : Desktop α) : String × UInt64 := freshAppId d.apps d.apps.length d.nextApp

def addApp [Coordinate α] (d : Desktop α) (new : NewApp) : Desktop α :=
  let (id, after) := d.nextAppId
  let app : App :=
    { id
      name := new.name
      kind := new.kind
      icon := new.icon
      description := new.description
      executable := new.executable
      installed := true
      multiWindow := new.multiWindow
      onDesktop := true }
  { d with
    nextApp := after
    nextIcon := Counter.next d.nextIcon
    apps := d.apps ++ [app]
    icons := d.icons ++ [Placement.below d.icons d.nextIcon id] }

def removeApp (d : Desktop α) (app : String) : Desktop α :=
  { d with
    apps := d.apps.filter fun a => a.id ≠ app
    icons := d.icons.filter fun icon => icon.app ≠ app
    windows := d.windows.filter fun w => w.app ≠ app }

def windowsOf (d : Desktop α) (app : String) : List String :=
  (d.windows.filter fun w => w.app = app).map (·.id)

/-- The window that an application with one window at a time has already. -/
def onlyWindow? (d : Desktop α) (app : App) : Option (Window α) :=
  if app.multiWindow then none else d.windows.find? fun w => w.app = app.id && w.isLive

def hasFocus (d : Desktop α) (id : String) : Bool :=
  match d.window? id with
  | some w => w.focused
  | none => false

end Desktop

def Gestures.without {α : Type} (g : Gestures α) (id : String) : Gestures α :=
  { drag := g.drag.filter fun drag => drag.window ≠ id
    stretch := g.stretch.filter fun stretch => stretch.window ≠ id }

/-- The place of a dragged window: as far from its start as the pointer is from its own. -/
def Drag.placeAt {α : Type} [Coordinate α] (g : Drag α) (pointer : Point α) : Rect α :=
  g.start.offset (pointer.x - g.pointer.x) (pointer.y - g.pointer.y)

/-- The place of a stretched window: stretched from its start by as much as the pointer has moved,
    and held at the least size. -/
def Stretch.placeAt {α : Type} [Coordinate α] (g : Stretch α) (defaults : Defaults α)
    (pointer : Point α) : Rect α :=
  let stretched := g.start.stretch g.edge (pointer.x - g.pointer.x) (pointer.y - g.pointer.y)
  g.start.settle g.edge stretched defaults.minWidth defaults.minHeight

/-- A desktop and the gestures under way on it. -/
structure Scene (α : Type) where
  desktop : Desktop α
  gestures : Gestures α

namespace Scene
variable {α : Type}

/-- The scene after a change of the desktop that wants saving. -/
def saved (s : Scene α) (desktop : Desktop α) : Scene α × List Effect :=
  ({ s with desktop }, [.save])

def unchanged (s : Scene α) : Scene α × List Effect := (s, [])

/-- A change of the first window with an id, when there is one. -/
def edit (s : Scene α) (id : String) (f : Window α → Window α) : Scene α × List Effect :=
  if s.desktop.hasWindow id then s.saved (s.desktop.change id f) else s.unchanged

/-- Shows a window, raises it and gives it the focus. -/
def focus (s : Scene α) (id : String) : Scene α × List Effect :=
  if s.desktop.hasWindow id then
    ({ s with desktop := s.desktop.raise id }, [.save, .focusInput id])
  else s.unchanged

/-- Minimizes a window, which loses the focus. -/
def minimize (s : Scene α) (id : String) : Scene α × List Effect :=
  s.edit id fun w => { w with status := .minimized, focused := false }

/-- Closes a window; no window keeps the focus, and gestures on the window end. -/
def close (s : Scene α) (id : String) : Scene α × List Effect :=
  if s.desktop.hasWindow id then
    ({ desktop := (s.desktop.remove id).unfocus, gestures := s.gestures.without id }, [.save])
  else s.unchanged

/-- The button of the task bar minimizes the window in front and brings any other to the front. -/
def toggle (s : Scene α) (id : String) : Scene α × List Effect :=
  match s.desktop.window? id with
  | none => s.unchanged
  | some w => if w.focused && !w.isMinimized then s.minimize id else s.focus id

/-- Sets fields of a window's data; only an object says which. -/
def setData (s : Scene α) (id : String) (patch : Json) : Scene α × List Effect :=
  match patch with
  | .object fields => s.edit id fun w => { w with data := w.data.patched fields }
  | _ => s.unchanged

/-- Opens a window, or focuses the one that an application with one window at a time has. -/
def openApp [Coordinate α] (s : Scene α) (defaults : Defaults α) (now : UInt64) (id : String)
    (data : Option Json) : Scene α × List Effect :=
  match s.desktop.app? id with
  | none => s.unchanged
  | some app =>
    match s.desktop.onlyWindow? app with
    | some w => s.focus w.id
    | none =>
      ({ s with desktop := s.desktop.unfocus.addWindow defaults now app data },
        [.save, .focusInput s.desktop.nextWindowId])

/-- Begins to drag a window, which is brought to the front. -/
def beginDrag (s : Scene α) (id : String) (pointer : Point α) : Scene α × List Effect :=
  match s.desktop.window? id with
  | none => s.unchanged
  | some w =>
    let (front, effects) := s.focus id
    let drag : Drag α := { window := id, pointer, start := w.rect }
    ({ front with gestures := { front.gestures with drag := some drag } }, effects)

/-- Puts the dragged window where the pointer takes it. -/
def dragTo [Coordinate α] (s : Scene α) (pointer : Point α) : Scene α × List Effect :=
  match s.gestures.drag with
  | none => s.unchanged
  | some drag =>
    let place := drag.placeAt pointer
    ({ s with desktop := s.desktop.change drag.window fun w => { w with rect := place } }, [])

def endDrag (s : Scene α) : Scene α × List Effect :=
  match s.gestures.drag with
  | none => s.unchanged
  | some _ => ({ s with gestures := { s.gestures with drag := none } }, [.save])

/-- Begins to stretch a window, which is brought to the front. -/
def beginStretch (s : Scene α) (id : String) (edge : Edge) (pointer : Point α) :
    Scene α × List Effect :=
  match s.desktop.window? id with
  | none => s.unchanged
  | some w =>
    let (front, effects) := s.focus id
    let stretch : Stretch α := { window := id, edge, pointer, start := w.rect }
    ({ front with gestures := { front.gestures with stretch := some stretch } }, effects)

/-- Gives the stretched window the place that the pointer drags it to. -/
def stretchTo [Coordinate α] (s : Scene α) (defaults : Defaults α) (pointer : Point α) :
    Scene α × List Effect :=
  match s.gestures.stretch with
  | none => s.unchanged
  | some stretch =>
    let place := stretch.placeAt defaults pointer
    ({ s with desktop := s.desktop.change stretch.window fun w => { w with rect := place } }, [])

def endStretch (s : Scene α) : Scene α × List Effect :=
  match s.gestures.stretch with
  | none => s.unchanged
  | some _ => ({ s with gestures := { s.gestures with stretch := none } }, [.save])

/-- Removes an application with its icons and windows; gestures on the windows end, and when one
    of them had the focus, no window keeps it. -/
def uninstall (s : Scene α) (app : String) : Scene α × List Effect :=
  match s.desktop.app? app with
  | none => s.unchanged
  | some _ =>
    let removed := s.desktop.windowsOf app
    let rest := s.desktop.removeApp app
    let hadFocus := removed.any s.desktop.hasFocus
    ({ desktop := if hadFocus then rest.unfocus else rest
       gestures := removed.foldl Gestures.without s.gestures }, [.save])

/-- Sets the background, when it is another one. -/
def setBackground (s : Scene α) (background : Option String) : Scene α × List Effect :=
  if s.desktop.background = background then s.unchanged
  else s.saved { s.desktop with background }

/-- What an action does at a time, and what it asks for. -/
def step [Coordinate α] (defaults : Defaults α) (now : UInt64) (s : Scene α) :
    Action α → Scene α × List Effect
  | .openApp app data => s.openApp defaults now app data
  | .close id => s.close id
  | .focus id => s.focus id
  | .minimize id => s.minimize id
  | .move id x y => s.edit id fun w => { w with rect := { w.rect with x, y } }
  | .resize id width height => s.edit id fun w => { w with rect := { w.rect with width, height } }
  | .setData id patch => s.setData id patch
  | .toggle id => s.toggle id
  | .beginDrag id pointer => s.beginDrag id pointer
  | .dragTo pointer => s.dragTo pointer
  | .endDrag => s.endDrag
  | .beginStretch id edge pointer => s.beginStretch id edge pointer
  | .stretchTo pointer => s.stretchTo defaults pointer
  | .endStretch => s.endStretch
  | .install app => s.saved (s.desktop.addApp app)
  | .uninstall app => s.uninstall app
  | .setBackground background => s.setBackground background
  | .restore snapshot =>
    ({ desktop := Restore.into s.desktop snapshot, gestures := Gestures.none }, [])

end Scene

end DesktopShell
