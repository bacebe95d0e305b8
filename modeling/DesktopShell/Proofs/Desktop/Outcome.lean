import DesktopShell.Desktop.Step

/-!
# What a step comes to

The outcomes that an action can have, each with what it asks for. Every step has
one of them (`Scene.step_outcome`), so what steps keep is seen outcome by outcome
and no operation has to be opened again.
-/
namespace DesktopShell

/-- A window after it is minimized. -/
def Window.hidden {α : Type} (w : Window α) : Window α := { w with status := .minimized, focused := false }

/-- No gesture is under way. -/
def Gestures.Idle {α : Type} (g : Gestures α) : Prop := g.drag = Option.none ∧ g.stretch = Option.none

/-- The action takes over a snapshot. -/
def Action.isRestore {α : Type} : Action α → Bool
  | .restore _ => true
  | _ => false

/-- The action carries on a gesture, if one is under way. -/
def Action.followsPointer {α : Type} : Action α → Bool
  | .dragTo _ => true
  | .stretchTo _ => true
  | _ => false

/-- Two desktops with the same applications and icons, which also number the next ones alike. -/
structure Desktop.SameCatalogue {α : Type} (d next : Desktop α) : Prop where
  apps : next.apps = d.apps
  icons : next.icons = d.icons
  nextApp : next.nextApp = d.nextApp
  nextIcon : next.nextIcon = d.nextIcon

theorem Desktop.hasWindow_of_window? {α : Type} {d : Desktop α} {id : String} {w : Window α}
    (found : d.window? id = some w) : d.hasWindow id = true := by
  unfold Desktop.window? at found
  have named := List.find?_some found
  exact List.any_eq_true.mpr ⟨w, List.mem_of_find?_eq_some found, named⟩

/-- Where no window is closed, every window is live. -/
theorem Desktop.isLive_of_mem {α : Type} {d : Desktop α} (live : ∀ w ∈ d.windows, w.status ≠ .closed) {w : Window α}
    (member : w ∈ d.windows) : d.isLive w.id = true := by
  cases found : d.window? w.id with
  | none => exact absurd (decide_eq_true rfl) (List.find?_eq_none.mp found w member)
  | some v => simp [Desktop.isLive, found, Window.isLive, live v (List.mem_of_find?_eq_some found)]

namespace Scene
variable {α : Type}

/-- The place that a step computes for a window, if it computes one: where a new window opens, and
    where a gesture takes its window. -/
def computed? [Coordinate α] (defaults : Defaults α) (s : Scene α) : Action α → Option (Rect α)
  | .openApp app _ => (s.desktop.app? app).bind fun app =>
      match s.desktop.onlyWindow? app with
      | some _ => none
      | none => some (Placement.cascade defaults s.desktop.windows.length)
  | .dragTo pointer => s.gestures.drag.map fun drag => drag.placeAt pointer
  | .stretchTo pointer => s.gestures.stretch.map fun stretch => stretch.placeAt defaults pointer
  | _ => none

/-- The outcomes of a step: the scene after it and what it asks for. -/
inductive Outcome [Coordinate α] (defaults : Defaults α) (now : UInt64) (s : Scene α) :
    Action α → Scene α × List Effect → Prop
  /-- The action finds nothing to do. -/
  | idle {action} : action.isRestore = false → Outcome defaults now s action s.unchanged
  | move (id x y) :
      Outcome defaults now s (.move id x y)
        (s.saved (s.desktop.change id fun w => { w with rect := { w.rect with x, y } }))
  | resize (id width height) :
      Outcome defaults now s (.resize id width height)
        (s.saved (s.desktop.change id fun w => { w with rect := { w.rect with width, height } }))
  | setData (id fields) :
      Outcome defaults now s (.setData id (.object fields))
        (s.saved (s.desktop.change id fun w => { w with data := w.data.patched fields }))
  | hide {action} (id) : action.isRestore = false →
      Outcome defaults now s action (s.saved (s.desktop.change id Window.hidden))
  /-- A window comes to the front, and a gesture may begin on it. -/
  | front {action} (id gestures) : action.isRestore = false → s.desktop.hasWindow id = true →
      Outcome defaults now s action ({ desktop := s.desktop.raise id, gestures }, [.save, .focusInput id])
  | close (id) :
      Outcome defaults now s (.close id)
        ({ desktop := (s.desktop.remove id).unfocus, gestures := s.gestures.without id }, [.save])
  | add (id app data) : s.desktop.app? id = some app →
      s.computed? defaults (.openApp id data) = some (Placement.cascade defaults s.desktop.windows.length) →
      Outcome defaults now s (.openApp id data)
        ({ s with desktop := s.desktop.unfocus.addWindow defaults now app data },
          [.save, .focusInput s.desktop.nextWindowId])
  /-- A window follows the pointer in a gesture. -/
  | follow {action} (id place) : action.isRestore = false → ¬ s.gestures.Idle →
      s.computed? defaults action = some place →
      Outcome defaults now s action
        ({ s with desktop := s.desktop.change id fun w => { w with rect := place } }, [])
  /-- A gesture ends. -/
  | rest {action} (gestures) : action.isRestore = false →
      Outcome defaults now s action ({ s with gestures }, [.save])
  | install (new) : Outcome defaults now s (.install new) (s.saved (s.desktop.addApp new))
  /-- An application goes with its windows, and the focus may go with them. -/
  | uninstall (app) (clears : Bool) :
      Outcome defaults now s (.uninstall app)
        ({ desktop := if clears then (s.desktop.removeApp app).unfocus else s.desktop.removeApp app
           gestures := (s.desktop.windowsOf app).foldl Gestures.without s.gestures }, [.save])
  | background (background) :
      Outcome defaults now s (.setBackground background) (s.saved { s.desktop with background })
  | restore (snapshot) :
      Outcome defaults now s (.restore snapshot)
        ({ desktop := Restore.into s.desktop snapshot, gestures := Gestures.none }, [])

section
variable [Coordinate α] {defaults : Defaults α} {now : UInt64} (s : Scene α)

private theorem minimize_outcome {action : Action α} (plain : action.isRestore = false) (id : String) :
    Outcome defaults now s action (s.minimize id) := by
  unfold minimize edit
  split
  · exact .hide id plain
  · exact .idle plain

private theorem focus_outcome {action : Action α} (plain : action.isRestore = false) (id : String) :
    Outcome defaults now s action (s.focus id) := by
  unfold focus
  split
  · rename_i present
    exact .front id s.gestures plain present
  · exact .idle plain

private theorem toggle_outcome (id : String) : Outcome defaults now s (.toggle id) (s.toggle id) := by
  unfold toggle
  split
  · exact .idle rfl
  · split
    · exact minimize_outcome s rfl id
    · exact focus_outcome s rfl id

private theorem setData_outcome (id : String) (patch : Json) :
    Outcome defaults now s (.setData id patch) (s.setData id patch) := by
  unfold setData
  split
  · unfold edit
    split
    · exact .setData id _
    · exact .idle rfl
  · exact .idle rfl

private theorem openApp_outcome (id : String) (data : Option Json) :
    Outcome defaults now s (.openApp id data) (s.openApp defaults now id data) := by
  unfold openApp
  split
  · exact .idle rfl
  · rename_i app found
    split
    · exact focus_outcome s rfl _
    · rename_i unopened
      exact .add id app data found (by simp [computed?, found, unopened])

private theorem beginDrag_outcome (id : String) (pointer : Point α) :
    Outcome defaults now s (.beginDrag id pointer) (s.beginDrag id pointer) := by
  unfold beginDrag
  split
  · exact .idle rfl
  · rename_i w found
    have present := Desktop.hasWindow_of_window? found
    simp only [focus, present, if_true]
    exact .front id _ rfl present

private theorem dragTo_outcome (pointer : Point α) :
    Outcome defaults now s (.dragTo pointer) (s.dragTo pointer) := by
  unfold dragTo
  split
  · exact .idle rfl
  · rename_i drag active
    exact .follow drag.window _ rfl (fun idle => by simp [idle.1] at active) (by simp [computed?, active])

private theorem beginStretch_outcome (id : String) (edge : Edge) (pointer : Point α) :
    Outcome defaults now s (.beginStretch id edge pointer) (s.beginStretch id edge pointer) := by
  unfold beginStretch
  split
  · exact .idle rfl
  · rename_i w found
    have present := Desktop.hasWindow_of_window? found
    simp only [focus, present, if_true]
    exact .front id _ rfl present

private theorem stretchTo_outcome (pointer : Point α) :
    Outcome defaults now s (.stretchTo pointer) (s.stretchTo defaults pointer) := by
  unfold stretchTo
  split
  · exact .idle rfl
  · rename_i stretch active
    exact .follow stretch.window _ rfl (fun idle => by simp [idle.2] at active) (by simp [computed?, active])

private theorem uninstall_outcome (app : String) :
    Outcome defaults now s (.uninstall app) (s.uninstall app) := by
  unfold uninstall
  split
  · exact .idle rfl
  · exact .uninstall app _

/-- Every step has one of the outcomes. -/
theorem step_outcome (action : Action α) : Outcome defaults now s action (s.step defaults now action) := by
  cases action with
  | openApp app data => exact openApp_outcome s app data
  | close id =>
    simp only [step, close]
    split
    · exact .close id
    · exact .idle rfl
  | focus id => exact focus_outcome s rfl id
  | minimize id => exact minimize_outcome s rfl id
  | move id x y =>
    simp only [step, edit]
    split
    · exact .move id x y
    · exact .idle rfl
  | resize id width height =>
    simp only [step, edit]
    split
    · exact .resize id width height
    · exact .idle rfl
  | setData id patch => exact setData_outcome s id patch
  | toggle id => exact toggle_outcome s id
  | beginDrag id pointer => exact beginDrag_outcome s id pointer
  | dragTo pointer => exact dragTo_outcome s pointer
  | endDrag =>
    simp only [step, endDrag]
    split
    · exact .idle rfl
    · exact .rest _ rfl
  | beginStretch id edge pointer => exact beginStretch_outcome s id edge pointer
  | stretchTo pointer => exact stretchTo_outcome s pointer
  | endStretch =>
    simp only [step, endStretch]
    split
    · exact .idle rfl
    · exact .rest _ rfl
  | install app => exact .install app
  | uninstall app => exact uninstall_outcome s app
  | setBackground background =>
    simp only [step, setBackground]
    split
    · exact .idle rfl
    · exact .background background
  | restore snapshot => exact .restore snapshot

end

variable [Coordinate α]

/-- An opening that computes a place for a new window asks for saving. -/
theorem save_of_computed_openApp {defaults : Defaults α} {now : UInt64} {s : Scene α} {app : String}
    {data : Option Json} {place : Rect α} (opens : s.computed? defaults (.openApp app data) = some place) :
    .save ∈ (s.step defaults now (.openApp app data)).2 := by
  obtain ⟨a, found, computed⟩ := Option.bind_eq_some_iff.mp opens
  cases only : s.desktop.onlyWindow? a with
  | none => simp [step, openApp, found, only]
  | some w => simp [only] at computed

/-- A step that takes over no snapshot asks for saving, or changes nothing, or follows the pointer in
    a gesture that goes on. -/
theorem step_saves_or (defaults : Defaults α) (now : UInt64) (s : Scene α) {action : Action α}
    (plain : action.isRestore = false) :
    let after := s.step defaults now action
    .save ∈ after.2 ∨ after.1 = s ∨
      action.followsPointer = true ∧ ¬ s.gestures.Idle ∧ after.1.gestures = s.gestures := by
  have outcome : s.Outcome defaults now action (s.step defaults now action) := s.step_outcome action
  intro after
  have result : s.step defaults now action = after := rfl
  change s.Outcome defaults now action after at outcome
  generalize after = stepped at *
  cases outcome with
  | idle _ => exact .inr (.inl rfl)
  | follow id place _ moving taken =>
    cases action with
    | openApp app data => exact .inl (result ▸ save_of_computed_openApp taken)
    | dragTo pointer => exact .inr (.inr ⟨rfl, moving, rfl⟩)
    | stretchTo pointer => exact .inr (.inr ⟨rfl, moving, rfl⟩)
    | _ => simp [computed?] at taken
  | restore snapshot => simp [Action.isRestore] at plain
  | _ => exact .inl (by simp [saved])

/-- Only an installation, an uninstallation and the taking over of a snapshot reach beyond the
    windows to the applications and the icons. -/
theorem step_catalogue (defaults : Defaults α) (now : UInt64) (s : Scene α) (action : Action α) :
    let next := (s.step defaults now action).1.desktop
    s.desktop.SameCatalogue next ∨
      (∃ new, action = .install new ∧ next = s.desktop.addApp new) ∨
      (∃ app, action = .uninstall app ∧ (s.desktop.removeApp app).SameCatalogue next) ∨
      ∃ snapshot, action = .restore snapshot ∧ next = Restore.into s.desktop snapshot := by
  have outcome : s.Outcome defaults now action (s.step defaults now action) := s.step_outcome action
  generalize s.step defaults now action = after at *
  cases outcome with
  | install new => exact .inr (.inl ⟨new, rfl, rfl⟩)
  | uninstall app clears =>
    refine .inr (.inr (.inl ⟨app, rfl, ?_⟩))
    cases clears <;> exact ⟨rfl, rfl, rfl, rfl⟩
  | restore snapshot => exact .inr (.inr (.inr ⟨snapshot, rfl, rfl⟩))
  | _ => exact .inl ⟨rfl, rfl, rfl, rfl⟩

end Scene

end DesktopShell
