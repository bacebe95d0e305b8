import DesktopShell.Desk
import DesktopShell.Proofs.Desktop.Outcome
import Mathlib.Data.List.Nodup

/-!
# Turns and runs of the desktop

What one action can do to the windows of a desktop and to its counters, taking
over a snapshot apart. Every action makes one of seven turns (`step_turn`), so
that a property of the windows is kept by all actions when the seven turns keep it.
The scenes that actions lead to from the start of a configuration make a run, told by
which actions it may take (`Scene.Reached`). A lineage is a family of runs that take over
only what runs of the family have saved (`Scene.Lineage`).
-/
namespace DesktopShell

/-- Two stages of one window between which it keeps its name, its owner and its standing among the
    others: they differ at most in its place and its data. -/
structure Window.SameStanding {α : Type} (v w : Window α) : Prop where
  id : w.id = v.id
  app : w.app = v.app
  z : w.z = v.z
  status : w.status = v.status
  focused : w.focused = v.focused

/-- A later stage of a window that has not come to the front in between: it is not closed if it was
    not, and it has the focus only if it had it and stands as it did. -/
structure Window.Follows {α : Type} (v w : Window α) : Prop where
  id : w.id = v.id
  app : w.app = v.app
  z : w.z = v.z
  live : v.status ≠ .closed → w.status ≠ .closed
  focused : w.focused = true → v.focused = true ∧ w.status = v.status

namespace Window
variable {α : Type}

/-- A window without the focus. -/
def dimmed (w : Window α) : Window α := { w with focused := false }

/-- A window brought to the front with a z value. -/
def fronted (z : UInt64) (w : Window α) : Window α := { w with status := .shown, focused := true, z }

theorem SameStanding.follows {v w : Window α} (same : v.SameStanding w) : v.Follows w := by
  refine ⟨same.id, same.app, same.z, ?_, ?_⟩
  · rw [same.status]
    exact fun live => live
  · rw [same.focused]
    exact fun focused => ⟨focused, same.status⟩

namespace Follows

theorem refl (w : Window α) : w.Follows w := ⟨rfl, rfl, rfl, fun live => live, fun focused => ⟨focused, rfl⟩⟩

theorem trans {u v w : Window α} (first : u.Follows v) (second : v.Follows w) : u.Follows w := by
  refine ⟨second.id.trans first.id, second.app.trans first.app, second.z.trans first.z,
    fun live => second.live (first.live live), ?_⟩
  intro focused
  obtain ⟨before, same⟩ := second.focused focused
  obtain ⟨earlier, same'⟩ := first.focused before
  exact ⟨earlier, same.trans same'⟩

theorem dimmed (w : Window α) : w.Follows w.dimmed :=
  ⟨rfl, rfl, rfl, fun live => live, fun focused => by simp [Window.dimmed] at focused⟩

theorem hidden (w : Window α) : w.Follows w.hidden :=
  ⟨rfl, rfl, rfl, fun _ => by simp [Window.hidden], fun focused => by simp [Window.hidden] at focused⟩

end Follows

end Window

namespace Desktop
variable {α : Type}

theorem mem_change {d : Desktop α} {id : String} {f : Window α → Window α} {w : Window α}
    (member : w ∈ (d.change id f).windows) : w ∈ d.windows ∨ ∃ v ∈ d.windows, v.id = id ∧ w = f v := by
  rcases mem_changeFirst member with old | ⟨v, old, named, changed⟩
  · exact .inl old
  · exact .inr ⟨v, old, by simpa using named, changed⟩

theorem mem_unfocus {d : Desktop α} {w : Window α} :
    w ∈ d.unfocus.windows ↔ ∃ v ∈ d.windows, v.dimmed = w := List.mem_map

theorem mem_raise {d : Desktop α} {id : String} {w : Window α} (member : w ∈ (d.raise id).windows) :
    ∃ v ∈ d.windows, v.id = id ∧ w = v.fronted d.nextZ ∨ v.id ≠ id ∧ w = v.dimmed := by
  obtain ⟨v, old, changed⟩ := List.mem_map.mp member
  by_cases named : v.id = id
  · exact ⟨v, old, .inl ⟨named, by simp [← changed, named, Window.fronted]⟩⟩
  · exact ⟨v, old, .inr ⟨named, by simp [← changed, named, Window.dimmed]⟩⟩

theorem mem_remove {d : Desktop α} {id : String} {w : Window α} (member : w ∈ (d.remove id).windows) :
    w ∈ d.windows := List.mem_of_mem_eraseP member

theorem mem_addWindow [Coordinate α] {d : Desktop α} {defaults : Defaults α} {now : UInt64} {app : App}
    {data : Option Json} {w : Window α} :
    w ∈ (d.addWindow defaults now app data).windows ↔ w ∈ d.windows ∨ w = d.newWindow defaults now app data := by
  simp [addWindow]

theorem mem_removeApp {d : Desktop α} {app : String} {w : Window α} :
    w ∈ (d.removeApp app).windows ↔ w ∈ d.windows ∧ w.app ≠ app := by
  simp [removeApp]

@[simp] theorem ids_unfocus (d : Desktop α) : d.unfocus.windows.map (·.id) = d.windows.map (·.id) := by
  simp [unfocus, Function.comp_def]

@[simp] theorem zs_unfocus (d : Desktop α) : d.unfocus.windows.map (·.z) = d.windows.map (·.z) := by
  simp [unfocus, Function.comp_def]

@[simp] theorem ids_raise (d : Desktop α) (id : String) :
    (d.raise id).windows.map (·.id) = d.windows.map (·.id) := by
  simp only [raise, List.map_map, List.map_inj_left, Function.comp_apply]
  intro w _
  split <;> rfl

/-- What one action does to the windows and their counters, taking over a snapshot apart. -/
inductive Turn [Coordinate α] (defaults : Defaults α) (now : UInt64) : Desktop α → Desktop α → Prop
  /-- Nothing. -/
  | keep {d next} : next.windows = d.windows → next.nextWindow = d.nextWindow → next.nextZ = d.nextZ →
      Turn defaults now d next
  /-- A window gets another place or other data. -/
  | edit (d) (id : String) (f : Window α → Window α) : (∀ w : Window α, w.SameStanding (f w)) →
      Turn defaults now d (d.change id f)
  | hide (d) (id : String) : Turn defaults now d (d.change id Window.hidden)
  | front (d) (id : String) : d.hasWindow id = true → Turn defaults now d (d.raise id)
  | close (d) (id : String) : Turn defaults now d (d.remove id).unfocus
  | add (d) (app : App) (data : Option Json) : Turn defaults now d (d.unfocus.addWindow defaults now app data)
  /-- The windows of an application go, and the focus may go with them. -/
  | drop (d) (app : String) (clears : Bool) :
      Turn defaults now d (if clears then (d.removeApp app).unfocus else d.removeApp app)

theorem Turn.refl [Coordinate α] {defaults : Defaults α} {now : UInt64} (d : Desktop α) :
    Turn defaults now d d := .keep rfl rfl rfl

/-- All windows of a later desktop remain from an earlier one, in their order and with their z
    values. -/
structure Remains (d next : Desktop α) : Prop where
  window : next.nextWindow = d.nextWindow
  z : next.nextZ = d.nextZ
  ids : (next.windows.map (·.id)).Sublist (d.windows.map (·.id))
  zs : (next.windows.map (·.z)).Sublist (d.windows.map (·.z))
  follows : ∀ w ∈ next.windows, ∃ v ∈ d.windows, v.Follows w

namespace Remains

theorem trans {d middle next : Desktop α} (first : d.Remains middle) (second : middle.Remains next) :
    d.Remains next := by
  refine ⟨second.window.trans first.window, second.z.trans first.z, second.ids.trans first.ids,
    second.zs.trans first.zs, ?_⟩
  intro w member
  obtain ⟨v, between, later⟩ := second.follows w member
  obtain ⟨u, old, earlier⟩ := first.follows v between
  exact ⟨u, old, earlier.trans later⟩

theorem unfocus (d : Desktop α) : d.Remains d.unfocus := by
  refine ⟨rfl, rfl, by simp, by simp, ?_⟩
  intro w member
  obtain ⟨v, old, rfl⟩ := mem_unfocus.mp member
  exact ⟨v, old, .dimmed v⟩

theorem change (d : Desktop α) (id : String) {f : Window α → Window α} (keeps : ∀ w : Window α, w.Follows (f w)) :
    d.Remains (d.change id f) := by
  refine ⟨rfl, rfl, ?_, ?_, ?_⟩
  · simp only [Desktop.change, map_changeFirst (·.id) fun w => (keeps w).id, List.Sublist.refl]
  · simp only [Desktop.change, map_changeFirst (·.z) fun w => (keeps w).z, List.Sublist.refl]
  · intro w member
    rcases mem_change member with old | ⟨v, old, _, rfl⟩
    · exact ⟨w, old, .refl w⟩
    · exact ⟨v, old, keeps v⟩

theorem of_sublist {d next : Desktop α} (fewer : next.windows.Sublist d.windows)
    (window : next.nextWindow = d.nextWindow) (z : next.nextZ = d.nextZ) : d.Remains next :=
  ⟨window, z, fewer.map _, fewer.map _, fun w member => ⟨w, fewer.subset member, .refl w⟩⟩

theorem keep {d next : Desktop α} (windows : next.windows = d.windows) (window : next.nextWindow = d.nextWindow)
    (z : next.nextZ = d.nextZ) : d.Remains next :=
  .of_sublist (by rw [windows]) window z

theorem edit (d : Desktop α) (id : String) {f : Window α → Window α} (keeps : ∀ w : Window α, w.SameStanding (f w)) :
    d.Remains (d.change id f) :=
  .change d id fun w => (keeps w).follows

theorem close (d : Desktop α) (id : String) : d.Remains (d.remove id).unfocus := by
  have fewer : d.Remains (d.remove id) := .of_sublist List.eraseP_sublist rfl rfl
  exact fewer.trans (.unfocus _)

theorem drop (d : Desktop α) (app : String) (clears : Bool) :
    d.Remains (if clears then (d.removeApp app).unfocus else d.removeApp app) := by
  have fewer : d.Remains (d.removeApp app) := .of_sublist List.filter_sublist rfl rfl
  cases clears with
  | false => exact fewer
  | true => exact fewer.trans (.unfocus _)

end Remains

/-- Either all windows remain from before, or one of them is brought to the front, or a new one is
    opened in front of them. -/
theorem Turn.remains_or [Coordinate α] {defaults : Defaults α} {now : UInt64} {d next : Desktop α}
    (turn : Turn defaults now d next) :
    d.Remains next ∨ (∃ id, d.hasWindow id = true ∧ next = d.raise id) ∨
      ∃ app data, next = d.unfocus.addWindow defaults now app data := by
  cases turn with
  | keep windows window z => exact .inl (.keep windows window z)
  | edit id f keeps => exact .inl (.edit d id keeps)
  | hide id => exact .inl (.change d id .hidden)
  | front id present => exact .inr (.inl ⟨id, present, rfl⟩)
  | close id => exact .inl (.close d id)
  | add app data => exact .inr (.inr ⟨app, data, rfl⟩)
  | drop app clears => exact .inl (.drop d app clears)

end Desktop

/-- Every action that takes over no snapshot makes one of the turns. -/
theorem Scene.step_turn {α : Type} [Coordinate α] {defaults : Defaults α} {now : UInt64} (s : Scene α)
    {action : Action α} (plain : action.isRestore = false) :
    Desktop.Turn defaults now s.desktop (s.step defaults now action).1.desktop := by
  have outcome : s.Outcome defaults now action (s.step defaults now action) := s.step_outcome action
  generalize s.step defaults now action = after at *
  cases outcome with
  | idle _ => exact .refl s.desktop
  | move id x y => exact .edit s.desktop id _ fun w => ⟨rfl, rfl, rfl, rfl, rfl⟩
  | resize id width height => exact .edit s.desktop id _ fun w => ⟨rfl, rfl, rfl, rfl, rfl⟩
  | setData id fields => exact .edit s.desktop id _ fun w => ⟨rfl, rfl, rfl, rfl, rfl⟩
  | hide id _ => exact .hide s.desktop id
  | front id gestures _ present => exact .front s.desktop id present
  | close id => exact .close s.desktop id
  | add id app data _ _ => exact .add s.desktop app data
  | follow id place _ _ _ => exact .edit s.desktop id _ fun w => ⟨rfl, rfl, rfl, rfl, rfl⟩
  | rest gestures _ => exact .refl s.desktop
  | install new => exact .keep rfl rfl rfl
  | uninstall app clears => exact .drop s.desktop app clears
  | background background => exact .keep rfl rfl rfl
  | restore snapshot => simp [Action.isRestore] at plain

/-- Either all windows remain from before a step, or it asks for the input focus in a window that it brings to the front
    or opens there. -/
theorem Scene.step_remains_or {α : Type} [Coordinate α] (defaults : Defaults α) (now : UInt64) (s : Scene α)
    {action : Action α} (plain : action.isRestore = false) :
    let after := s.step defaults now action
    (s.desktop.Remains after.1.desktop ∧ ∀ effect ∈ after.2, effect = .save) ∨
      (∃ id, s.desktop.hasWindow id = true ∧ after.1.desktop = s.desktop.raise id ∧
        after.2 = [.save, .focusInput id]) ∨
      ∃ app data, after.1.desktop = s.desktop.unfocus.addWindow defaults now app data ∧
        after.2 = [.save, .focusInput s.desktop.nextWindowId] := by
  have outcome : s.Outcome defaults now action (s.step defaults now action) := s.step_outcome action
  intro after
  change s.Outcome defaults now action after at outcome
  generalize after = result at *
  cases outcome with
  | idle _ => exact .inl ⟨.keep rfl rfl rfl, by simp [unchanged]⟩
  | move id x y => exact .inl ⟨.edit _ id fun w => ⟨rfl, rfl, rfl, rfl, rfl⟩, by simp [saved]⟩
  | resize id width height => exact .inl ⟨.edit _ id fun w => ⟨rfl, rfl, rfl, rfl, rfl⟩, by simp [saved]⟩
  | setData id fields => exact .inl ⟨.edit _ id fun w => ⟨rfl, rfl, rfl, rfl, rfl⟩, by simp [saved]⟩
  | hide id _ => exact .inl ⟨.change _ id .hidden, by simp [saved]⟩
  | front id gestures _ present => exact .inr (.inl ⟨id, present, rfl, rfl⟩)
  | close id => exact .inl ⟨.close _ id, by simp⟩
  | add id app data _ _ => exact .inr (.inr ⟨app, data, rfl, rfl⟩)
  | follow id place _ _ _ => exact .inl ⟨.edit _ id fun w => ⟨rfl, rfl, rfl, rfl, rfl⟩, by simp⟩
  | rest gestures _ => exact .inl ⟨.keep rfl rfl rfl, by simp⟩
  | install new => exact .inl ⟨.keep rfl rfl rfl, by simp [saved]⟩
  | uninstall app clears => exact .inl ⟨.drop _ app clears, by simp⟩
  | background background => exact .inl ⟨.keep rfl rfl rfl, by simp [saved]⟩
  | restore snapshot => simp [Action.isRestore] at plain

end DesktopShell

namespace DesktopShell.Scene
variable {α : Type} [Coordinate α]

/-- The counters that number windows and z values have not come to their end. -/
structure Unsaturated (s : Scene α) : Prop where
  window : s.desktop.nextWindow < Counter.top
  z : s.desktop.nextZ < Counter.top

/-- The scenes that allowed actions reach from the start of a configuration, with a condition on
    every scene on the way. The time of an action is whatever the clock shows. -/
inductive Reached (config : Config α) (within : Scene α → Prop) (allows : Scene α → Action α → Prop) :
    Scene α → Prop
  | start : within (Scene.start config) → Reached config within allows (Scene.start config)
  | step {s} (now : UInt64) (action : Action α) : Reached config within allows s → allows s action →
      within (s.step config.windows now action).1 →
      Reached config within allows (s.step config.windows now action).1

theorem Reached.mono {config : Config α} {within : Scene α → Prop} {allows more : Scene α → Action α → Prop}
    (weaker : ∀ s action, allows s action → more s action) {s : Scene α} (run : s.Reached config within allows) :
    s.Reached config within more := by
  induction run with
  | start room => exact .start room
  | step now action _ allowed room ih => exact .step now action ih (weaker _ action allowed) room

/-- The scenes of desktops that take over only snapshots made in their own lineage: by a desktop
    with a related configuration, in this run or in an earlier one. -/
inductive Lineage (within : Scene α → Prop) (related : Config α → Config α → Prop) : Config α → Scene α → Prop
  | start (config) : within (Scene.start config) → Lineage within related config (Scene.start config)
  | act {config s} (now : UInt64) (action : Action α) : Lineage within related config s →
      action.isRestore = false → within (s.step config.windows now action).1 →
      Lineage within related config (s.step config.windows now action).1
  | restart {config s other saved} (now : UInt64) : Lineage within related config s →
      Lineage within related other saved → related config other →
      within (s.step config.windows now (.restore saved.desktop.snapshot)).1 →
      Lineage within related config (s.step config.windows now (.restore saved.desktop.snapshot)).1

end DesktopShell.Scene
