import DesktopShell.Proofs.Desktop.Record
import DesktopShell.Proofs.Desktop.Runs
import DesktopShell.Proofs.Geometry.Binary64

/-!
# Finite desktops

A step puts windows where an action or a snapshot says, or where it computes:
where a new window opens, and where a gesture takes one (`Scene.computed?`). So
places of a kind stay places of that kind when those are (`Scene.step_placed`).
Actions with finite numbers keep every icon at a finite place, since a row below
the lowest icon is never out of the range of floats. They keep the windows at
finite places too, as long as no place that a step computes for a window leaves
that range.
-/
namespace DesktopShell

namespace Desktop
variable {α : Type} {good : Rect α → Prop} {d : Desktop α}

/-- Every window stands at a place of a kind. -/
def Placed (good : Rect α → Prop) (d : Desktop α) : Prop := ∀ w ∈ d.windows, good w.rect

namespace Placed

theorem change (placed : d.Placed good) (id : String) {f : Window α → Window α}
    (keeps : ∀ w, good w.rect → good (f w).rect) : (d.change id f).Placed good := by
  intro w member
  rcases mem_change member with old | ⟨v, old, _, rfl⟩
  · exact placed w old
  · exact keeps v (placed v old)

theorem unfocus (placed : d.Placed good) : d.unfocus.Placed good := by
  intro w member
  obtain ⟨v, old, rfl⟩ := mem_unfocus.mp member
  exact placed v old

theorem raise (placed : d.Placed good) (id : String) : (d.raise id).Placed good := by
  intro w member
  obtain ⟨v, old, ⟨_, rfl⟩ | ⟨_, rfl⟩⟩ := mem_raise member
  · exact placed v old
  · exact placed v old

theorem remove (placed : d.Placed good) (id : String) : (d.remove id).Placed good :=
  fun w member => placed w (mem_remove member)

theorem removeApp (placed : d.Placed good) (app : String) : (d.removeApp app).Placed good :=
  fun w member => placed w (mem_removeApp.mp member).1

theorem addWindow [Coordinate α] (placed : d.Placed good) {defaults : Defaults α} {now : UInt64} {app : App}
    {data : Option Json} (opens : good (Placement.cascade defaults d.windows.length)) :
    (d.addWindow defaults now app data).Placed good := by
  intro w member
  rcases mem_addWindow.mp member with old | rfl
  · exact placed w old
  · exact opens

end Placed

end Desktop

/-- The places that an action gives on its own are of a kind, when the windows' places are. -/
def Action.Places {α : Type} (good : Rect α → Prop) : Action α → Prop
  | .move _ x y => ∀ r : Rect α, good r → good { r with x, y }
  | .resize _ width height => ∀ r : Rect α, good r → good { r with width, height }
  | .restore snapshot => ∀ w ∈ snapshot.windows, good w.rect
  | _ => True

theorem Restore.placed_into {α : Type} {good : Rect α → Prop} {snapshot : Snapshot α}
    (stands : ∀ w ∈ snapshot.windows, good w.rect) (d : Desktop α) : (into d snapshot).Placed good := by
  intro w member
  obtain ⟨v, live, rfl⟩ := List.mem_map.mp member
  exact stands v (List.mem_filter.mp live).1

/-- A step keeps the windows at places of a kind when what it is given and what it computes is of
    that kind. -/
theorem Scene.step_placed {α : Type} [Coordinate α] {defaults : Defaults α} {good : Rect α → Prop} {s : Scene α}
    (placed : s.desktop.Placed good) (now : UInt64) {action : Action α} (gives : action.Places good)
    (computes : ∀ place, s.computed? defaults action = some place → good place) :
    (s.step defaults now action).1.desktop.Placed good := by
  have outcome : s.Outcome defaults now action (s.step defaults now action) := s.step_outcome action
  generalize s.step defaults now action = after at *
  cases outcome with
  | idle _ => exact placed
  | move id x y => exact placed.change id fun w => gives w.rect
  | resize id width height => exact placed.change id fun w => gives w.rect
  | setData id fields => exact placed.change id fun _ stands => stands
  | hide id _ => exact placed.change id fun _ stands => stands
  | front id gestures _ _ => exact placed.raise id
  | close id => exact (placed.remove id).unfocus
  | add id app data _ opens =>
    refine placed.unfocus.addWindow (computes _ ?_)
    simpa [Desktop.unfocus] using opens
  | follow id place _ _ taken => exact placed.change id fun _ _ => computes place taken
  | rest gestures _ => exact placed
  | install new => exact placed
  | uninstall app clears =>
    cases clears with
    | false => exact placed.removeApp app
    | true => exact (placed.removeApp app).unfocus
  | background background => exact placed
  | restore snapshot => exact Restore.placed_into gives s.desktop

open Binary64 (Bounded)

namespace Placement

private theorem isFinite_ofCount {n : Nat} (word : n < 2 ^ 64) : (Coordinate.ofCount n : Float).isFinite = true :=
  (Binary64.bounded_ofScientific word).isFinite

theorem isFinite_columnY (order : UInt64) : (columnY order : Float).isFinite = true := by
  have rows : Bounded 917 (Coordinate.ofCount 120 * Coordinate.ofCount order.toNat : Float) :=
    (Binary64.bounded_ofScientific (by decide)).mul (Binary64.bounded_ofScientific order.toNat_lt)
      (by decide) (by decide) (by decide)
  exact Binary64.isFinite_add (isFinite_ofCount (by decide)) rows

/-- The icons that a desktop starts with have finite places. -/
theorem isFinite_column (shown : List String) (order next : UInt64) :
    ∀ icon ∈ (column order next shown : List (Icon Float) × UInt64).1, icon.isFinite = true := by
  induction shown generalizing order next with
  | nil => simp [column]
  | cons app rest ih =>
    intro icon member
    rcases List.mem_cons.mp member with rfl | later
    · have left : (columnX : Float).isFinite = true := isFinite_ofCount (by decide)
      simp only [Icon.isFinite, left, isFinite_columnY, Bool.and_self]
    · exact ih _ _ icon later

private theorem isFinite_larger {a b : Float} (left : a.isFinite = true) (right : b.isFinite = true) :
    (Coordinate.larger a b).isFinite = true := by
  change (largerFloat a b).isFinite = true
  unfold largerFloat
  split
  · exact right
  · exact left

theorem isFinite_lowest {icons : List (Icon Float)} (finite : ∀ icon ∈ icons, icon.isFinite = true) :
    (lowest icons).isFinite = true := by
  have start : (Coordinate.ofCount 0 : Float).isFinite = true := isFinite_ofCount (by decide)
  unfold lowest
  generalize (Coordinate.ofCount 0 : Float) = y at *
  induction icons generalizing y with
  | nil => exact start
  | cons first rest ih =>
    have own : first.y.isFinite = true := by
      have := finite first (by simp)
      simp only [Icon.isFinite, Bool.and_eq_true] at this
      exact this.2
    exact ih (fun icon member => finite icon (by simp [member])) _ (isFinite_larger start own)

/-- The icon of an installed application has a finite place, however low the other icons are. -/
theorem isFinite_below {icons : List (Icon Float)} (finite : ∀ icon ∈ icons, icon.isFinite = true)
    (next : UInt64) (app : String) : (below icons next app).isFinite = true := by
  have left : (columnX : Float).isFinite = true := isFinite_ofCount (by decide)
  have row : Bounded 917 (Coordinate.ofCount 120 : Float) := by decide +kernel
  have upper := Binary64.isFinite_add (isFinite_lowest finite) row
  simp only [Icon.isFinite, below, left, upper, Bool.and_self]

end Placement

/-- Both coordinates of a point are finite numbers. -/
def Point.isFinite (p : Point Float) : Bool := p.x.isFinite && p.y.isFinite

/-- Every size and place that windows start with is a finite number. -/
def Defaults.isFinite (w : Defaults Float) : Bool :=
  w.width.isFinite && w.height.isFinite && w.minWidth.isFinite && w.minHeight.isFinite && w.originX.isFinite &&
    w.originY.isFinite && w.step.isFinite

/-- Every number that an action carries is finite. -/
def Action.isFinite : Action Float → Bool
  | .move _ x y => x.isFinite && y.isFinite
  | .resize _ width height => width.isFinite && height.isFinite
  | .beginDrag _ pointer => pointer.isFinite
  | .dragTo pointer => pointer.isFinite
  | .beginStretch _ _ pointer => pointer.isFinite
  | .stretchTo pointer => pointer.isFinite
  | .restore snapshot => snapshot.isFinite
  | _ => true

theorem Action.places_of_isFinite {action : Action Float} (finite : action.isFinite = true) :
    action.Places fun r => r.isFinite = true := by
  cases action with
  | move id x y =>
    intro r placed
    simp_all [Action.isFinite, Rect.isFinite]
  | resize id width height =>
    intro r placed
    simp_all [Action.isFinite, Rect.isFinite]
  | restore snapshot =>
    simp only [Action.isFinite, Snapshot.isFinite, Bool.and_eq_true, List.all_eq_true] at finite
    exact finite.1
  | _ => trivial

/-- Every icon of a desktop has a finite place. -/
def Desktop.HasFiniteIcons (d : Desktop Float) : Prop := ∀ icon ∈ d.icons, icon.isFinite = true

namespace Scene
variable {config : Config Float} {s : Scene Float}

theorem step_finiteIcons (finite : s.desktop.HasFiniteIcons) (defaults : Defaults Float) (now : UInt64)
    {action : Action Float} (numbers : action.isFinite = true) :
    (s.step defaults now action).1.desktop.HasFiniteIcons := by
  intro icon member
  rcases s.step_catalogue defaults now action with
    same | ⟨new, rfl, added⟩ | ⟨app, rfl, same⟩ | ⟨snapshot, rfl, restored⟩
  · exact finite icon (same.icons ▸ member)
  · rw [added] at member
    rcases List.mem_append.mp member with old | fresh
    · exact finite icon old
    · rw [List.mem_singleton.mp fresh]
      exact Placement.isFinite_below finite _ _
  · rw [same.icons] at member
    exact finite icon (List.mem_filter.mp member).1
  · rw [restored] at member
    simp only [Action.isFinite, Snapshot.isFinite, Bool.and_eq_true, List.all_eq_true] at numbers
    exact numbers.2 icon member

/-- Actions with finite numbers keep all icons at finite places. -/
theorem Reached.finiteIcons {within : Scene Float → Prop}
    (run : s.Reached config within fun _ action => action.isFinite = true) : s.desktop.HasFiniteIcons := by
  induction run with
  | start _ => exact Placement.isFinite_column _ _ _
  | step now action _ numbers _ ih => exact step_finiteIcons ih config.windows now numbers

/-- An action has finite numbers, and the place that it makes a step compute for a window, if any,
    is finite. -/
def Stays (config : Config Float) (s : Scene Float) (action : Action Float) : Prop :=
  action.isFinite = true ∧ (s.computed? config.windows action).all (·.isFinite) = true

/-- All windows stay at finite places when no place that is computed leaves the range of floats. -/
theorem Reached.finitePlaces {within : Scene Float → Prop} (run : s.Reached config within (Stays config)) :
    s.desktop.Placed fun place => place.isFinite = true := by
  induction run with
  | start _ =>
    intro w member
    simp [Scene.start, Desktop.empty] at member
  | step now action _ stays _ ih =>
    obtain ⟨numbers, computes⟩ := stays
    exact step_placed ih now (Action.places_of_isFinite numbers) ((Option.all_eq_true _ _).mp computes)

end Scene

end DesktopShell
