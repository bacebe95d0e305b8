import DesktopShell.Geometry
import Mathlib.Algebra.Order.Ring.Rat
import Mathlib.Tactic.Linarith

/-!
# Rectangles along an axis

A stretch does the same to a rectangle across and down: along an axis it drags one end, the
near or the far one, and what is left is held at a least length (`Extent`). The end across
from the dragged one stays where it was (`Extent.held_hold`). With exact numbers that holds
of every rectangle, one below the least size included (`Rect.settle_stretch`).
-/
namespace DesktopShell

/-- Exact numbers as coordinates. -/
instance : Coordinate ℚ where
  ofCount n := n
  larger := max

/-- A rectangle along one of its axes: where its near end is, and how long it is. -/
structure Extent (α : Type) where
  near : α
  length : α

def Rect.across {α : Type} (r : Rect α) : Extent α := { near := r.x, length := r.width }

def Rect.down {α : Type} (r : Rect α) : Extent α := { near := r.y, length := r.height }

theorem Rect.eq_of_extents {α : Type} {r s : Rect α} (across : r.across = s.across) (down : r.down = s.down) :
    r = s := by
  obtain ⟨x, y, width, height⟩ := r
  simp only [Rect.across, Rect.down, Extent.mk.injEq] at across down
  obtain ⟨rfl, rfl⟩ := across
  obtain ⟨rfl, rfl⟩ := down
  rfl

/-- The ends of an extent that a stretch drags. -/
structure Grasp where
  near : Bool
  far : Bool

def Edge.across (edge : Edge) : Grasp := { near := edge.hasWest, far := edge.hasEast }

def Edge.down (edge : Edge) : Grasp := { near := edge.hasNorth, far := edge.hasSouth }

namespace Extent
variable {α : Type} [Coordinate α]

def far (e : Extent α) : α := e.near + e.length

/-- The extent with its grasped end dragged by a distance. -/
def drag (e : Extent α) (grasp : Grasp) (distance : α) : Extent α :=
  { near := if grasp.near then e.near + distance else e.near
    length :=
      if grasp.near then e.length - distance else if grasp.far then e.length + distance else e.length }

/-- A dragged extent held at a least length. -/
def hold (start : Extent α) (grasp : Grasp) (dragged : Extent α) (least : α) : Extent α :=
  let length := Coordinate.larger dragged.length least
  { near := if grasp.near then start.far - length else dragged.near, length }

end Extent

section
variable {α : Type} [Coordinate α] (start : Rect α) (edge : Edge) (dx dy minWidth minHeight : α)

theorem Rect.across_stretch : (start.stretch edge dx dy).across = start.across.drag edge.across dx := rfl

theorem Rect.down_stretch : (start.stretch edge dx dy).down = start.down.drag edge.down dy := rfl

theorem Rect.across_settle (stretched : Rect α) :
    (start.settle edge stretched minWidth minHeight).across =
      start.across.hold edge.across stretched.across minWidth := rfl

theorem Rect.down_settle (stretched : Rect α) :
    (start.settle edge stretched minWidth minHeight).down =
      start.down.hold edge.down stretched.down minHeight := rfl

end

namespace Extent
variable {start held : Extent ℚ} {grasp : Grasp} {distance least : ℚ}

/-- What is to become of an extent that is dragged and held at a least length. -/
structure Held (start : Extent ℚ) (grasp : Grasp) (distance least : ℚ) (held : Extent ℚ) : Prop where
  least_le : least ≤ held.length
  /-- Dragging the near end keeps the far one, and anything else the near one. -/
  pinned : if grasp.near then held.far = start.far else held.near = start.near
  /-- With no end dragged it is at most lengthened. -/
  idle : grasp.near = false → grasp.far = false → held.length = max start.length least
  /-- An extent that is long enough is as it was dragged. -/
  free : least ≤ (start.drag grasp distance).length → held = start.drag grasp distance

theorem far_drag_of_near (near : grasp.near = true) : (start.drag grasp distance).far = start.far := by
  simp only [drag, far, near, if_true]
  linarith

theorem near_drag_of_not_near (other : grasp.near = false) : (start.drag grasp distance).near = start.near := by
  simp [drag, other]

theorem hold_of_le (long : least ≤ (start.drag grasp distance).length) :
    start.hold grasp (start.drag grasp distance) least = start.drag grasp distance := by
  have length : Coordinate.larger (start.drag grasp distance).length least = (start.drag grasp distance).length :=
    max_eq_left long
  unfold hold
  rw [length]
  cases dragged : grasp.near with
  | false => rfl
  | true =>
    have pinned : (start.drag grasp distance).far = start.far := far_drag_of_near dragged
    have near : start.far - (start.drag grasp distance).length = (start.drag grasp distance).near := by
      rw [← pinned, far]
      linarith
    simp [near]

theorem held_hold (start : Extent ℚ) (grasp : Grasp) (distance least : ℚ) :
    Held start grasp distance least (start.hold grasp (start.drag grasp distance) least) := by
  refine ⟨le_max_right _ _, ?_, ?_, hold_of_le⟩
  · cases dragged : grasp.near with
    | true =>
      simp only [hold, far, dragged, if_true]
      linarith
    | false =>
      have kept : (start.drag grasp distance).near = start.near := near_drag_of_not_near dragged
      simp [hold, dragged, kept]
  · intro notNear notFar
    simp [hold, drag, notNear, notFar, Coordinate.larger]

end Extent

namespace Rect

/-- A rectangle that is stretched and held at a least size is at least that large, and the sides across from the
    dragged ones stay where they were: with a west side in the edge the right side does, otherwise the left one, and
    likewise down. Where no side of an axis is dragged, the size along it is the larger one of the size at the start
    and the least size. A stretched rectangle that is large enough stays as it is. -/
theorem settle_stretch (start : Rect ℚ) (edge : Edge) (dx dy minWidth minHeight : ℚ) :
    let stretched := start.stretch edge dx dy
    let r := start.settle edge stretched minWidth minHeight
    (minWidth ≤ r.width ∧ minHeight ≤ r.height) ∧
      (if edge.hasWest then r.x + r.width = start.x + start.width else r.x = start.x) ∧
      (if edge.hasNorth then r.y + r.height = start.y + start.height else r.y = start.y) ∧
      (edge.hasWest = false → edge.hasEast = false → r.width = max start.width minWidth) ∧
      (edge.hasNorth = false → edge.hasSouth = false → r.height = max start.height minHeight) ∧
      (minWidth ≤ stretched.width → minHeight ≤ stretched.height → r = stretched) := by
  intro stretched r
  have across : Extent.Held start.across edge.across dx minWidth r.across := by
    rw [across_settle, across_stretch]
    exact Extent.held_hold _ _ _ _
  have down : Extent.Held start.down edge.down dy minHeight r.down := by
    rw [down_settle, down_stretch]
    exact Extent.held_hold _ _ _ _
  refine ⟨⟨across.least_le, down.least_le⟩, across.pinned, down.pinned, across.idle, down.idle, ?_⟩
  intro wide high
  exact eq_of_extents (across.free wide) (down.free high)

/-- A rectangle below the least size whose upper left corner is dragged to the right and far up: it gets the least
    width to the left of its right side, and its lower side stays. One that stays large enough is only stretched. -/
theorem settle_stretch_below :
    let start : Rect ℚ := ⟨10, 20, 50, 40⟩
    let r := start.settle .northWest (start.stretch .northWest 5 (-100)) 100 80
    let s := start.settle .northWest (start.stretch .northWest (-70) (-100)) 100 80
    (r.width = 100 ∧ r.x = -40 ∧ r.x + r.width = start.x + start.width) ∧
      (r.height = 140 ∧ r.y = -80 ∧ r.y + r.height = start.y + start.height) ∧
      s = start.stretch .northWest (-70) (-100) := by
  intro start r s
  obtain ⟨_, right, lower, _⟩ := settle_stretch start .northWest 5 (-100) 100 80
  obtain ⟨_, _, _, _, _, free⟩ := settle_stretch start .northWest (-70) (-100) 100 80
  refine ⟨⟨by decide +kernel, by decide +kernel, right⟩, ⟨by decide +kernel, by decide +kernel, lower⟩, ?_⟩
  exact free (by decide +kernel) (by decide +kernel)

end Rect

end DesktopShell
