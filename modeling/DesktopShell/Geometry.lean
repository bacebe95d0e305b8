/-!
# Rectangles

The place of a window on the desktop, and what moving and stretching do to it.
A stretch drags one edge or corner; the edges it does not drag stay where they
are, also when the result is held at a least size. The desktop computes with
floating-point numbers; its rules are stated for any coordinates with these
operations, so that they can also be read with exact numbers.
-/
namespace DesktopShell

/-- Numbers that positions and sizes are computed with. -/
class Coordinate (α : Type) extends Add α, Sub α, Mul α where
  /-- A whole number as a coordinate. -/
  ofCount : Nat → α
  larger : α → α → α

/-- The larger of two floats: one that is not a number gives way to the other,
    and of two equal ones the first stays. -/
def largerFloat (a b : Float) : Float := if a.isNaN || a < b then b else a

instance : Coordinate Float where
  ofCount n := Float.ofScientific n false 0
  larger := largerFloat

structure Point (α : Type) where
  x : α
  y : α
deriving Repr, DecidableEq

/-- The place of a window: its top left corner and its size. -/
structure Rect (α : Type) where
  x : α
  y : α
  width : α
  height : α
deriving Repr, DecidableEq

namespace Rect
variable {α : Type} [Coordinate α]

def offset (r : Rect α) (dx dy : α) : Rect α := { r with x := r.x + dx, y := r.y + dy }

/-- The rectangle made at least as large as a size, its corner staying where it is. -/
def atLeast (r : Rect α) (minWidth minHeight : α) : Rect α :=
  { r with
    width := Coordinate.larger r.width minWidth
    height := Coordinate.larger r.height minHeight }

end Rect

/-- What a stretch drags: an edge or a corner. -/
inductive Edge where
  | north
  | south
  | east
  | west
  | northEast
  | northWest
  | southEast
  | southWest
deriving Repr, DecidableEq

namespace Edge

def hasWest : Edge → Bool
  | .west | .northWest | .southWest => true
  | _ => false

def hasEast : Edge → Bool
  | .east | .northEast | .southEast => true
  | _ => false

def hasNorth : Edge → Bool
  | .north | .northEast | .northWest => true
  | _ => false

def hasSouth : Edge → Bool
  | .south | .southEast | .southWest => true
  | _ => false

end Edge

namespace Rect
variable {α : Type} [Coordinate α]

/-- The rectangle with the sides of an edge dragged by a distance, whatever size that gives. -/
def stretch (r : Rect α) (edge : Edge) (dx dy : α) : Rect α :=
  { x := if edge.hasWest then r.x + dx else r.x
    y := if edge.hasNorth then r.y + dy else r.y
    width :=
      if edge.hasWest then r.width - dx else if edge.hasEast then r.width + dx else r.width
    height :=
      if edge.hasNorth then r.height - dy else if edge.hasSouth then r.height + dy else r.height }

/-- A stretched rectangle held at a least size; the side across from a dragged one
    stays where it was at the start. -/
def settle (start : Rect α) (edge : Edge) (stretched : Rect α) (minWidth minHeight : α) :
    Rect α :=
  let held := stretched.atLeast minWidth minHeight
  { held with
    x := if edge.hasWest then start.x + start.width - held.width else held.x
    y := if edge.hasNorth then start.y + start.height - held.height else held.y }

end Rect

end DesktopShell
