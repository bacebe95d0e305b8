import DesktopShell.Proofs.Desktop.Removal

/-!
# Following the pointer

A gesture computes the place of its window from what it remembered when it began and from where
the pointer is, and never from where its own last step put the window. So the way of the pointer
does not matter, only where it comes to: a window that is led over any number of places ends up
as if it had been led to the last of them at once (`Scene.run_follow_last`), also while another
gesture follows the pointer, and whatever the arithmetic of the coordinates does.
-/
namespace DesktopShell

/-- What a window is taken by: its title, to drag it, or its border at an edge, to stretch it. -/
inductive Grip where
  | title
  | border (edge : Edge)
deriving DecidableEq

namespace Grip
variable {α : Type}

def begin : Grip → String → Point α → Action α
  | .title, id, pointer => .beginDrag id pointer
  | .border edge, id, pointer => .beginStretch id edge pointer

def follow : Grip → Point α → Action α
  | .title, pointer => .dragTo pointer
  | .border _, pointer => .stretchTo pointer

def finish : Grip → Action α
  | .title => .endDrag
  | .border _ => .endStretch

/-- The action is a step of such a gesture, and not of the other kind. -/
def leads : Grip → Action α → Bool
  | .title, .dragTo _ => true
  | .border _, .stretchTo _ => true
  | _, _ => false

/-- The place of a window that is taken at a place and led from one point to another one. -/
def place [Coordinate α] (grip : Grip) (defaults : Defaults α) (start : Rect α) (first last : Point α) : Rect α :=
  match grip with
  | .title => start.offset (last.x - first.x) (last.y - first.y)
  | .border edge =>
    start.settle edge (start.stretch edge (last.x - first.x) (last.y - first.y)) defaults.minWidth defaults.minHeight

theorem exists_of_leads {grip : Grip} {action : Action α} (leads : grip.leads action = true) :
    ∃ pointer, action = grip.follow pointer := by
  cases grip with
  | title =>
    cases action with
    | dragTo pointer => exact ⟨pointer, rfl⟩
    | _ => cases leads
  | border edge =>
    cases action with
    | stretchTo pointer => exact ⟨pointer, rfl⟩
    | _ => cases leads

theorem leads_follow (grip : Grip) (pointer : Point α) : grip.leads (grip.follow pointer) = true := by
  cases grip <;> rfl

theorem followsPointer_follow (grip : Grip) (pointer : Point α) : (grip.follow pointer).followsPointer = true := by
  cases grip <;> rfl

end Grip

/-- What actions do one after another, each at its time, and all that they ask for. -/
def Scene.run {α : Type} [Coordinate α] (defaults : Defaults α) (s : Scene α) :
    List (UInt64 × Action α) → Scene α × List Effect
  | [] => (s, [])
  | (now, action) :: rest =>
    let after := s.step defaults now action
    let last := after.1.run defaults rest
    (last.1, after.2 ++ last.2)

/-- A window put at a place. -/
def Window.standing {α : Type} (place : Rect α) (w : Window α) : Window α := { w with rect := place }

namespace Desktop
variable {α : Type} {d e : Desktop α} {id other : String}

/-- The desktop with the first window of an id at a place. -/
def put (d : Desktop α) (id : String) (place : Rect α) : Desktop α := d.change id (Window.standing place)

theorem put_put (d : Desktop α) (id : String) (place later : Rect α) :
    (d.put id place).put id later = d.put id later := by
  have once := changeFirst_changeFirst (p := fun w : Window α => w.id = id) (f := Window.standing place)
    (g := Window.standing later) (fun _ => rfl) d.windows
  simp only [put, change, once]
  rfl

theorem put_comm (d : Desktop α) (apart : id ≠ other) (place place' : Rect α) :
    (d.put id place).put other place' = (d.put other place').put id place := by
  have disjoint (w : Window α) (named : decide (w.id = id) = true) : decide (w.id = other) = false :=
    decide_eq_false (of_decide_eq_true named ▸ apart)
  have moved := changeFirst_comm (f := Window.standing place) (g := Window.standing place') disjoint
    (fun _ => rfl) (fun _ => rfl) d.windows
  simp only [put, change, moved]

theorem ids_put (d : Desktop α) (id : String) (place : Rect α) :
    (d.put id place).windows.map (·.id) = d.windows.map (·.id) := d.ids_change id fun _ => rfl

theorem window?_put (d : Desktop α) (id : String) (place : Rect α) :
    (d.put id place).window? id = (d.window? id).map (Window.standing place) :=
  find?_changeFirst_self (f := Window.standing place) (fun _ => rfl) d.windows

/-- Two desktops that differ at most in where the first window of an id is. -/
def AlikeBut (id : String) (d e : Desktop α) : Prop := ∀ place, d.put id place = e.put id place

namespace AlikeBut

theorem refl (id : String) (d : Desktop α) : AlikeBut id d d := fun _ => rfl

/-- Putting that window anywhere makes no difference to it. -/
theorem put_self (alike : AlikeBut id d e) (place : Rect α) : AlikeBut id (d.put id place) e := by
  intro later
  rw [put_put, alike later]

/-- Putting any window at the same place in both leaves them alike. -/
theorem put (alike : AlikeBut id d e) (other : String) (place : Rect α) :
    AlikeBut id (d.put other place) (e.put other place) := by
  intro later
  by_cases same : other = id
  · rw [same, put_put, put_put, alike later]
  · rw [put_comm d same, put_comm e same, alike later]

end AlikeBut

end Desktop

/-- The window that a step of a gesture puts somewhere, and the place that it puts it at. -/
def Gestures.led? {α : Type} [Coordinate α] (g : Gestures α) (defaults : Defaults α) :
    Action α → Option (String × Rect α)
  | .dragTo pointer => g.drag.map fun drag => (drag.window, drag.placeAt pointer)
  | .stretchTo pointer => g.stretch.map fun stretch => (stretch.window, stretch.placeAt defaults pointer)
  | _ => Option.none

/-- A gesture by a grip is under way, on a window that was taken at a place and from a point. -/
def Gestures.Takes {α : Type} (g : Gestures α) (grip : Grip) (id : String) (start : Rect α) (first : Point α) : Prop :=
  match grip with
  | .title => g.drag = some { window := id, pointer := first, start }
  | .border edge => g.stretch = some { window := id, edge, pointer := first, start }

namespace Gestures.Takes
variable {α : Type} [Coordinate α] {g : Gestures α} {grip : Grip} {id : String} {start : Rect α} {first : Point α}

theorem led?_follow (takes : g.Takes grip id start first) (defaults : Defaults α) (last : Point α) :
    g.led? defaults (grip.follow last) = some (id, grip.place defaults start first last) := by
  cases grip with
  | title =>
    have active : g.drag = some { window := id, pointer := first, start } := takes
    simp [led?, Grip.follow, active, Drag.placeAt, Grip.place]
  | border edge =>
    have active : g.stretch = some { window := id, edge, pointer := first, start } := takes
    simp [led?, Grip.follow, active, Stretch.placeAt, Grip.place]

/-- Every step of such a gesture is a step of this one. -/
theorem led?_of_leads (takes : g.Takes grip id start first) (defaults : Defaults α) {action : Action α}
    (leads : grip.leads action = true) : ∃ place, g.led? defaults action = some (id, place) := by
  obtain ⟨last, rfl⟩ := Grip.exists_of_leads leads
  exact ⟨_, takes.led?_follow defaults last⟩

end Gestures.Takes

namespace Scene
variable {α : Type} [Coordinate α] {defaults : Defaults α} {s t : Scene α} {id : String} {grip : Grip}

/-- A window that is taken comes to the front, and the gesture on it remembers where it was. -/
theorem takes_begin {w : Window α} (found : s.desktop.window? id = some w) (now : UInt64) (grip : Grip)
    (first : Point α) :
    let taken := (s.step defaults now (grip.begin id first)).1
    taken.gestures.Takes grip id w.rect first ∧ taken.desktop.hasWindow id = true := by
  have present := Desktop.hasWindow_of_window? found
  have still : (s.desktop.raise id).hasWindow id = true := by
    rwa [Desktop.hasWindow_iff, Desktop.ids_raise, ← Desktop.hasWindow_iff]
  cases grip with
  | title =>
    simp only [step, Grip.begin, beginDrag, found, focus, present, if_true]
    exact ⟨rfl, still⟩
  | border edge =>
    simp only [step, Grip.begin, beginStretch, found, focus, present, if_true]
    exact ⟨rfl, still⟩

theorem step_finish {start : Rect α} {first : Point α} (takes : s.gestures.Takes grip id start first) (now : UInt64) :
    (s.step defaults now grip.finish).2 = [.save] := by
  cases grip with
  | title =>
    have active : s.gestures.drag = some { window := id, pointer := first, start } := takes
    simp [step, Grip.finish, endDrag, active]
  | border edge =>
    have active : s.gestures.stretch = some { window := id, edge, pointer := first, start } := takes
    simp [step, Grip.finish, endStretch, active]

theorem step_of_follows (defaults : Defaults α) (s : Scene α) {action : Action α}
    (follows : action.followsPointer = true) (now : UInt64) :
    s.step defaults now action =
      ({ s with desktop := ((s.gestures.led? defaults action).map fun led => s.desktop.put led.1 led.2).getD s.desktop },
        []) := by
  cases action with
  | dragTo pointer =>
    simp only [step, dragTo, Gestures.led?]
    cases active : s.gestures.drag <;> rfl
  | stretchTo pointer =>
    simp only [step, stretchTo, Gestures.led?]
    cases active : s.gestures.stretch <;> rfl
  | _ => cases follows

theorem run_append (s : Scene α) (moves rest : List (UInt64 × Action α)) :
    s.run defaults (moves ++ rest) =
      (((s.run defaults moves).1.run defaults rest).1,
        (s.run defaults moves).2 ++ ((s.run defaults moves).1.run defaults rest).2) := by
  induction moves generalizing s with
  | nil => rfl
  | cons move later ih =>
    obtain ⟨now, action⟩ := move
    simp only [List.cons_append, run, ih, List.append_assoc]

/-- Steps that follow the pointer ask for nothing, and leave all but the places of windows. -/
theorem run_of_follows (defaults : Defaults α) {moves : List (UInt64 × Action α)}
    (follows : ∀ m ∈ moves, m.2.followsPointer = true) (s : Scene α) :
    (s.run defaults moves).2 = [] ∧ (s.run defaults moves).1.gestures = s.gestures ∧
      (s.run defaults moves).1.desktop.windows.map (·.id) = s.desktop.windows.map (·.id) := by
  induction moves generalizing s with
  | nil => exact ⟨rfl, rfl, rfl⟩
  | cons move later ih =>
    obtain ⟨now, action⟩ := move
    have first := step_of_follows defaults s (follows (now, action) (by simp)) now
    obtain ⟨asks, gestures, ids⟩ := ih (fun m member => follows m (by simp [member])) (s.step defaults now action).1
    simp only [run]
    refine ⟨by rw [asks, first, List.nil_append], by rw [gestures, first], ?_⟩
    rw [ids, first]
    cases led : s.gestures.led? defaults action with
    | none => rfl
    | some pair => exact Desktop.ids_put _ _ _

/-- Without its steps, a gesture leaves a scene that is the same but for the place of its window. -/
theorem run_without_leads (defaults : Defaults α) {moves : List (UInt64 × Action α)}
    (follows : ∀ m ∈ moves, m.2.followsPointer = true) {start : Rect α} {first : Point α}
    (takes : s.gestures.Takes grip id start first) (same : t.gestures = s.gestures)
    (alike : Desktop.AlikeBut id s.desktop t.desktop) :
    Desktop.AlikeBut id (s.run defaults moves).1.desktop
      (t.run defaults (moves.filter fun m => !grip.leads m.2)).1.desktop := by
  induction moves generalizing s t with
  | nil => exact alike
  | cons move later ih =>
    obtain ⟨now, action⟩ := move
    have follow := follows (now, action) (by simp)
    have rest : ∀ m ∈ later, m.2.followsPointer = true := fun m member => follows m (by simp [member])
    have step := step_of_follows defaults s follow now
    by_cases leads : grip.leads action = true
    · -- A step of the gesture is left out on one side and puts its own window on the other.
      obtain ⟨place, led⟩ := takes.led?_of_leads defaults leads
      rw [List.filter_cons_of_neg (by simp [leads])]
      simp only [run, step, led]
      exact ih rest takes same (alike.put_self place)
    · -- A step of the other gesture puts the same window at the same place on both sides.
      have step' := step_of_follows defaults t follow now
      rw [same] at step'
      rw [List.filter_cons_of_pos (by simp [leads])]
      simp only [run, step, step']
      refine ih rest takes rfl ?_
      cases led : s.gestures.led? defaults action with
      | none => exact alike
      | some pair => exact alike.put pair.1 pair.2

/-- A gesture that has followed the pointer to a last point leaves its own window at the place that only this point
    tells, and the other windows where they were led. -/
theorem run_follow {moves : List (UInt64 × Action α)} (follows : ∀ m ∈ moves, m.2.followsPointer = true)
    {start : Rect α} {first : Point α} (takes : s.gestures.Takes grip id start first) (now : UInt64) (last : Point α) :
    s.run defaults (moves ++ [(now, grip.follow last)]) =
      ({ desktop := (s.run defaults moves).1.desktop.put id (grip.place defaults start first last)
         gestures := s.gestures }, []) := by
  obtain ⟨asks, gestures, _⟩ := run_of_follows defaults follows s
  have step := step_of_follows defaults (s.run defaults moves).1 (grip.followsPointer_follow last) now
  rw [gestures, takes.led?_follow defaults last] at step
  rw [run_append, asks]
  simp only [run, step, Option.map_some, Option.getD_some, List.append_nil]

/-- A window is taken by its title or by an edge, and led over any number of points to a last one. That leaves the same
    desktop and the same gestures as if it had been led to the last point at once, and it asks for nothing; and so it
    does when other steps in between lead another gesture. The window ends up at the place that comes from its place at
    the beginning and from the first and the last point alone, and the end of the gesture asks for one saving. -/
theorem run_follow_last (defaults : Defaults α) (s : Scene α) (apart : (s.desktop.windows.map (·.id)).Nodup)
    {w : Window α} (member : w ∈ s.desktop.windows) (grip : Grip) (first last : Point α) (begun now ended : UInt64) :
    let taken := (s.step defaults begun (grip.begin w.id first)).1
    let led (moves : List (UInt64 × Action α)) := taken.run defaults (moves ++ [(now, grip.follow last)])
    (∀ points : List (UInt64 × Point α), led (points.map fun p => (p.1, grip.follow p.2)) = led []) ∧
      ∀ moves : List (UInt64 × Action α), (∀ m ∈ moves, m.2.followsPointer = true) →
        led moves = led (moves.filter fun m => !grip.leads m.2) ∧ (led moves).2 = [] ∧
        (∃ v, (led moves).1.desktop.window? w.id = some v ∧ v.rect = grip.place defaults w.rect first last) ∧
        ((led moves).1.step defaults ended grip.finish).2 = [.save] := by
  intro taken led
  have found : s.desktop.window? w.id = some w := (find?_eq_some_iff_key apart).mpr ⟨member, rfl⟩
  obtain ⟨takes, present⟩ : taken.gestures.Takes grip w.id w.rect first ∧ taken.desktop.hasWindow w.id = true :=
    takes_begin found begun grip first
  have leaves (moves : List (UInt64 × Action α)) (follows : ∀ m ∈ moves, m.2.followsPointer = true) :
      led moves = ({ desktop := (taken.run defaults moves).1.desktop.put w.id (grip.place defaults w.rect first last)
                     gestures := taken.gestures }, []) := run_follow follows takes now last
  have only (moves : List (UInt64 × Action α)) (follows : ∀ m ∈ moves, m.2.followsPointer = true) :
      led moves = led (moves.filter fun m => !grip.leads m.2) := by
    have alike := run_without_leads defaults follows takes rfl (.refl w.id taken.desktop)
    rw [leaves moves follows, leaves _ fun m kept => follows m (List.mem_of_mem_filter kept), alike _]
  refine ⟨fun points => ?_, fun moves follows => ⟨only moves follows, ?_, ?_, ?_⟩⟩
  · have all : ∀ m ∈ points.map fun p => (p.1, grip.follow p.2), m.2.followsPointer = true := by
      rintro _ listed
      obtain ⟨p, _, rfl⟩ := List.mem_map.mp listed
      exact grip.followsPointer_follow p.2
    have none : (points.map fun p => (p.1, grip.follow p.2)).filter (fun m => !grip.leads m.2) = [] := by
      refine List.filter_eq_nil_iff.mpr ?_
      rintro _ listed
      obtain ⟨p, _, rfl⟩ := List.mem_map.mp listed
      simp [grip.leads_follow]
    rw [only _ all, none]
  · rw [leaves moves follows]
  · obtain ⟨_, _, ids⟩ := run_of_follows defaults follows taken
    have still : (taken.run defaults moves).1.desktop.hasWindow w.id = true := by
      rwa [Desktop.hasWindow_iff, ids, ← Desktop.hasWindow_iff]
    obtain ⟨v, there⟩ := Option.isSome_iff_exists.mp (List.find?_isSome.mpr (List.any_eq_true.mp still))
    refine ⟨v.standing (grip.place defaults w.rect first last), ?_, rfl⟩
    rw [leaves moves follows, Desktop.window?_put]
    exact congrArg (Option.map _) there
  · have goesOn : (led moves).1.gestures.Takes grip w.id w.rect first := by
      rw [leaves moves follows]
      exact takes
    exact step_finish goesOn ended

/-- Of two windows one is stretched at its upper left corner while the other one is dragged, far beyond the largest
    number and back. The drag ends up as one that went to the last point at once, with the stretch in between. -/
theorem run_follow_last_beyond :
    let standard := Config.standard
    let one := ((start standard).step standard.windows 1 (.openApp "terminal" none)).1
    let two := (one.step standard.windows 2 (.openApp "browser" none)).1
    let s := (two.step standard.windows 3 (.beginStretch "win-2" .northWest ⟨0, 0⟩)).1
    let taken := (s.step standard.windows 4 (.beginDrag "win-1" ⟨0.1, 0.2⟩)).1
    let far : Point Float := ⟨1e308 * 10, 0 / 0⟩
    let led := taken.run standard.windows
      [(5, .dragTo far), (6, .stretchTo ⟨-30, 0.3⟩), (7, .dragTo ⟨-1e308, 0⟩), (8, .dragTo ⟨10.3, 20⟩)]
    let alone := taken.run standard.windows [(6, .stretchTo ⟨-30, 0.3⟩), (8, .dragTo ⟨10.3, 20⟩)]
    led = alone ∧ led.2 = [] ∧ (led.1.step standard.windows 9 .endDrag).2 = [.save] ∧
      led.1.desktop.windows.map (fun w => (w.rect.x, w.rect.width)) = [(110.2, 400), (100, 430)] := by
  intro standard one two s taken far led alone
  have apart : (s.desktop.windows.map (·.id)).Nodup := by decide +kernel
  have named : (s.desktop.windows.map (·.id)).head? = some "win-1" := by decide +kernel
  obtain ⟨w, first, same⟩ : ∃ w, s.desktop.windows.head? = some w ∧ w.id = "win-1" := by
    rw [List.head?_map] at named
    exact Option.map_eq_some_iff.mp named
  have member := List.mem_of_head? first
  obtain ⟨_, along⟩ := run_follow_last standard.windows s apart member .title ⟨0.1, 0.2⟩ ⟨10.3, 20⟩ 4 8 9
  rw [same] at along
  obtain ⟨only, asks, _, ends⟩ := along [(5, .dragTo far), (6, .stretchTo ⟨-30, 0.3⟩), (7, .dragTo ⟨-1e308, 0⟩)]
    (by simp [Action.followsPointer])
  exact ⟨only, asks, ends, by decide +kernel⟩

end Scene

end DesktopShell
