import DesktopShell.Proofs.Desktop.Finite
import DesktopShell.Proofs.Storage

/-!
# What is saved of a desk

Effects may be carried out between any two actions, and no save is lost: whenever
a desk is at rest, with no gesture under way and no save in its queue, its store
keeps the layout as it is now (`Desk.Worked.saved_or_pristine`), window by window and
icon by icon (`Desktop.layoutRecord`). A layout that is saved can be loaded again exactly
when its windows have finite places. Finite numbers in all actions do not make
sure of that, since a gesture can take a window out of the range of floats.
-/
namespace DesktopShell

/-- What is written of a coordinate: the number, or null when it is not finite. -/
def coordinateRecord (x : Float) : Json := if x.isFinite then .float x else .null

/-- What is written of a window. -/
def Window.layoutRecord (w : Window Float) : Json :=
  let kind := match w.kind with
    | .terminal => "terminal"
    | .studio => "vs-studio"
    | .files => "files"
    | .browser => "browser"
    | .store => "web-store"
    | .properties => "properties"
    | .custom => "custom"
  let status := match w.status with
    | .shown => "open"
    | .minimized => "minimized"
    | .closed => "closed"
  .object [("id", .text w.id), ("title", .text w.title), ("app_id", .text w.app), ("app_type", .text kind),
    ("x", coordinateRecord w.rect.x), ("y", coordinateRecord w.rect.y),
    ("width", coordinateRecord w.rect.width), ("height", coordinateRecord w.rect.height),
    ("status", .text status), ("z_index", .whole w.z.toNat), ("start_time_unix_ms", .whole w.openedAt.toNat),
    ("focused", .flag w.focused), ("data", w.data)]

/-- What is written of an icon. -/
def Icon.layoutRecord (icon : Icon Float) : Json :=
  .object [("id", .text icon.id), ("app_id", .text icon.app), ("x", coordinateRecord icon.x),
    ("y", coordinateRecord icon.y), ("order", .whole icon.order.toNat)]

/-- What is written of a desktop: all of its windows and icons in their order, the z counter and the background. -/
def Desktop.layoutRecord (d : Desktop Float) : Json :=
  .object [("schema_version", .whole 1), ("windows", .list (d.windows.map Window.layoutRecord)),
    ("desktop_icons", .list (d.icons.map Icon.layoutRecord)), ("next_z_index", .whole d.nextZ.toNat),
    ("background", match d.background with | some path => .text path | none => .null)]

theorem Window.toJson_eq (w : Window Float) : w.toJson = w.layoutRecord := by
  obtain ⟨id, title, app, kind, rect, status, z, openedAt, focused, data⟩ := w
  cases kind <;> cases status <;> rfl

/-- The snapshot of a desktop is written as its layout. -/
theorem Desktop.toJson_snapshot (d : Desktop Float) : d.snapshot.toJson = d.layoutRecord := by
  obtain ⟨_, _, _, _, windows, _, icons, background⟩ := d
  simp only [snapshot, Snapshot.toJson, layoutRecord, funext Window.toJson_eq]
  cases background <;> rfl

/-- A store keeps the layout of a desktop in an envelope of the first version, written at some time. The layout is
    loaded from there as it is, if all its places are finite. -/
structure Store.KeepsLayout (store : Store) (d : Desktop Float) : Prop where
  kept : ∃ stamp, store.load "system.desktop" =
    .ok (some { format := 1, name := "system.desktop", schema := 1, updatedAt := stamp, payload := d.layoutRecord })
  loaded : store.loadLayout =
    if d.windows.all (·.rect.isFinite) && d.icons.all (·.isFinite) then
      some { schema := 1, windows := d.windows, icons := d.icons, nextZ := d.nextZ, background := d.background }
    else none

/-- In memory, a saved layout is what its own record reads as. -/
theorem Store.loadLayout_insert (d : Desktop Float) (envelopes : List Envelope) (stamp : UInt64) :
    (memory (insert (.make layoutName Desktop.layoutVersion d.snapshot.toJson stamp) envelopes)).loadLayout =
      Snapshot.ofJson? d.snapshot.toJson := by
  have kept := load_insert (.make layoutName Desktop.layoutVersion d.snapshot.toJson stamp) envelopes
  simp only [Envelope.make] at kept
  simp only [loadLayout, layoutFrom, loadFrom, Envelope.make, kept]
  cases Snapshot.ofJson? d.snapshot.toJson <;> simp

/-- A memory that a layout was saved in keeps it. -/
theorem Store.keepsLayout_insert (d : Desktop Float) (envelopes : List Envelope) (stamp : UInt64) :
    (memory (insert (.make layoutName Desktop.layoutVersion d.snapshot.toJson stamp) envelopes)).KeepsLayout d := by
  refine ⟨⟨stamp, ?_⟩, ?_⟩
  · rw [← d.toJson_snapshot]
    exact load_insert (.make layoutName Desktop.layoutVersion d.snapshot.toJson stamp) envelopes
  · rw [loadLayout_insert, Snapshot.ofJson?_toJson]
    rfl

namespace Desk

/-- A desk and its store after actions and the carrying out of effects, in any order, from a start
    with an empty store. No action takes over a snapshot. -/
inductive Worked (config : Config Float) (files : Files.Tree) : Desk → Store → Prop
  | start : Worked config files (start config files) (.memory [])
  | act {desk store} (now : UInt64) (action : Action Float) : Worked config files desk store →
      action.isRestore = false → Worked config files (desk.act now action) store
  | drain {desk store} (stamp : UInt64) : Worked config files desk store →
      Worked config files (desk.runEffects store stamp).1 (desk.runEffects store stamp).2.1

/-- The layout is what the store keeps, or nothing was ever saved and the layout is still a given one. -/
def SavedOr (pristine : Snapshot Float) (desk : Desk) (store : Store) : Prop :=
  store.KeepsLayout desk.scene.desktop ∨ store = .memory [] ∧ desk.scene.desktop.snapshot = pristine

/-- What holds between any two steps: a change that is not saved yet waits in the queue, or the
    gesture that made it goes on. -/
structure Accounted (pristine : Snapshot Float) (desk : Desk) (store : Store) : Prop where
  kept : ∃ envelopes, store = .memory envelopes
  pending : ¬ desk.scene.gestures.Idle ∨ .save ∈ desk.queue ∨ SavedOr pristine desk store

namespace Accounted
variable {pristine : Snapshot Float} {desk : Desk} {store : Store}

theorem act (accounted : Accounted pristine desk store) (now : UInt64) {action : Action Float}
    (plain : action.isRestore = false) : Accounted pristine (desk.act now action) store := by
  refine ⟨accounted.kept, ?_⟩
  rcases Scene.step_saves_or desk.config.windows now desk.scene plain with asked | same | ⟨_, moving, same⟩
  · exact .inr (.inl (List.mem_append_right _ asked))
  · have scene : (desk.act now action).scene = desk.scene := same
    rcases accounted.pending with moving | waiting | saved
    · exact .inl (scene ▸ moving)
    · exact .inr (.inl (List.mem_append_left _ waiting))
    · exact .inr (.inr (by rwa [SavedOr, scene]))
  · have gestures : (desk.act now action).scene.gestures = desk.scene.gestures := same
    exact .inl (gestures ▸ moving)

theorem drain (accounted : Accounted pristine desk store) (stamp : UInt64) :
    Accounted pristine (desk.runEffects store stamp).1 (desk.runEffects store stamp).2.1 := by
  obtain ⟨⟨envelopes, rfl⟩, pending⟩ := accounted
  by_cases waiting : .save ∈ desk.queue
  · let e := Envelope.make layoutName Desktop.layoutVersion desk.scene.desktop.snapshot.toJson stamp
    have written : (desk.runEffects (.memory envelopes) stamp).2.1 = .memory (Store.insert e envelopes) := by
      simp [runEffects, takeEffects, save, Store.saveLayout, Store.saveAs, Store.save, waiting, e]
    rw [written]
    exact ⟨⟨_, rfl⟩, .inr (.inr (.inl (Store.keepsLayout_insert desk.scene.desktop envelopes stamp)))⟩
  · have left : (desk.runEffects (.memory envelopes) stamp).2.1 = .memory envelopes := by
      simp [runEffects, takeEffects, waiting]
    rw [left]
    refine ⟨⟨envelopes, rfl⟩, ?_⟩
    rcases pending with moving | queued | saved
    · exact .inl moving
    · exact absurd queued waiting
    · exact .inr (.inr saved)

end Accounted

namespace Worked
variable {config : Config Float} {files : Files.Tree} {desk : Desk} {store : Store}

theorem accounted (worked : Worked config files desk store) :
    Accounted (Scene.start config).desktop.snapshot desk store := by
  induction worked with
  | start => exact ⟨⟨[], rfl⟩, .inr (.inr (.inr ⟨rfl, rfl⟩))⟩
  | act now action _ plain ih => exact ih.act now plain
  | drain stamp _ ih => exact ih.drain stamp

/-- A desk at rest has its layout in the store, or nothing was ever saved and the layout is still the
    one that its configuration starts with: the same windows, icons, z counter and background. -/
theorem saved_or_pristine (worked : Worked config files desk store) (idle : desk.scene.gestures.Idle)
    (drained : .save ∉ desk.queue) :
    let d := desk.scene.desktop
    let first := (Scene.start config).desktop
    store.KeepsLayout d ∨ store = .memory [] ∧ d.snapshot = first.snapshot ∧ d.windows = first.windows ∧
      d.icons = first.icons ∧ d.nextZ = first.nextZ ∧ d.background = first.background := by
  intro d first
  rcases worked.accounted.pending with moving | waiting | kept | ⟨unused, same⟩
  · exact absurd idle moving
  · exact absurd waiting drained
  · exact .inl kept
  · have parts : d.windows = first.windows ∧ d.icons = first.icons ∧ d.nextZ = first.nextZ ∧
        d.background = first.background := by simpa [Desktop.snapshot] using same
    exact .inr ⟨unused, same, parts⟩

/-- A window that is dragged and closed before the drag ends, with effects carried out while it is
    dragged and after it is closed, leaves the layout without it in the store. -/
theorem saved_or_pristine_closed :
    let opened := (Desk.start Config.standard (.empty 0)).act 1 (.openApp "terminal" none)
    let dragged := opened.act 2 (.beginDrag "win-1" ⟨0, 0⟩)
    let half := dragged.runEffects (.memory []) 3
    let closed := (half.1.act 4 (.dragTo ⟨9, 9⟩)).act 5 (.close "win-1")
    let done := closed.runEffects half.2.1 6
    done.1.scene.desktop.windows.length = 0 ∧ done.2.1.KeepsLayout done.1.scene.desktop := by
  intro opened dragged half closed done
  have atDragged : Worked Config.standard (.empty 0) dragged (.memory []) := .act 2 _ (.act 1 _ .start rfl) rfl
  have atDone : Worked Config.standard (.empty 0) done.1 done.2.1 :=
    .drain 6 (.act 5 _ (.act 4 _ (.drain 3 atDragged) rfl) rfl)
  have written : done.2.1.names = [layoutName] := by decide +kernel
  refine ⟨by decide +kernel, ?_⟩
  rcases atDone.saved_or_pristine ⟨by decide +kernel, by decide +kernel⟩ (by decide +kernel) with
    kept | ⟨empty, _⟩
  · exact kept
  · simp [empty, Store.names] at written

end Worked

end Desk

namespace Scene

/-- After actions with finite numbers the layout can be saved in any memory, and it is loaded again
    just as it was when every window has a finite place, and not at all otherwise. The windows have
    finite places when no place that was computed on the way left the range of floats. -/
theorem Reached.loadLayout_saved {config : Config Float} {s : Scene Float}
    (run : s.Reached config (fun _ => True) fun _ action => action.isFinite = true)
    (envelopes : List Envelope) (stamp : UInt64) :
    ∃ kept, (Store.memory envelopes).saveLayout s.desktop stamp = .ok kept ∧
      (kept.loadLayout = if s.desktop.windows.all (·.rect.isFinite) then some s.desktop.snapshot else none) ∧
      (s.Reached config (fun _ => True) (Stays config) → kept.loadLayout = some s.desktop.snapshot) := by
  have icons : s.desktop.icons.all (·.isFinite) = true := List.all_eq_true.mpr run.finiteIcons
  have loaded := Store.loadLayout_insert s.desktop envelopes stamp
  rw [Snapshot.ofJson?_toJson, Snapshot.isFinite] at loaded
  simp only [Desktop.snapshot, icons, Bool.and_true] at loaded
  refine ⟨_, rfl, loaded, ?_⟩
  intro stays
  have places : s.desktop.windows.all (·.rect.isFinite) = true := List.all_eq_true.mpr stays.finitePlaces
  rw [places] at loaded
  exact loaded

/-- A window that is dragged far away, but not out of the range of floats, is loaded where it was
    saved. -/
theorem loadLayout_saved_dragged :
    let standard := Config.standard
    let opened := ((start standard).step standard.windows 1 (.openApp "terminal" none)).1
    let begun := (opened.step standard.windows 2 (.beginDrag "win-1" ⟨-1e307, 0⟩)).1
    let dragged := (begun.step standard.windows 3 (.dragTo ⟨1e307, 8⟩)).1
    ∃ kept, (Store.memory []).saveLayout dragged.desktop 4 = .ok kept ∧
      kept.loadLayout = some dragged.desktop.snapshot := by
  intro standard opened begun dragged
  have atDragged : dragged.Reached standard (fun _ => True) (Stays standard) := by
    refine .step 3 _ (.step 2 _ (.step 1 _ (.start trivial) ⟨rfl, ?_⟩ trivial) ⟨?_, rfl⟩ trivial) ⟨?_, ?_⟩ trivial
    all_goals decide +kernel
  obtain ⟨kept, saved, _, loaded⟩ := Reached.loadLayout_saved (atDragged.mono fun _ _ stays => stays.1) [] 4
  exact ⟨kept, saved, loaded atDragged⟩

/-- A drag over the whole range of floats takes a window out of it, after which the layout of the
    desktop is saved but not loaded. -/
theorem loadLayout_saved_overflow :
    let standard := Config.standard
    let opened := ((start standard).step standard.windows 1 (.openApp "terminal" none)).1
    let begun := (opened.step standard.windows 2 (.beginDrag "win-1" ⟨-1e308, 0⟩)).1
    let dragged := (begun.step standard.windows 3 (.dragTo ⟨1e308, 0⟩)).1
    standard.fault?.isNone = true ∧ standard.windows.isFinite = true ∧
      (dragged.Reached standard (fun _ => True) fun _ action => action.isFinite = true) ∧
      ∃ kept, (Store.memory []).saveLayout dragged.desktop 4 = .ok kept ∧
        kept.loadLayout ≠ some dragged.desktop.snapshot := by
  intro standard opened begun dragged
  obtain ⟨kept, saved⟩ : ∃ kept, (Store.memory []).saveLayout dragged.desktop 4 = .ok kept := ⟨_, rfl⟩
  refine ⟨by decide +kernel, by decide +kernel, ?_, kept, saved, ?_⟩
  · exact .step 3 _ (.step 2 _ (.step 1 _ (.start trivial) rfl trivial) (by decide +kernel) trivial)
      (by decide +kernel) trivial
  · have lost : ((Store.memory []).saveLayout dragged.desktop 4).toOption.map (·.loadLayout.isNone) = some true := by
      decide +kernel
    intro loaded
    simp [saved, loaded, Except.toOption] at lost

end Scene

end DesktopShell
