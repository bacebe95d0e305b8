import DesktopShell.Proofs.Desktop.Removal

/-!
# Windows that an action leaves alone

Besides the windows that it removes or opens an action is on one window at most
(`Scene.target?`). All others stay as they are and in their order, except that they may
lose the focus, and an uninstallation leaves even the focus (`Scene.step_spares`).
-/
namespace DesktopShell

namespace Desktop
variable {α : Type} {d next : Desktop α}

/-- The windows that are not gone stand in the order that they had, before those that were opened. Of them only the
    target may have changed, and the others may have lost the focus. -/
def Spares (d next : Desktop α) (target : Option String) (gone : Window α → Bool) (opened : List (Window α)) : Prop :=
  ∃ f : Window α → Window α, next.windows = (d.windows.filter fun w => !gone w).map f ++ opened ∧
    ∀ w ∈ d.windows, target ≠ some w.id → f w = w ∨ f w = w.dimmed

theorem Spares.of_windows {gone : Window α → Bool} (windows : next.windows = d.windows.filter fun w => !gone w)
    (target : Option String) : d.Spares next target gone [] :=
  ⟨id, by simp [windows], fun _ _ _ => .inl rfl⟩

theorem Spares.same (windows : next.windows = d.windows) (target : Option String) :
    d.Spares next target (fun _ => false) [] :=
  .of_windows (by simp [windows]) target

theorem Spares.change (ids : (d.windows.map (·.id)).Nodup) (id : String) (f : Window α → Window α) :
    d.Spares (d.change id f) (some id) (fun _ => false) [] := by
  refine ⟨fun w => if w.id = id then f w else w, ?_, ?_⟩
  · simp [Desktop.change, changeFirst_eq_map ids]
  · intro w _ other
    have unlike : w.id ≠ id := fun same => other (congrArg some same.symm)
    exact .inl (if_neg unlike)

theorem Spares.raise (d : Desktop α) (id : String) : d.Spares (d.raise id) (some id) (fun _ => false) [] := by
  refine ⟨fun w => if w.id = id then w.fronted d.nextZ else w.dimmed, ?_, ?_⟩
  · simp [Desktop.raise, Window.fronted, Window.dimmed]
  · intro w _ other
    have unlike : w.id ≠ id := fun same => other (congrArg some same.symm)
    exact .inr (if_neg unlike)

theorem Spares.close (ids : (d.windows.map (·.id)).Nodup) (id : String) :
    d.Spares (d.remove id).unfocus (some id) (fun w => w.id = id) [] := by
  refine ⟨Window.dimmed, ?_, fun _ _ _ => .inr rfl⟩
  simp only [unfocus, remove, eraseP_eq_filter_key ids, List.append_nil, ← decide_not]
  rfl

theorem Spares.open [Coordinate α] (d : Desktop α) (defaults : Defaults α) (now : UInt64) (app : App)
    (data : Option Json) (target : Option String) :
    d.Spares (d.unfocus.addWindow defaults now app data) target (fun _ => false)
      [d.unfocus.newWindow defaults now app data] := by
  refine ⟨Window.dimmed, ?_, fun _ _ _ => .inr rfl⟩
  simp [addWindow, unfocus, Window.dimmed]

/-- Where one window at most has the focus, no window has it that keeps company with another one in focus. -/
theorem unfocused_of_countP_le_one (once : d.windows.countP (·.focused) ≤ 1) {v w : Window α} (member : v ∈ d.windows)
    (member' : w ∈ d.windows) (focused : v.focused = true) (other : w ≠ v) : w.focused = false := by
  refine Bool.eq_false_iff.mpr fun focused' => other ?_
  exact eq_of_countP_le_one once member' member focused' focused

end Desktop

namespace Scene
variable {α : Type} {s : Scene α}

/-- The window that an action is on: the one that it names, the one that the gesture is on which it carries on, or
    the one window that the application has which it opens. -/
def target? (s : Scene α) : Action α → Option String
  | .openApp app _ => (s.desktop.app? app).bind fun app => (s.desktop.onlyWindow? app).map (·.id)
  | .dragTo _ => s.gestures.drag.map (·.window)
  | .stretchTo _ => s.gestures.stretch.map (·.window)
  | action => action.window?

/-- The action removes a window: it closes it, or uninstalls its application. -/
def removes (s : Scene α) : Action α → Window α → Bool
  | .close id, w => w.id = id
  | .uninstall app, w => (s.desktop.app? app).isSome && w.app = app
  | _, _ => false

section
variable (ids : (s.desktop.windows.map (·.id)).Nodup)
include ids

theorem spares_edit (id : String) (f : Window α → Window α) :
    s.desktop.Spares (s.edit id f).1.desktop (some id) (fun _ => false) [] := by
  unfold edit
  split
  · exact .change ids id f
  · exact .same rfl _

theorem spares_setData (id : String) (patch : Json) :
    s.desktop.Spares (s.setData id patch).1.desktop (some id) (fun _ => false) [] := by
  unfold setData
  split
  · exact spares_edit ids id _
  · exact .same rfl _

theorem spares_close (id : String) :
    s.desktop.Spares (s.close id).1.desktop (some id) (fun w => w.id = id) [] := by
  unfold close
  split
  · exact .close ids id
  · rename_i absent
    have unlike : ∀ w ∈ s.desktop.windows, w.id ≠ id := fun w member named =>
      absent (Desktop.hasWindow_iff.mpr (named ▸ List.mem_map_of_mem member))
    refine .of_windows (List.filter_eq_self.mpr fun w member => ?_).symm _
    simp [unlike w member]

end

theorem spares_focus (s : Scene α) (id : String) :
    s.desktop.Spares (s.focus id).1.desktop (some id) (fun _ => false) [] := by
  unfold focus
  split
  · exact .raise s.desktop id
  · exact .same rfl _

theorem spares_toggle (ids : (s.desktop.windows.map (·.id)).Nodup) (id : String) :
    s.desktop.Spares (s.toggle id).1.desktop (some id) (fun _ => false) [] := by
  unfold toggle
  split
  · exact .same rfl _
  · split
    · exact spares_edit ids id _
    · exact spares_focus s id

theorem spares_beginDrag (s : Scene α) (id : String) (pointer : Point α) :
    s.desktop.Spares (s.beginDrag id pointer).1.desktop (some id) (fun _ => false) [] := by
  unfold beginDrag
  split
  · exact .same rfl _
  · exact spares_focus s id

theorem spares_beginStretch (s : Scene α) (id : String) (edge : Edge) (pointer : Point α) :
    s.desktop.Spares (s.beginStretch id edge pointer).1.desktop (some id) (fun _ => false) [] := by
  unfold beginStretch
  split
  · exact .same rfl _
  · exact spares_focus s id

section
variable [Coordinate α] {defaults : Defaults α} {now : UInt64}

theorem spares_openApp (s : Scene α) (app : String) (data : Option Json) : ∃ opened,
    s.desktop.Spares (s.openApp defaults now app data).1.desktop (s.target? (.openApp app data)) (fun _ => false)
      opened ∧ opened.length ≤ 1 := by
  cases found : s.desktop.app? app with
  | none => exact ⟨[], by simpa [openApp, found] using .same rfl _, by simp⟩
  | some a =>
    cases only : s.desktop.onlyWindow? a with
    | none => exact ⟨_, by simpa [openApp, found, only] using .open s.desktop defaults now a data _, by simp⟩
    | some w =>
      have target : s.target? (.openApp app data) = some w.id := by simp [target?, found, only]
      rw [target]
      exact ⟨[], by simpa [openApp, found, only] using spares_focus s w.id, by simp⟩

theorem spares_dragTo (ids : (s.desktop.windows.map (·.id)).Nodup) (pointer : Point α) :
    s.desktop.Spares (s.dragTo pointer).1.desktop (s.target? (.dragTo pointer)) (fun _ => false) [] := by
  cases active : s.gestures.drag with
  | none => simpa [dragTo, active] using .same rfl _
  | some drag => simpa [dragTo, target?, active] using .change ids drag.window _

theorem spares_stretchTo (ids : (s.desktop.windows.map (·.id)).Nodup) (pointer : Point α) :
    s.desktop.Spares (s.stretchTo defaults pointer).1.desktop (s.target? (.stretchTo pointer)) (fun _ => false) [] := by
  cases active : s.gestures.stretch with
  | none => simpa [stretchTo, active] using .same rfl _
  | some stretch => simpa [stretchTo, target?, active] using .change ids stretch.window _

end

/-- The windows of other applications stay as they are, with the focus too: it is taken from them when a window that
    goes has it, and then none of them does. -/
theorem windows_uninstall (ids : (s.desktop.windows.map (·.id)).Nodup)
    (once : s.desktop.windows.countP (·.focused) ≤ 1) (app : String) :
    (s.uninstall app).1.desktop.windows = s.desktop.windows.filter fun w => !s.removes (.uninstall app) w := by
  cases found : s.desktop.app? app with
  | none => simp [uninstall, removes, found, unchanged]
  | some a =>
    have kept : s.desktop.windows.filter (fun w => !s.removes (.uninstall app) w) =
        (s.desktop.removeApp app).windows := by
      simp [removes, found, Desktop.removeApp]
    rw [kept]
    simp only [uninstall, found]
    split
    · rename_i had
      obtain ⟨id, gone, focused⟩ := List.any_eq_true.mp had
      obtain ⟨v, member, rfl⟩ := List.mem_map.mp gone
      obtain ⟨old, owned⟩ := List.mem_filter.mp member
      have here : s.desktop.window? v.id = some v := (find?_eq_some_iff_key ids).mpr ⟨old, rfl⟩
      have front : v.focused = true := by simpa [Desktop.hasFocus, here] using focused
      refine (List.map_congr_left fun w stays => ?_).trans (List.map_id _)
      obtain ⟨before, other⟩ := Desktop.mem_removeApp.mp stays
      have apart : w ≠ v := fun same => other (same ▸ of_decide_eq_true owned)
      have dim := Desktop.unfocused_of_countP_le_one once old before front apart
      simp [← dim]
    · rfl

/-- The applications and icons besides those of the uninstalled application are the same ones in the same order. -/
theorem catalogue_uninstall (s : Scene α) (app : String) :
    let next := (s.uninstall app).1.desktop
    (next.apps.filter fun a => a.id ≠ app) = (s.desktop.apps.filter fun a => a.id ≠ app) ∧
      (next.icons.filter fun icon => icon.app ≠ app) = s.desktop.icons.filter fun icon => icon.app ≠ app := by
  intro next
  have after : next.apps = s.desktop.apps ∧ next.icons = s.desktop.icons ∨
      next.apps = (s.desktop.removeApp app).apps ∧ next.icons = (s.desktop.removeApp app).icons := by
    simp only [next, uninstall]
    split
    · exact .inl ⟨rfl, rfl⟩
    · split <;> exact .inr ⟨rfl, rfl⟩
  rcases after with ⟨apps, icons⟩ | ⟨apps, icons⟩
  · exact ⟨by rw [apps], by rw [icons]⟩
  · rw [apps, icons]
    exact ⟨by simp [Desktop.removeApp], by simp [Desktop.removeApp]⟩

/-- Where the windows have ids of their own and one at most has the focus, an action that takes over no snapshot leaves
    every window but its target as it was, except that the focus may go, and in its place among the others. Only an
    opening adds a window. An uninstallation changes no window at all that it does not remove, and no application or
    icon. -/
theorem step_spares [Coordinate α] (defaults : Defaults α) (now : UInt64)
    (ids : (s.desktop.windows.map (·.id)).Nodup) (once : s.desktop.windows.countP (·.focused) ≤ 1)
    {action : Action α} (plain : action.isRestore = false) :
    let next := (s.step defaults now action).1.desktop
    (∃ opened, s.desktop.Spares next (s.target? action) (s.removes action) opened ∧ opened.length ≤ 1 ∧
      ((∀ app data, action ≠ .openApp app data) → opened = [])) ∧
    ∀ app, action = .uninstall app →
      (next.windows = s.desktop.windows.filter fun w => !s.removes action w) ∧
      (next.apps.filter fun a => a.id ≠ app) = (s.desktop.apps.filter fun a => a.id ≠ app) ∧
      (next.icons.filter fun icon => icon.app ≠ app) = s.desktop.icons.filter fun icon => icon.app ≠ app := by
  intro next
  have alone (spares : s.desktop.Spares next (s.target? action) (s.removes action) []) :
      ∃ opened, s.desktop.Spares next (s.target? action) (s.removes action) opened ∧ opened.length ≤ 1 ∧
        ((∀ app data, action ≠ .openApp app data) → opened = []) :=
    ⟨[], spares, by simp, fun _ => rfl⟩
  refine ⟨?_, ?_⟩
  · cases action with
    | openApp app data =>
      obtain ⟨opened, spares, few⟩ := s.spares_openApp app data
      exact ⟨opened, spares, few, fun other => absurd rfl (other app data)⟩
    | close id => exact alone (spares_close ids id)
    | focus id => exact alone (s.spares_focus id)
    | minimize id => exact alone (spares_edit ids id _)
    | move id x y => exact alone (spares_edit ids id _)
    | resize id width height => exact alone (spares_edit ids id _)
    | setData id patch => exact alone (spares_setData ids id patch)
    | toggle id => exact alone (spares_toggle ids id)
    | beginDrag id pointer => exact alone (s.spares_beginDrag id pointer)
    | dragTo pointer => exact alone (spares_dragTo ids pointer)
    | endDrag =>
      refine alone (.same ?_ _)
      simp only [next, step, endDrag]
      split <;> rfl
    | beginStretch id edge pointer => exact alone (s.spares_beginStretch id edge pointer)
    | stretchTo pointer => exact alone (spares_stretchTo ids pointer)
    | endStretch =>
      refine alone (.same ?_ _)
      simp only [next, step, endStretch]
      split <;> rfl
    | install new => exact alone (.same rfl _)
    | uninstall app => exact alone (.of_windows (windows_uninstall ids once app) _)
    | setBackground background =>
      refine alone (.same ?_ _)
      simp only [next, step, setBackground]
      split <;> rfl
    | restore snapshot => simp [Action.isRestore] at plain
  · rintro app rfl
    exact ⟨windows_uninstall ids once app, s.catalogue_uninstall app⟩

/-- Of three windows the middle one goes with its application, and the one in focus is not touched by that. -/
theorem step_spares_uninstalled :
    let standard := Config.standard
    let one := ((start standard).step standard.windows 1 (.openApp "terminal" none)).1
    let two := (one.step standard.windows 2 (.openApp "browser" none)).1
    let s := (two.step standard.windows 3 (.openApp "terminal" none)).1
    let next := (s.step standard.windows 4 (.uninstall "browser")).1.desktop
    s.desktop.windows.map (fun w => (w.id, w.focused)) = [("win-1", false), ("win-2", false), ("win-3", true)] ∧
      next.windows = (s.desktop.windows.filter fun w => !s.removes (.uninstall "browser") w) ∧
      next.windows.map (fun w => (w.id, w.focused)) = [("win-1", false), ("win-3", true)] ∧
      (next.apps.filter fun a => a.id ≠ "browser") = (s.desktop.apps.filter fun a => a.id ≠ "browser") ∧
      (next.icons.filter fun icon => icon.app ≠ "browser") =
        s.desktop.icons.filter fun icon => icon.app ≠ "browser" := by
  intro standard one two s next
  have ids : (s.desktop.windows.map (·.id)).Nodup := by decide +kernel
  have once : s.desktop.windows.countP (·.focused) ≤ 1 := by decide +kernel
  have plain : (Action.uninstall "browser" : Action Float).isRestore = false := rfl
  obtain ⟨_, spared⟩ := step_spares standard.windows 4 ids once plain
  obtain ⟨windows, apps, icons⟩ := spared "browser" rfl
  exact ⟨by decide +kernel, windows, by decide +kernel, apps, icons⟩

end Scene

end DesktopShell
