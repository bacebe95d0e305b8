import DesktopShell.Proofs.Desktop.Runs
import DesktopShell.Proofs.Text

/-!
# Windows that are gone

The ids of windows are given out by a counter, so that an id which it has passed and which
no window has is gone for good (`Desktop.Gone`). An action that names such an id does
nothing (`Scene.step_of_gone`), and no gesture is on it, since gestures are on windows that
are there (`Scene.Held`) and end with them.
-/
namespace DesktopShell

namespace Desktop
variable {α : Type} {d next : Desktop α} {id : String}

theorem hasWindow_iff : d.hasWindow id = true ↔ id ∈ d.windows.map (·.id) := by
  simp [hasWindow]

theorem hasWindow_eq_false : d.hasWindow id = false ↔ id ∉ d.windows.map (·.id) := by
  rw [← hasWindow_iff, Bool.not_eq_true]

theorem window?_eq_none (absent : id ∉ d.windows.map (·.id)) : d.window? id = none := by
  refine List.find?_eq_none.mpr fun w member named => absent (List.mem_map.mpr ⟨w, member, ?_⟩)
  simpa using named

theorem ids_change (d : Desktop α) (id : String) {f : Window α → Window α} (keeps : ∀ w, (f w).id = w.id) :
    (d.change id f).windows.map (·.id) = d.windows.map (·.id) := map_changeFirst Window.id keeps _

theorem ids_addWindow [Coordinate α] (d : Desktop α) (defaults : Defaults α) (now : UInt64) (app : App)
    (data : Option Json) : (d.addWindow defaults now app data).windows.map (·.id) =
      d.windows.map (·.id) ++ [d.nextWindowId] := List.map_append

theorem ids_remove (d : Desktop α) (id : String) :
    (d.remove id).windows.map (·.id) = (d.windows.map (·.id)).erase id := by
  rw [List.erase_eq_eraseP', List.eraseP_map]
  rfl

/-- The windows have ids of their own, and the counter has passed all numbers that these are made from. -/
def WindowsIssued (d : Desktop α) : Prop := Counter.Issued "win" d.nextWindow (d.windows.map (·.id))

/-- The counter has passed the number that an id is made from, if it is made from one. -/
def Passed (d : Desktop α) (id : String) : Prop := ∀ k, id = Counter.label "win" k → k < d.nextWindow

/-- No window has an id, and the counter has passed its number. -/
structure Gone (d : Desktop α) (id : String) : Prop where
  absent : id ∉ d.windows.map (·.id)
  passed : d.Passed id

section
variable [Coordinate α] {defaults : Defaults α} {now : UInt64}

theorem Turn.le_nextWindow (turn : Turn defaults now d next) : d.nextWindow ≤ next.nextWindow := by
  rcases turn.remains_or with remains | ⟨_, _, rfl⟩ | ⟨_, _, rfl⟩
  · exact remains.window ▸ UInt64.le_refl _
  · exact UInt64.le_refl _
  · exact Counter.le_next _

theorem Passed.turn (passed : d.Passed id) (turn : Turn defaults now d next) : next.Passed id :=
  fun k named => UInt64.lt_of_lt_of_le (passed k named) turn.le_nextWindow

theorem WindowsIssued.turn (issued : d.WindowsIssued) (turn : Turn defaults now d next)
    (room : next.nextWindow < Counter.top) : next.WindowsIssued := by
  unfold WindowsIssued at *
  rcases turn.remains_or with remains | ⟨id, _, rfl⟩ | ⟨app, data, rfl⟩
  · exact remains.window ▸ issued.sublist remains.ids
  · rwa [ids_raise]
  · rw [ids_addWindow, ids_unfocus]
    exact issued.push (Counter.ne_top_of_next room)

theorem Gone.turn (gone : d.Gone id) (turn : Turn defaults now d next) : next.Gone id := by
  refine ⟨?_, gone.passed.turn turn⟩
  rcases turn.remains_or with remains | ⟨other, _, rfl⟩ | ⟨app, data, rfl⟩
  · exact fun used => gone.absent (remains.ids.subset used)
  · rw [ids_raise]
    exact gone.absent
  · rw [ids_addWindow, ids_unfocus, List.mem_append, List.mem_singleton, not_or]
    refine ⟨gone.absent, fun fresh => ?_⟩
    exact UInt64.lt_irrefl _ (gone.passed d.nextWindow fresh)

end

/-- A window that is closed or goes with its application leaves no other one of its id behind. -/
theorem WindowsIssued.not_mem_remove (issued : d.WindowsIssued) (id : String) :
    id ∉ (d.remove id).windows.map (·.id) := by
  rw [ids_remove]
  exact issued.apart.not_mem_erase

theorem WindowsIssued.not_mem_removeApp (issued : d.WindowsIssued) {w : Window α} (member : w ∈ d.windows) :
    w.id ∉ (d.removeApp w.app).windows.map (·.id) := by
  intro used
  obtain ⟨v, left, same⟩ := List.mem_map.mp used
  obtain ⟨old, other⟩ := mem_removeApp.mp left
  exact other (congrArg Window.app (List.inj_on_of_nodup_map issued.apart old member same))

end Desktop

/-- The window that an action names. -/
def Action.window? {α : Type} : Action α → Option String
  | .close id => some id
  | .focus id => some id
  | .minimize id => some id
  | .move id _ _ => some id
  | .resize id _ _ => some id
  | .setData id _ => some id
  | .toggle id => some id
  | .beginDrag id _ => some id
  | .beginStretch id _ _ => some id
  | _ => none

/-- The windows that gestures are on. -/
def Gestures.windows {α : Type} (g : Gestures α) : List String :=
  g.drag.toList.map (·.window) ++ g.stretch.toList.map (·.window)

@[simp] theorem Gestures.windows_none {α : Type} : (Gestures.none : Gestures α).windows = [] := rfl

theorem Gestures.windows_without {α : Type} (g : Gestures α) (id : String) :
    (g.without id).windows = g.windows.filter fun other => other ≠ id := by
  simp [windows, without, Option.toList_filter, List.filter_map, Function.comp_def]

theorem Gestures.mem_windows_foldl_without {α : Type} {g : Gestures α} {ids : List String} {id : String} :
    id ∈ (ids.foldl without g).windows ↔ id ∈ g.windows ∧ id ∉ ids := by
  induction ids generalizing g with
  | nil => simp
  | cons first rest ih => simp [ih, windows_without, and_assoc]

namespace Scene
variable {α : Type} {s : Scene α} {defaults : Defaults α} {now : UInt64}

/-- An action that names an id which no window has changes nothing and asks for nothing. -/
theorem step_of_gone [Coordinate α] {id : String} (absent : id ∉ s.desktop.windows.map (·.id)) 
    {action : Action α} (named : action.window? = some id) : s.step defaults now action = s.unchanged := by
  have unknown := Desktop.hasWindow_eq_false.mpr absent
  have nothing := Desktop.window?_eq_none absent
  cases action with
  | setData window patch =>
    obtain rfl : window = id := by simpa [Action.window?] using named
    cases patch <;> simp [step, setData, edit, unknown]
  | _ => simp_all [Action.window?, step, close, focus, minimize, edit, toggle, beginDrag, beginStretch]

theorem gone_close {id : String} (issued : s.desktop.WindowsIssued) (passed : s.desktop.Passed id) :
    (s.close id).1.desktop.Gone id := by
  unfold close
  split
  · refine ⟨?_, passed⟩
    rw [Desktop.ids_unfocus]
    exact issued.not_mem_remove id
  · rename_i absent
    exact ⟨Desktop.hasWindow_iff.not.mp absent, passed⟩

theorem gone_uninstall {w : Window α} {app : App} (issued : s.desktop.WindowsIssued) (member : w ∈ s.desktop.windows)
    (listed : s.desktop.app? w.app = some app) : (s.uninstall w.app).1.desktop.Gone w.id := by
  have passed : s.desktop.Passed w.id := fun k named => issued.behind k (named ▸ List.mem_map_of_mem member)
  have absent := issued.not_mem_removeApp member
  simp only [uninstall, listed]
  split
  · exact ⟨by rwa [Desktop.ids_unfocus], passed⟩
  · exact ⟨absent, passed⟩

theorem gone_step [Coordinate α] {id : String} (s : Scene α) (defaults : Defaults α) (now : UInt64)
    (action : Action α) (plain : action.isRestore = false) (gone : s.desktop.Gone id) :
    (s.step defaults now action).1.desktop.Gone id :=
  gone.turn (s.step_turn plain)

/-- Every gesture is on a window that is there. -/
def Held (s : Scene α) : Prop := ∀ id ∈ s.gestures.windows, id ∈ s.desktop.windows.map (·.id)

namespace Held
variable {id : String}

/-- Gestures go on, end, or begin on windows that are there, and these stay. -/
theorem keep (held : s.Held) {next : Scene α}
    (on : ∀ id ∈ next.gestures.windows, id ∈ s.gestures.windows ∨ id ∈ s.desktop.windows.map (·.id))
    (stay : s.desktop.windows.map (·.id) ⊆ next.desktop.windows.map (·.id)) : next.Held :=
  fun id gesture => stay ((on id gesture).elim (held id) fun there => there)

theorem change (held : s.Held) (id : String) {f : Window α → Window α} (keeps : ∀ w, (f w).id = w.id) :
    ({ s with desktop := s.desktop.change id f } : Scene α).Held :=
  held.keep (fun _ => .inl) (Desktop.ids_change s.desktop id keeps ▸ List.Subset.refl _)

theorem edit (held : s.Held) (id : String) {f : Window α → Window α} (keeps : ∀ w, (f w).id = w.id) :
    (s.edit id f).1.Held := by
  unfold Scene.edit
  split
  · exact held.change id keeps
  · exact held

theorem minimize (held : s.Held) (id : String) : (s.minimize id).1.Held := held.edit id fun _ => rfl

theorem focus (held : s.Held) (id : String) : (s.focus id).1.Held := by
  unfold Scene.focus
  split
  · exact held.keep (fun _ => .inl) (Desktop.ids_raise s.desktop id ▸ List.Subset.refl _)
  · exact held

theorem toggle (held : s.Held) (id : String) : (s.toggle id).1.Held := by
  unfold Scene.toggle
  split
  · exact held
  · split
    · exact held.minimize id
    · exact held.focus id

theorem setData (held : s.Held) (id : String) (patch : Json) : (s.setData id patch).1.Held := by
  unfold Scene.setData
  split
  · exact held.edit id fun _ => rfl
  · exact held

theorem openApp [Coordinate α] (held : s.Held) (id : String) (data : Option Json) :
    (s.openApp defaults now id data).1.Held := by
  unfold Scene.openApp
  split
  · exact held
  · split
    · exact held.focus _
    · refine held.keep (fun _ => .inl) ?_
      simp [Desktop.ids_addWindow]

theorem beginDrag (held : s.Held) (id : String) (pointer : Point α) : (s.beginDrag id pointer).1.Held := by
  unfold Scene.beginDrag
  split
  · exact held
  · rename_i w found
    have present := Desktop.hasWindow_of_window? found
    have there := Desktop.hasWindow_iff.mp present
    simp only [Scene.focus, present, if_true]
    refine held.keep ?_ (Desktop.ids_raise s.desktop id ▸ List.Subset.refl _)
    simp only [Gestures.windows, Option.toList_some, List.map_cons, List.map_nil, List.singleton_append, List.mem_cons,
      List.mem_append]
    rintro other (rfl | stretched)
    · exact .inr there
    · exact .inl (.inr stretched)

theorem beginStretch (held : s.Held) (id : String) (edge : Edge) (pointer : Point α) :
    (s.beginStretch id edge pointer).1.Held := by
  unfold Scene.beginStretch
  split
  · exact held
  · rename_i w found
    have present := Desktop.hasWindow_of_window? found
    have there := Desktop.hasWindow_iff.mp present
    simp only [Scene.focus, present, if_true]
    refine held.keep ?_ (Desktop.ids_raise s.desktop id ▸ List.Subset.refl _)
    simp only [Gestures.windows, Option.toList_some, List.map_cons, List.map_nil, List.mem_append, List.mem_singleton]
    rintro other (dragged | rfl)
    · exact .inl (.inl dragged)
    · exact .inr there

theorem dragTo [Coordinate α] (held : s.Held) (pointer : Point α) : (s.dragTo pointer).1.Held := by
  unfold Scene.dragTo
  split
  · exact held
  · exact held.change _ fun _ => rfl

theorem stretchTo [Coordinate α] (held : s.Held) (pointer : Point α) :
    (s.stretchTo defaults pointer).1.Held := by
  unfold Scene.stretchTo
  split
  · exact held
  · exact held.change _ fun _ => rfl

theorem endDrag (held : s.Held) : s.endDrag.1.Held := by
  unfold Scene.endDrag
  split
  · exact held
  · exact held.keep (fun id gesture => .inl (List.mem_append_right _ gesture)) (List.Subset.refl _)

theorem endStretch (held : s.Held) : s.endStretch.1.Held := by
  unfold Scene.endStretch
  split
  · exact held
  · refine held.keep (fun id gesture => .inl (List.mem_append_left _ ?_)) (List.Subset.refl _)
    simpa [Gestures.windows] using gesture

/-- A gesture on a closed window ends, and the other windows are still there. -/
theorem close (held : s.Held) (id : String) : (s.close id).1.Held := by
  unfold Scene.close
  split
  · intro other on
    simp only [Gestures.windows_without, List.mem_filter, decide_eq_true_eq] at on
    simp only [Desktop.ids_unfocus, Desktop.ids_remove]
    exact (List.mem_erase_of_ne on.2).mpr (held other on.1)
  · exact held

/-- Gestures on the windows of an application end with it, and the windows of the others are still there. -/
theorem uninstall (held : s.Held) (app : String) : (s.uninstall app).1.Held := by
  unfold Scene.uninstall
  split
  · exact held
  · intro other on
    obtain ⟨before, spared⟩ := Gestures.mem_windows_foldl_without.mp on
    obtain ⟨w, member, rfl⟩ := List.mem_map.mp (held other before)
    have elsewhere : w.app ≠ app := fun inside => spared (List.mem_map.mpr ⟨w, by simp [member, inside], rfl⟩)
    have stays : w.id ∈ (s.desktop.removeApp app).windows.map (·.id) :=
      List.mem_map_of_mem (Desktop.mem_removeApp.mpr ⟨member, elsewhere⟩)
    dsimp only
    split
    · rwa [Desktop.ids_unfocus]
    · exact stays

theorem step [Coordinate α] (held : s.Held) (action : Action α) : (s.step defaults now action).1.Held := by
  cases action with
  | openApp app data => exact held.openApp app data
  | close id => exact held.close id
  | focus id => exact held.focus id
  | minimize id => exact held.minimize id
  | move id x y => exact held.edit id fun _ => rfl
  | resize id width height => exact held.edit id fun _ => rfl
  | setData id patch => exact held.setData id patch
  | toggle id => exact held.toggle id
  | beginDrag id pointer => exact held.beginDrag id pointer
  | dragTo pointer => exact held.dragTo pointer
  | endDrag => exact held.endDrag
  | beginStretch id edge pointer => exact held.beginStretch id edge pointer
  | stretchTo pointer => exact held.stretchTo pointer
  | endStretch => exact held.endStretch
  | install app => exact held.keep (fun _ => .inl) (List.Subset.refl _)
  | uninstall app => exact held.uninstall app
  | setBackground background =>
    simp only [Scene.step, Scene.setBackground]
    split
    · exact held
    · exact held.keep (fun _ => .inl) (List.Subset.refl _)
  | restore snapshot =>
    intro id on
    simp [Scene.step] at on

end Held

end Scene
end DesktopShell
