import DesktopShell.Proofs.Config
import DesktopShell.Proofs.Desktop.Owners

/-!
# Applications with one window

Some applications may have one window only. This is seen to when a window is opened, by the
ids in the windows. It is enough, because the ids in the catalogue stay different and every
window belongs to the catalogue (`Desktop.Allotted`): a new application finds no window with
its id, whatever was installed and uninstalled before. So a second opening is the same as
bringing the one window to the front (`Reached.openApp_alone`).
-/
namespace DesktopShell

namespace Desktop
variable {α : Type} {d next : Desktop α}

/-- The windows are those of the catalogue: its applications have ids of their own, they have all the windows
    there are, and those that may have one have no more. -/
structure Allotted (d : Desktop α) : Prop where
  apart : (d.apps.map (·.id)).Nodup
  owned : ∀ w ∈ d.windows, w.app ∈ d.apps.map (·.id)
  single : ∀ app ∈ d.apps, app.multiWindow = false → (d.windowsOf app.id).length ≤ 1

theorem length_windowsOf (d : Desktop α) (app : String) :
    (d.windowsOf app).length = (d.windows.map (·.app)).count app := by
  rw [List.count, List.countP_map, List.countP_eq_length_filter, windowsOf, List.length_map]
  rfl

theorem windowsOf_eq_nil {app : String} : d.windowsOf app = [] ↔ ∀ w ∈ d.windows, w.app ≠ app := by
  simp [windowsOf]

namespace Allotted

/-- An application is found under its id. -/
theorem app?_id (allotted : d.Allotted) {app : App} (listed : app ∈ d.apps) : d.app? app.id = some app :=
  (find?_eq_some_iff_key allotted.apart).mpr ⟨listed, rfl⟩

/-- Two windows of an application that may have one are the same window. -/
theorem eq_of_single (allotted : d.Allotted) {app : App} (listed : app ∈ d.apps) (one : app.multiWindow = false)
    {v w : Window α} (member : v ∈ d.windows) (member' : w ∈ d.windows) (owner : v.app = app.id)
    (owner' : w.app = app.id) : v = w := by
  have few := allotted.single app listed one
  rw [windowsOf, List.length_map, ← List.countP_eq_length_filter] at few
  exact eq_of_countP_le_one few member member' (by simpa using owner) (by simpa using owner')

/-- Where the catalogue stays, windows may go and be changed. -/
theorem fewer (allotted : d.Allotted) (apps : next.apps = d.apps)
    (owners : (next.windows.map (·.app)).Sublist (d.windows.map (·.app))) : next.Allotted := by
  refine ⟨apps ▸ allotted.apart, ?_, ?_⟩
  · intro w member
    obtain ⟨v, old, same⟩ := List.mem_map.mp (owners.subset (List.mem_map_of_mem member))
    rw [apps, ← same]
    exact allotted.owned v old
  · intro app listed one
    have before := allotted.single app (apps ▸ listed) one
    rw [length_windowsOf] at before ⊢
    exact Nat.le_trans (owners.count_le app.id) before

theorem change (allotted : d.Allotted) (id : String) {f : Window α → Window α} (keeps : ∀ w, (f w).app = w.app) :
    (d.change id f).Allotted :=
  allotted.fewer rfl (by simp [Desktop.change, map_changeFirst Window.app keeps])

theorem unfocus (allotted : d.Allotted) : d.unfocus.Allotted :=
  allotted.fewer rfl (by simp [Desktop.unfocus, Function.comp_def])

theorem raise (allotted : d.Allotted) (id : String) : (d.raise id).Allotted := by
  have same : (d.raise id).windows.map (·.app) = d.windows.map (·.app) := by
    simp only [Desktop.raise, List.map_map, List.map_inj_left, Function.comp_apply]
    intro w _
    split <;> rfl
  exact allotted.fewer rfl (same ▸ List.Sublist.refl _)

theorem remove (allotted : d.Allotted) (id : String) : (d.remove id).Allotted :=
  allotted.fewer rfl (List.eraseP_sublist.map _)

/-- A window may come to an application that has none, or may have several. -/
theorem addWindow [Coordinate α] (allotted : d.Allotted) {defaults : Defaults α} {now : UInt64} {app : App}
    {data : Option Json} (listed : app ∈ d.apps) (vacant : app.multiWindow = false → d.windowsOf app.id = []) :
    (d.addWindow defaults now app data).Allotted := by
  refine ⟨allotted.apart, ?_, ?_⟩
  · intro w member
    rcases mem_addWindow.mp member with old | rfl
    · exact allotted.owned w old
    · exact List.mem_map_of_mem listed
  · intro other listed' one
    have before := allotted.single other listed' one
    have owners : (d.addWindow defaults now app data).windows.map (·.app) = d.windows.map (·.app) ++ [app.id] :=
      List.map_append
    rw [length_windowsOf] at before ⊢
    rw [owners, List.count_append, List.count_singleton]
    -- Ids are not shared, so that only the application that is opened gets another window.
    by_cases same : app.id = other.id
    · have shared : app = other := List.inj_on_of_nodup_map allotted.apart listed listed' same
      have none := vacant (shared ▸ one)
      rw [shared, ← List.length_eq_zero_iff, length_windowsOf] at none
      simp [none, shared]
    · simpa [same] using before

/-- A new application has an id of its own, and nothing has it yet. -/
theorem addApp [Coordinate α] (allotted : d.Allotted) (left : d.HasAppId) (new : NewApp) :
    (d.addApp new).Allotted := by
  obtain ⟨k, _, free, _, given⟩ := exists_nextAppId left
  obtain ⟨made, _, apps, _, named, _⟩ := d.exists_addApp new
  replace named : made.id = Counter.label "app" k := by rw [named, given]
  have ids : (d.addApp new).apps.map (·.id) = d.apps.map (·.id) ++ [made.id] := by rw [apps, List.map_append]; rfl
  have windows : (d.addApp new).windows = d.windows := rfl
  refine ⟨?_, ?_, ?_⟩
  · rw [ids, named]
    simpa using List.Nodup.concat free allotted.apart
  · intro w member
    rw [ids]
    exact List.mem_append_left _ (allotted.owned w member)
  · intro app listed one
    rw [apps, List.mem_append, List.mem_singleton] at listed
    rcases listed with old | rfl
    · exact allotted.single app old one
    · -- The owners of windows are all listed, and the new id is not.
      have none : d.windowsOf app.id = [] :=
        windowsOf_eq_nil.mpr fun w member owner => free (named ▸ owner ▸ allotted.owned w member)
      rw [windowsOf, windows, ← windowsOf, none]
      simp

/-- An application goes with all its windows. -/
theorem removeApp (allotted : d.Allotted) (app : String) : (d.removeApp app).Allotted := by
  refine ⟨allotted.apart.sublist (List.filter_sublist.map _), ?_, ?_⟩
  · intro w member
    obtain ⟨old, other⟩ := mem_removeApp.mp member
    obtain ⟨owner, listed, named⟩ := List.mem_map.mp (allotted.owned w old)
    have stays : owner.id ≠ app := named ▸ other
    exact List.mem_map.mpr ⟨owner, List.mem_filter.mpr ⟨listed, by simpa using stays⟩, named⟩
  · intro owner listed one
    have before := allotted.single owner (List.mem_filter.mp listed).1 one
    rw [length_windowsOf] at before ⊢
    exact Nat.le_trans ((List.filter_sublist.map _).count_le owner.id) before

end Allotted

/-- No turn leaves a closed window. -/
theorem Turn.live [Coordinate α] {defaults : Defaults α} {now : UInt64} (turn : Turn defaults now d next)
    (live : ∀ w ∈ d.windows, w.status ≠ .closed) : ∀ w ∈ next.windows, w.status ≠ .closed := by
  intro w member
  rcases turn.remains_or with remains | ⟨id, _, rfl⟩ | ⟨app, data, rfl⟩
  · obtain ⟨v, old, later⟩ := remains.follows w member
    exact later.live (live v old)
  · obtain ⟨v, old, ⟨_, rfl⟩ | ⟨_, rfl⟩⟩ := mem_raise member
    · simp [Window.fronted]
    · exact live v old
  · rcases mem_addWindow.mp member with old | rfl
    · obtain ⟨v, earlier, rfl⟩ := mem_unfocus.mp old
      exact live v earlier
    · simp [newWindow]

/-- Where no window is closed, the check at an opening finds a window just when the application has one. -/
theorem onlyWindow?_eq_none (live : ∀ w ∈ d.windows, w.status ≠ .closed) {app : App} (one : app.multiWindow = false) :
    d.onlyWindow? app = none ↔ d.windowsOf app.id = [] := by
  rw [windowsOf_eq_nil]
  simp only [onlyWindow?, one, Bool.false_eq_true, if_false, List.find?_eq_none, Window.isLive]
  refine forall₂_congr fun w member => ?_
  simp [live w member]

end Desktop

namespace Scene
variable {α : Type} [Coordinate α] {defaults : Defaults α} {now : UInt64} {s : Scene α}

/-- The action takes over no snapshot, and when it installs an application there is an id left for it. The
    search for an id comes to no end otherwise. -/
structure Ordinary (s : Scene α) (action : Action α) : Prop where
  plain : action.isRestore = false
  left : ∀ new, action = .install new → s.desktop.HasAppId

theorem step_allotted {action : Action α} (allotted : s.desktop.Allotted)
    (live : ∀ w ∈ s.desktop.windows, w.status ≠ .closed) (ordinary : s.Ordinary action) :
    (s.step defaults now action).1.desktop.Allotted := by
  have outcome : s.Outcome defaults now action (s.step defaults now action) := s.step_outcome action
  generalize s.step defaults now action = after at *
  cases outcome with
  | idle _ => exact allotted
  | move id x y => exact allotted.change id fun _ => rfl
  | resize id width height => exact allotted.change id fun _ => rfl
  | setData id fields => exact allotted.change id fun _ => rfl
  | hide id _ => exact allotted.change id fun _ => rfl
  | front id gestures _ _ => exact allotted.raise id
  | close id => exact (allotted.remove id).unfocus
  | add id app data found opens =>
    have unopened : s.desktop.onlyWindow? app = none := by
      cases opened : s.desktop.onlyWindow? app with
      | none => rfl
      | some w => simp [computed?, found, opened] at opens
    refine allotted.unfocus.addWindow (List.mem_of_find?_eq_some found) fun one => ?_
    have vacant := (Desktop.onlyWindow?_eq_none live one).mp unopened
    rw [← List.length_eq_zero_iff, Desktop.length_windowsOf] at vacant ⊢
    simpa [Desktop.unfocus, Function.comp_def] using vacant
  | follow id place _ _ _ => exact allotted.change id fun _ => rfl
  | rest gestures _ => exact allotted
  | install new => exact allotted.addApp (ordinary.left new rfl) new
  | uninstall app clears =>
    have rest := allotted.removeApp app
    cases clears with
    | false => exact rest
    | true => exact rest.unfocus
  | background background => exact allotted.fewer rfl (List.Sublist.refl _)
  | restore snapshot => exact absurd ordinary.plain (by simp [Action.isRestore])

theorem Reached.allotted {config : Config Float} {s : Scene Float} (accepted : config.fault? = none)
    (run : s.Reached config (fun _ => True) Ordinary) :
    s.desktop.Allotted ∧ ∀ w ∈ s.desktop.windows, w.status ≠ .closed := by
  induction run with
  | start =>
    have none : (Scene.start config).desktop.windows = [] := rfl
    refine ⟨⟨config.nodup_apps accepted, ?_, ?_⟩, ?_⟩ <;> simp [none, Desktop.windowsOf]
  | step now action _ ordinary _ ih =>
    exact ⟨step_allotted ih.1 ih.2 ordinary, (step_turn _ ordinary.plain).live ih.2⟩

/-- An application with one window at a time has at most one, wherever ordinary actions lead from a configuration
    that passes the check. While it has a window, opening the application is the same as bringing the window to the
    front, whatever data is given; while it has none, one is added to the windows. -/
theorem Reached.openApp_alone {config : Config Float} {s : Scene Float} (accepted : config.fault? = none)
    (run : s.Reached config (fun _ => True) Ordinary) {app : App} (listed : app ∈ s.desktop.apps)
    (one : app.multiWindow = false) :
    (s.desktop.windowsOf app.id).length ≤ 1 ∧
    (∀ w ∈ s.desktop.windows, w.app = app.id → ∀ (now later : UInt64) (data : Option Json),
      s.step config.windows now (.openApp app.id data) = s.step config.windows later (.focus w.id)) ∧
    (s.desktop.windowsOf app.id = [] → ∀ (now : UInt64) (data : Option Json), ∃ w, w.app = app.id ∧
      (s.step config.windows now (.openApp app.id data)).1.desktop.windows =
        s.desktop.windows.map Window.dimmed ++ [w]) := by
  obtain ⟨allotted, live⟩ := run.allotted accepted
  have found := allotted.app?_id listed
  refine ⟨allotted.single app listed one, ?_, ?_⟩
  · intro w member owner now later data
    cases opened : s.desktop.onlyWindow? app with
    | none =>
      have vacant := (Desktop.onlyWindow?_eq_none live one).mp opened
      exact absurd owner (Desktop.windowsOf_eq_nil.mp vacant w member)
    | some v =>
      have first := opened
      simp only [Desktop.onlyWindow?, one, Bool.false_eq_true, if_false] at first
      have owner' : v.app = app.id ∧ v.isLive = true := by simpa using List.find?_some first
      have same := allotted.eq_of_single listed one (List.mem_of_find?_eq_some first) member owner'.1 owner
      simp [Scene.step, openApp, found, opened, same]
  · intro vacant now data
    have unopened := (Desktop.onlyWindow?_eq_none live one).mpr vacant
    refine ⟨s.desktop.unfocus.newWindow config.windows now app data, rfl, ?_⟩
    simp only [Scene.step, openApp, found, unopened]
    rfl

/-- An application is installed, opened and uninstalled, and another one is installed and opened. -/
theorem openApp_alone_reinstalled :
    let standard := Config.standard
    let notes : NewApp := ⟨"Notes", .custom, "★", "Store app", "Notes.fxo", false⟩
    let installed := ((start standard).step standard.windows 1 (.install notes)).1
    let opened := (installed.step standard.windows 2 (.openApp "app-1" none)).1
    let removed := (opened.step standard.windows 3 (.uninstall "app-1")).1
    let again := (removed.step standard.windows 4 (.install notes)).1
    let s := (again.step standard.windows 5 (.openApp "app-2" none)).1
    s.desktop.windows.map (·.id) = ["win-2"] ∧ (s.desktop.windowsOf "app-2").length ≤ 1 ∧
      ∀ (now later : UInt64) (data : Option Json),
        s.step standard.windows now (.openApp "app-2" data) = s.step standard.windows later (.focus "win-2") := by
  intro standard notes installed opened removed again s
  have accepted : standard.fault? = none := Option.isNone_iff_eq_none.mp (by decide +kernel)
  have run : s.Reached standard (fun _ => True) Ordinary := by
    refine .step 5 _ (.step 4 _ (.step 3 _ (.step 2 _ (.step 1 _ (.start trivial) ⟨rfl, ?_⟩ trivial) ?_ trivial) ?_
      trivial) ⟨rfl, ?_⟩ trivial) ?_ trivial
    · exact fun _ _ => ⟨1, by decide +kernel, by decide +kernel⟩
    · exact ⟨rfl, fun _ other => by cases other⟩
    · exact ⟨rfl, fun _ other => by cases other⟩
    · exact fun _ _ => ⟨2, by decide +kernel, by decide +kernel⟩
    · exact ⟨rfl, fun _ other => by cases other⟩
  have listed : (⟨"app-2", "Notes", .custom, "★", "Store app", "Notes.fxo", true, false, true⟩ : App) ∈
      s.desktop.apps := by decide +kernel
  obtain ⟨few, same, _⟩ := Reached.openApp_alone accepted run listed rfl
  obtain ⟨w, member, found⟩ :=
    List.any_eq_true.mp (by decide +kernel : s.desktop.windows.any fun w => w.app = "app-2" && w.id = "win-2")
  obtain ⟨owner, named⟩ : w.app = "app-2" ∧ w.id = "win-2" := by simpa using found
  refine ⟨by decide +kernel, few, ?_⟩
  rw [← named]
  exact same w member owner

end Scene

end DesktopShell
