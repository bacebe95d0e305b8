import DesktopShell.Proofs.Desktop.Owners
import DesktopShell.Proofs.Desktop.Removal
import DesktopShell.Proofs.Desktop.Restart

/-!
# Windows that come to the front

A step brings one window to the front or none (`Desktop.Fronts`), and it asks for the input
focus in that window. So a request for the input focus is always for the window in front,
and no window gets the focus without one. A step that asks for nothing at all does
nothing, unless it carries on a gesture (`Scene.Reached.focus_requested`).

The answer of an opening is looked up in the windows afterwards: it is the first one in
focus that belongs to the application. For an application of the catalogue it is the window
in front. For any other nothing is done, and the answer is none only as long as no window
in focus belongs to it. That is so as long as all windows belong to the catalogue, which
restored windows need not do (`Scene.Lineage.openWindow_reports`).
-/
namespace DesktopShell

namespace Desktop
variable {α : Type} {d next : Desktop α} {w : Window α}

/-- A window is in front: it is shown and the only one in focus, and no other is above it. -/
structure InFront (d : Desktop α) (w : Window α) : Prop where
  member : w ∈ d.windows
  shown : w.status = .shown
  focused : w.focused = true
  alone : ∀ v ∈ d.windows, v.focused = true → v = w
  top : ∀ v ∈ d.windows, v.z ≤ w.z

/-- A window comes to the front: it is shown and in focus with the next z value, and the others have lost the focus. -/
structure Fronts (d next : Desktop α) (w : Window α) : Prop where
  member : w ∈ next.windows
  shown : w.status = .shown
  focused : w.focused = true
  z : w.z = d.nextZ
  others : ∀ v ∈ next.windows, v = w ∨ ∃ u ∈ d.windows, v = u.dimmed

namespace Fronts

theorem inFront (fronts : d.Fronts next w) (low : ∀ u ∈ d.windows, u.z ≤ d.nextZ) : next.InFront w := by
  refine ⟨fronts.member, fronts.shown, fronts.focused, ?_, ?_⟩
  · intro v member focused
    rcases fronts.others v member with same | ⟨u, _, rfl⟩
    · exact same
    · simp [Window.dimmed] at focused
  · intro v member
    rcases fronts.others v member with rfl | ⟨u, old, rfl⟩
    · exact UInt64.le_refl _
    · exact fronts.z ▸ low u old

/-- As long as the z values have not come to their end, the window in front is above all others. -/
theorem lt (fronts : d.Fronts next w) (below : ∀ u ∈ d.windows, u.z < d.nextZ) {v : Window α}
    (member : v ∈ next.windows) (other : v ≠ w) : v.z < w.z := by
  rcases fronts.others v member with same | ⟨u, old, rfl⟩
  · exact absurd same other
  · exact fronts.z ▸ below u old

theorem live (fronts : d.Fronts next w) (live : ∀ u ∈ d.windows, u.status ≠ .closed) :
    ∀ v ∈ next.windows, v.status ≠ .closed := by
  intro v member
  rcases fronts.others v member with rfl | ⟨u, old, rfl⟩
  · simp [fronts.shown]
  · exact live u old

end Fronts

/-- Where the windows have ids of their own, raising an id brings the window with it to the front. -/
theorem exists_fronts_raise (ids : (d.windows.map (·.id)).Nodup) {id : String} (present : d.hasWindow id = true) :
    ∃ v ∈ d.windows, v.id = id ∧ d.Fronts (d.raise id) (v.fronted d.nextZ) := by
  obtain ⟨v, old, chosen⟩ := List.any_eq_true.mp present
  have named : v.id = id := by simpa using chosen
  refine ⟨v, old, named, List.mem_map.mpr ⟨v, old, by simp [named, Window.fronted]⟩, rfl, rfl, rfl, ?_⟩
  intro u member
  obtain ⟨t, old', ⟨named', rfl⟩ | ⟨_, rfl⟩⟩ := mem_raise member
  · exact .inl (by rw [List.inj_on_of_nodup_map ids old' old (named'.trans named.symm)])
  · exact .inr ⟨t, old', rfl⟩

theorem fronts_addWindow [Coordinate α] (d : Desktop α) (defaults : Defaults α) (now : UInt64) (app : App)
    (data : Option Json) :
    d.Fronts (d.unfocus.addWindow defaults now app data) (d.unfocus.newWindow defaults now app data) := by
  refine ⟨mem_addWindow.mpr (.inr rfl), rfl, rfl, rfl, fun v member => ?_⟩
  rcases mem_addWindow.mp member with old | new
  · obtain ⟨u, earlier, rfl⟩ := mem_unfocus.mp old
    exact .inr ⟨u, earlier, rfl⟩
  · exact .inl new

end Desktop

namespace Scene
variable {α : Type} [Coordinate α] {config : Config α} {s : Scene α}

/-- A step brings a window to the front and asks for the input focus in it, or all windows remain from before and it
    asks for saving at most. -/
theorem step_fronts (ids : (s.desktop.windows.map (·.id)).Nodup) (defaults : Defaults α) (now : UInt64)
    {action : Action α} (plain : action.isRestore = false) :
    let after := s.step defaults now action
    (∃ w, s.desktop.Fronts after.1.desktop w ∧ after.2 = [.save, .focusInput w.id]) ∨
      (s.desktop.Remains after.1.desktop ∧ ∀ effect ∈ after.2, effect = .save) := by
  intro after
  rcases s.step_remains_or defaults now plain with
    remains | ⟨id, present, next, asks⟩ | ⟨app, data, next, asks⟩
  · exact .inr remains
  · obtain ⟨v, _, named, fronts⟩ := Desktop.exists_fronts_raise ids present
    refine .inl ⟨v.fronted s.desktop.nextZ, next ▸ fronts, ?_⟩
    rw [asks, ← named]
    rfl
  · exact .inl ⟨_, next ▸ s.desktop.fronts_addWindow defaults now app data, asks⟩

/-- Wherever a run goes that takes over only snapshots whose windows have ids of their own, before the counters run
    out: when a step asks for the input focus in a window, that window is live and in front afterwards, above all
    others; when a window has the focus that did not have it, the step has asked for the input focus in it; and when
    the step asks for nothing and does not carry on a gesture, nothing has changed. -/
theorem Reached.focus_requested (run : s.Reached config Unsaturated fun _ action => action.RestoresApart)
    (now : UInt64) {action : Action α} (plain : action.isRestore = false) :
    let after := s.step config.windows now action
    (∀ id, .focusInput id ∈ after.2 → after.1.desktop.isLive id = true ∧
      ∃ w, w.id = id ∧ after.1.desktop.InFront w ∧ ∀ v ∈ after.1.desktop.windows, v ≠ w → v.z < w.z) ∧
    (∀ w ∈ after.1.desktop.windows, w.focused = true →
      (∀ v ∈ s.desktop.windows, v.focused = true → v.id ≠ w.id) → .focusInput w.id ∈ after.2) ∧
    (after.2 = [] → action.followsPointer = false → after.1 = s) := by
  intro after
  have orderly := run.orderly
  refine ⟨?_, ?_, ?_⟩
  · intro id asked
    rcases step_fronts orderly.ids config.windows now plain with ⟨w, fronts, asks⟩ | ⟨_, saves⟩
    · have named : w.id = id := by simpa [after, asks, eq_comm] using asked
      subst named
      refine ⟨Desktop.isLive_of_mem (fronts.live orderly.live) fronts.member, w, rfl, ?_, ?_⟩
      · exact fronts.inFront fun u old => UInt64.le_of_lt (orderly.below u old)
      · exact fun v member other => fronts.lt orderly.below member other
    · exact absurd (saves _ asked) (by simp)
  · intro w member focused before
    rcases step_fronts orderly.ids config.windows now plain with ⟨v, fronts, asks⟩ | ⟨remains, _⟩
    · have low : ∀ u ∈ s.desktop.windows, u.z ≤ s.desktop.nextZ := fun u old => UInt64.le_of_lt (orderly.below u old)
      have same := (fronts.inFront low).alone w member focused
      simp [after, asks, same]
    · obtain ⟨u, old, later⟩ := remains.follows w member
      exact absurd later.id.symm (before u old (later.focused focused).1)
  · intro silent still
    rcases s.step_saves_or config.windows now plain with asked | same | ⟨follows, _⟩
    · exact absurd (silent ▸ asked) List.not_mem_nil
    · exact same
    · exact absurd follows (by simp [still])

/-- The windows of a foreign snapshot are equally high, and one of them is brought to the front by the beginning of a
    drag. -/
theorem focus_requested_dragged :
    let standard := Config.standard
    let window : Window Float :=
      { id := "main", title := "Notes", app := "notes", kind := .custom, rect := ⟨1, 2, 3, 4⟩, status := .minimized
        z := 140, openedAt := 8, focused := true, data := .null }
    let foreign : Snapshot Float :=
      { schema := 1, windows := [window, { window with id := "win-7", status := .shown }], icons := [], nextZ := 20
        background := none }
    let s := ((start standard).step standard.windows 1 (.restore foreign)).1
    let after := s.step standard.windows 2 (.beginDrag "main" ⟨0, 0⟩)
    s.desktop.focused? = some "win-7" ∧ after.2 = [.save, .focusInput "main"] ∧
      after.1.desktop.isLive "main" = true ∧
      ∃ w, w.id = "main" ∧ after.1.desktop.InFront w ∧ ∀ v ∈ after.1.desktop.windows, v ≠ w → v.z < w.z := by
  intro standard window foreign s after
  have apart : (Action.restore foreign).RestoresApart := by
    change ((foreign.windows.filter (·.isLive)).map (·.id)).Nodup
    decide +kernel
  have run : s.Reached standard Unsaturated fun _ action => action.RestoresApart :=
    .step 1 _ (.start ⟨by decide, by decide⟩) apart ⟨by decide +kernel, by decide +kernel⟩
  have asks : after.2 = [.save, .focusInput "main"] := by decide +kernel
  have plain : (Action.beginDrag "main" ⟨0, 0⟩ : Action Float).isRestore = false := rfl
  obtain ⟨requests, _, _⟩ := Reached.focus_requested run 2 plain
  exact ⟨by decide +kernel, asks, requests "main" (by rw [asks]; simp)⟩

end Scene

namespace Desktop
variable {α : Type} {d next : Desktop α}

/-- The z value after that of any window is handed out next at the earliest. -/
def HeightsPassed (d : Desktop α) : Prop := ∀ w ∈ d.windows, Counter.next w.z ≤ d.nextZ

namespace HeightsPassed

theorem le (passed : d.HeightsPassed) {w : Window α} (member : w ∈ d.windows) : w.z ≤ d.nextZ :=
  UInt64.le_trans (Counter.le_next w.z) (passed w member)

theorem lt_or (passed : d.HeightsPassed) {w : Window α} (member : w ∈ d.windows) :
    w.z < d.nextZ ∨ d.nextZ = Counter.top := by
  have after := passed w member
  by_cases last : w.z = Counter.top
  · rw [last, UInt64.le_iff_toNat_le] at after
    exact .inr (UInt64.toNat_inj.mp (Nat.le_antisymm (Counter.toNat_le_top _) after))
  · exact .inl (UInt64.lt_of_lt_of_le (Counter.lt_next_of_ne_top last) after)

theorem turn [Coordinate α] {defaults : Defaults α} {now : UInt64} (passed : d.HeightsPassed)
    (turn : Turn defaults now d next) : next.HeightsPassed := by
  intro w member
  rcases turn.remains_or with remains | ⟨id, _, rfl⟩ | ⟨app, data, rfl⟩
  · obtain ⟨v, old, later⟩ := remains.follows w member
    rw [later.z, remains.z]
    exact passed v old
  · obtain ⟨v, old, ⟨_, rfl⟩ | ⟨_, rfl⟩⟩ := mem_raise member
    · exact UInt64.le_refl _
    · exact UInt64.le_trans (passed v old) (Counter.le_next _)
  · rcases mem_addWindow.mp member with old | rfl
    · obtain ⟨v, earlier, rfl⟩ := mem_unfocus.mp old
      exact UInt64.le_trans (passed v earlier) (Counter.le_next _)
    · exact UInt64.le_refl _

end HeightsPassed

end Desktop

namespace Restore
variable {α : Type}

/-- Whatever snapshot is taken over, the z value that is handed out next is past those of its windows. -/
theorem heightsPassed_into (d : Desktop α) (snapshot : Snapshot α) : (into d snapshot).HeightsPassed := by
  intro w member
  obtain ⟨v, old, rfl⟩ := mem_windows member
  change Counter.next v.z ≤ zAfter snapshot
  have listed : v.z ∈ snapshot.windows.map (·.z) := List.mem_map_of_mem (List.mem_filter.mp old).1
  unfold zAfter
  cases largest : (snapshot.windows.map (·.z)).max? with
  | none => simp [List.max?_eq_none_iff.mp largest] at listed
  | some z =>
    have bound : v.z ≤ z := (List.max?_eq_some_iff.mp largest).2 v.z listed
    have above : Counter.next z ≤ max snapshot.nextZ (Counter.next z) := Std.right_le_max
    exact UInt64.le_trans (Counter.next_le_next bound) above

/-- Windows with ids of their own are taken over with the counter past the numbers of these, unless it runs out. -/
theorem windowsIssued_into (d : Desktop α) {snapshot : Snapshot α}
    (apart : ((snapshot.windows.filter (·.isLive)).map (·.id)).Nodup)
    (room : (into d snapshot).nextWindow < Counter.top) : (into d snapshot).WindowsIssued := by
  refine ⟨ids_windows snapshot ▸ apart, ?_⟩
  intro k used
  obtain ⟨w, member, named⟩ := List.mem_map.mp used
  have after : windowsAfter (windows snapshot) ≤ (into d snapshot).nextWindow := Std.right_le_max
  have number : windowNumber? w.id = some k.toNat := named ▸ windowNumber?_label k
  have counted := windowNumber_lt_windowsAfter (Std.lt_of_le_of_lt after room) member number
  exact UInt64.lt_of_lt_of_le (UInt64.lt_iff_toNat_lt.mpr counted) after

end Restore

namespace Scene
variable {α : Type} [Coordinate α]

theorem Lineage.heightsPassed {within : Scene α → Prop} {related : Config α → Config α → Prop} {config : Config α}
    {s : Scene α} (line : Lineage within related config s) : s.desktop.HeightsPassed := by
  induction line with
  | start config =>
    have none : (Scene.start config).desktop.windows = [] := rfl
    simp [Desktop.HeightsPassed, none]
  | act now action _ plain _ ih => exact ih.turn (step_turn _ plain)
  | restart now _ _ _ _ _ _ => exact Restore.heightsPassed_into _ _

/-- Windows have ids of their own all along a lineage in which the counter of windows does not run out. -/
theorem Lineage.windowsIssued {related : Config α → Config α → Prop} {config : Config α} {s : Scene α}
    (line : Lineage (fun s => s.desktop.nextWindow < Counter.top) related config s) : s.desktop.WindowsIssued := by
  induction line with
  | start config => exact .nil
  | act now action _ plain room ih => exact ih.turn (step_turn _ plain) room
  | restart now _ _ _ room _ ihSaved =>
    exact Restore.windowsIssued_into _ (ihSaved.apart.sublist (List.filter_sublist.map Window.id)) room

end Scene

/-- Every window belongs to an application of the catalogue. -/
def Desktop.Owned {α : Type} (d : Desktop α) : Prop := ∀ w ∈ d.windows, w.app ∈ d.apps.map (·.id)

namespace Desktop.Owned
variable {α : Type} {d next : Desktop α}

/-- Windows may be changed and go as long as the applications stay. -/
theorem keep (owned : d.Owned) (apps : d.apps ⊆ next.apps)
    (windows : ∀ w ∈ next.windows, ∃ v ∈ d.windows, w.app = v.app) : next.Owned := by
  intro w member
  obtain ⟨v, old, same⟩ := windows w member
  rw [same]
  exact List.map_subset _ apps (owned v old)

theorem remains (owned : d.Owned) (apps : d.apps ⊆ next.apps) (remains : d.Remains next) : next.Owned := by
  refine owned.keep apps fun w member => ?_
  obtain ⟨v, old, later⟩ := remains.follows w member
  exact ⟨v, old, later.app⟩

theorem raise (owned : d.Owned) (id : String) : (d.raise id).Owned := by
  refine owned.keep (List.Subset.refl _) fun w member => ?_
  obtain ⟨v, old, ⟨_, rfl⟩ | ⟨_, rfl⟩⟩ := mem_raise member
  · exact ⟨v, old, rfl⟩
  · exact ⟨v, old, rfl⟩

theorem addWindow [Coordinate α] (owned : d.Owned) {defaults : Defaults α} {now : UInt64} {app : App}
    {data : Option Json} (listed : app ∈ d.apps) : (d.addWindow defaults now app data).Owned := by
  intro w member
  rcases mem_addWindow.mp member with old | rfl
  · exact owned w old
  · exact List.mem_map_of_mem listed

theorem removeApp (owned : d.Owned) (app : String) : (d.removeApp app).Owned := by
  intro w member
  obtain ⟨old, other⟩ := mem_removeApp.mp member
  obtain ⟨a, listed, named⟩ := List.mem_map.mp (owned w old)
  have stays : a.id ≠ app := named ▸ other
  exact List.mem_map.mpr ⟨a, List.mem_filter.mpr ⟨listed, by simpa using stays⟩, named⟩

end Desktop.Owned

namespace Scene
variable {α : Type} [Coordinate α] {config : Config α} {defaults : Defaults α} {now : UInt64} {s : Scene α}

/-- When the action takes over a snapshot, the windows in it belong to applications that the desktop has. -/
def TakesOwned (s : Scene α) : Action α → Prop
  | .restore snapshot => (Restore.into s.desktop snapshot).Owned
  | _ => True

theorem step_owned {action : Action α} (owned : s.desktop.Owned) (takes : s.TakesOwned action) :
    (s.step defaults now action).1.desktop.Owned := by
  have outcome : s.Outcome defaults now action (s.step defaults now action) := s.step_outcome action
  generalize s.step defaults now action = after at *
  cases outcome with
  | idle _ => exact owned
  | move id x y => exact owned.remains (List.Subset.refl _) (.edit _ id fun _ => ⟨rfl, rfl, rfl, rfl, rfl⟩)
  | resize id width height => exact owned.remains (List.Subset.refl _) (.edit _ id fun _ => ⟨rfl, rfl, rfl, rfl, rfl⟩)
  | setData id fields => exact owned.remains (List.Subset.refl _) (.edit _ id fun _ => ⟨rfl, rfl, rfl, rfl, rfl⟩)
  | hide id _ => exact owned.remains (List.Subset.refl _) (.change _ id .hidden)
  | front id gestures _ _ => exact owned.raise id
  | close id => exact owned.remains (List.Subset.refl _) (.close _ id)
  | add id app data found _ =>
    have dimmed : s.desktop.unfocus.Owned := owned.remains (List.Subset.refl _) (.unfocus _)
    exact dimmed.addWindow (List.mem_of_find?_eq_some found)
  | follow id place _ _ _ => exact owned.remains (List.Subset.refl _) (.edit _ id fun _ => ⟨rfl, rfl, rfl, rfl, rfl⟩)
  | rest gestures _ => exact owned
  | install new => exact owned.remains (List.subset_append_left _ _) (.keep rfl rfl rfl)
  | uninstall app clears =>
    have rest := owned.removeApp app
    cases clears with
    | false => exact rest
    | true => exact rest.remains (List.Subset.refl _) (.unfocus _)
  | background background => exact owned.remains (List.Subset.refl _) (.keep rfl rfl rfl)
  | restore snapshot => exact takes

theorem Reached.owned {within : Scene α → Prop} (run : s.Reached config within TakesOwned) : s.desktop.Owned := by
  induction run with
  | start =>
    have none : (Scene.start config).desktop.windows = [] := rfl
    simp [Desktop.Owned, none]
  | step now action _ takes _ ih => exact step_owned ih takes

/-- Opening an application of the catalogue brings a window of it to the front. -/
theorem fronts_openApp (ids : (s.desktop.windows.map (·.id)).Nodup) {app : String} {a : App}
    (listed : s.desktop.app? app = some a) (data : Option Json) :
    ∃ w, s.desktop.Fronts (s.step defaults now (.openApp app data)).1.desktop w ∧ w.app = app := by
  have named : a.id = app := by simpa using List.find?_some listed
  cases only : s.desktop.onlyWindow? a with
  | none =>
    have opens : (s.step defaults now (.openApp app data)).1.desktop =
        s.desktop.unfocus.addWindow defaults now a data := by simp [step, openApp, listed, only]
    rw [opens]
    exact ⟨_, s.desktop.fronts_addWindow defaults now a data, named⟩
  | some w =>
    have first := only
    unfold Desktop.onlyWindow? at first
    split at first
    · cases first
    · have old := List.mem_of_find?_eq_some first
      have owner : w.app = a.id := (by simpa using List.find?_some first : w.app = a.id ∧ w.isLive = true).1
      have present : s.desktop.hasWindow w.id = true :=
        Desktop.hasWindow_iff.mpr (List.mem_map_of_mem old)
      have raises : (s.step defaults now (.openApp app data)).1.desktop = s.desktop.raise w.id := by
        simp [step, openApp, listed, only, focus, present]
      obtain ⟨v, old', same, fronts⟩ := Desktop.exists_fronts_raise ids present
      obtain rfl : v = w := List.inj_on_of_nodup_map ids old' old same
      rw [raises]
      exact ⟨_, fronts, owner.trans named⟩

end Scene

namespace Desk

/-- Opening what is not in the catalogue does nothing, but the answer is looked up all the same. -/
theorem openWindow_of_unlisted {desk : Desk} {app : String} (unlisted : desk.scene.desktop.app? app = none)
    (now : UInt64) (data : Option Json) : desk.openWindow now app data =
      (desk, (desk.scene.desktop.windows.find? fun w => w.focused && w.app = app).map (·.id)) := by
  have still : desk.act now (.openApp app data) = desk := by
    simp [act, Scene.step, Scene.openApp, unlisted, Scene.unchanged]
  simp [openWindow, still]

end Desk

namespace Scene

/-- In a lineage of runs under one configuration, opening an application of the catalogue answers with the window that
    is in front afterwards, which belongs to the application, and which is above all others before the z values run
    out. Opening any other application changes nothing, and answers with nothing if and only if no window in focus
    belongs to it. So it does in every run that takes over only windows of applications that it has. -/
theorem Lineage.openWindow_reports {desk : Desk}
    (line : Lineage (fun s => s.desktop.nextWindow < Counter.top) Eq desk.config desk.scene)
    (now : UInt64) (app : String) (data : Option Json) :
    let opened := desk.openWindow now app data
    (desk.scene.desktop.app? app = none → opened.1 = desk ∧
      (opened.2 = none ↔ ∀ w ∈ desk.scene.desktop.windows, w.focused = true → w.app ≠ app) ∧
      (desk.scene.Reached desk.config (fun _ => True) TakesOwned → opened.2 = none)) ∧
    ∀ a, desk.scene.desktop.app? app = some a → ∃ w, opened.2 = some w.id ∧ w.app = app ∧
      opened.1.scene.desktop.InFront w ∧
      ∀ v ∈ opened.1.scene.desktop.windows, v ≠ w → v.z < w.z ∨ w.z = Counter.top := by
  intro opened
  have passed := line.heightsPassed
  refine ⟨?_, ?_⟩
  · intro unlisted
    have result : opened = _ := Desk.openWindow_of_unlisted unlisted now data
    have exactly : opened.2 = none ↔ ∀ w ∈ desk.scene.desktop.windows, w.focused = true → w.app ≠ app := by
      simp [result]
    refine ⟨by rw [result], exactly, fun run => exactly.mpr fun w member _ owner => ?_⟩
    obtain ⟨a, listed, named⟩ := List.mem_map.mp (run.owned w member)
    have absent := List.find?_eq_none.mp unlisted a listed
    exact absurd (named.trans owner) (by simpa using absent)
  · intro a listed
    obtain ⟨w, fronts, owner⟩ : ∃ w, desk.scene.desktop.Fronts opened.1.scene.desktop w ∧ w.app = app :=
      fronts_openApp line.windowsIssued.apart listed data
    have front : opened.1.scene.desktop.InFront w := fronts.inFront fun u old => passed.le old
    have answer : opened.2 = some w.id := by
      cases found : opened.1.scene.desktop.windows.find? fun w => w.focused && w.app = app with
      | none =>
        have absent := List.find?_eq_none.mp found w front.member
        simp [front.focused, owner] at absent
      | some v =>
        have chosen : v.focused = true ∧ v.app = app := by simpa using List.find?_some found
        rw [← front.alone v (List.mem_of_find?_eq_some found) chosen.1]
        exact congrArg (Option.map Window.id) found
    refine ⟨w, answer, owner, front, fun v member other => ?_⟩
    rcases fronts.others v member with same | ⟨u, old, rfl⟩
    · exact absurd same other
    · have low := passed.lt_or old
      rwa [← fronts.z] at low

/-- After a restart the window of an application that may have one is minimized and opened again. An application that
    was never installed has no window to answer with. -/
theorem openWindow_reports_restarted :
    let standard := Config.standard
    let one := ((start standard).step standard.windows 1 (.openApp "files" none)).1
    let saved := (one.step standard.windows 2 (.openApp "terminal" none)).1
    let restored := ((start standard).step standard.windows 3 (.restore saved.desktop.snapshot)).1
    let s := (restored.step standard.windows 4 (.minimize "win-1")).1
    let desk : Desk := { config := standard, scene := s, files := .empty 0, queue := [.save] }
    let opened := desk.openWindow 5 "files" none
    s.desktop.focused? = some "win-2" ∧ opened.2 = some "win-1" ∧
      (∃ w, opened.2 = some w.id ∧ w.app = "files" ∧ opened.1.scene.desktop.InFront w) ∧
      s.desktop.app? "app-1" = none ∧ desk.openWindow 6 "app-1" none = (desk, none) := by
  intro standard one saved restored s desk opened
  have fresh : Lineage (fun s => s.desktop.nextWindow < Counter.top) Eq standard (start standard) :=
    .start standard (by decide)
  have atOne : Lineage (fun s => s.desktop.nextWindow < Counter.top) Eq standard one :=
    .act 1 _ fresh rfl (by decide +kernel)
  have atSaved : Lineage (fun s => s.desktop.nextWindow < Counter.top) Eq standard saved :=
    .act 2 _ atOne rfl (by decide +kernel)
  have atRestored : Lineage (fun s => s.desktop.nextWindow < Counter.top) Eq standard restored :=
    .restart 3 fresh atSaved rfl (by decide +kernel)
  have atDesk : Lineage (fun s => s.desktop.nextWindow < Counter.top) Eq desk.config desk.scene :=
    .act 4 _ atRestored rfl (by decide +kernel)
  have takes : (start standard).TakesOwned (.restore saved.desktop.snapshot) := by
    change ∀ w ∈ _, _
    decide +kernel
  have run : desk.scene.Reached desk.config (fun _ => True) TakesOwned :=
    .step 4 _ (.step 3 _ (.start trivial) takes trivial) trivial trivial
  have unlisted : s.desktop.app? "app-1" = none := by decide +kernel
  have listed : ∃ a, s.desktop.app? "files" = some a := Option.isSome_iff_exists.mp (by decide +kernel)
  obtain ⟨a, found⟩ := listed
  obtain ⟨w, answer, owner, front, _⟩ := (Lineage.openWindow_reports atDesk 5 "files" none).2 a found
  obtain ⟨still, _, none⟩ := (Lineage.openWindow_reports atDesk 6 "app-1" none).1 unlisted
  exact ⟨by decide +kernel, by decide +kernel, ⟨w, answer, owner, front⟩, unlisted, Prod.ext still (none run)⟩

/-- A desk that has just started takes over the window in focus of an application that an earlier run has installed, and
    opening that application answers with the window although the application is not in the catalogue. -/
theorem openWindow_reports_inherited :
    let standard := Config.standard
    let notes : NewApp := ⟨"Notes", .custom, "★", "Store app", "Notes.fxo", false⟩
    let installed := ((start standard).step standard.windows 1 (.install notes)).1
    let saved := (installed.step standard.windows 2 (.openApp "app-1" none)).1
    let s := ((start standard).step standard.windows 3 (.restore saved.desktop.snapshot)).1
    let desk : Desk := { config := standard, scene := s, files := .empty 0, queue := [] }
    standard.fault?.isNone = true ∧ Lineage (fun _ => True) Eq desk.config desk.scene ∧
      s.desktop.app? "app-1" = none ∧ (desk.openWindow 4 "app-1" none).2 = some "win-1" := by
  intro standard notes installed saved s desk
  have atInstalled : Lineage (fun _ => True) Eq standard installed := .act 1 _ (.start standard trivial) rfl trivial
  have atSaved : Lineage (fun _ => True) Eq standard saved := .act 2 _ atInstalled rfl trivial
  have atDesk : Lineage (fun _ => True) Eq desk.config desk.scene :=
    .restart 3 (.start standard trivial) atSaved rfl trivial
  exact ⟨by decide +kernel, atDesk, by decide +kernel, by decide +kernel⟩

end Scene

end DesktopShell
