import DesktopShell.Proofs.Desktop.Instances
import DesktopShell.Proofs.Desktop.Restart

/-!
# What windows, icons and gestures refer to

Windows and icons belong to applications, and gestures are on windows, by ids alone. No
reference is left hanging: a window or icon comes after its application and goes with it, and
a window keeps the name and kind of its application for its title and kind (`Desktop.Linked`).
Windows that are taken over may belong to anything, but gestures are on live windows even
then (`Reached.linked`).
-/
namespace DesktopShell

/-- A window is labelled as one of an application. -/
structure Window.BelongsTo {α : Type} (w : Window α) (app : App) : Prop where
  owner : w.app = app.id
  title : w.title = app.name
  kind : w.kind = app.kind

namespace Desktop
variable {α : Type} {d next : Desktop α}

/-- Every window and every icon belongs to an application of the catalogue. -/
structure Linked (d : Desktop α) : Prop where
  windows : ∀ w ∈ d.windows, ∃ app ∈ d.apps, w.BelongsTo app
  icons : ∀ icon ∈ d.icons, ∃ app ∈ d.apps, icon.app = app.id

namespace Linked

/-- Windows may be changed and go, and icons may go, as long as the applications stay. -/
theorem keep (linked : d.Linked) (apps : d.apps ⊆ next.apps)
    (windows : ∀ w ∈ next.windows, ∃ v ∈ d.windows, ∀ app, v.BelongsTo app → w.BelongsTo app)
    (icons : next.icons ⊆ d.icons) : next.Linked := by
  refine ⟨?_, ?_⟩
  · intro w member
    obtain ⟨v, old, same⟩ := windows w member
    obtain ⟨app, listed, belongs⟩ := linked.windows v old
    exact ⟨app, apps listed, same app belongs⟩
  · intro icon member
    obtain ⟨app, listed, named⟩ := linked.icons icon (icons member)
    exact ⟨app, apps listed, named⟩

theorem change (linked : d.Linked) (id : String) {f : Window α → Window α}
    (keeps : ∀ w app, Window.BelongsTo w app → (f w).BelongsTo app) : (d.change id f).Linked := by
  refine linked.keep (List.Subset.refl _) (fun w member => ?_) (List.Subset.refl _)
  rcases mem_change member with old | ⟨v, old, _, rfl⟩
  · exact ⟨w, old, fun _ belongs => belongs⟩
  · exact ⟨v, old, keeps v⟩

theorem unfocus (linked : d.Linked) : d.unfocus.Linked := by
  refine linked.keep (List.Subset.refl _) (fun w member => ?_) (List.Subset.refl _)
  obtain ⟨v, old, rfl⟩ := mem_unfocus.mp member
  exact ⟨v, old, fun _ belongs => ⟨belongs.owner, belongs.title, belongs.kind⟩⟩

theorem raise (linked : d.Linked) (id : String) : (d.raise id).Linked := by
  refine linked.keep (List.Subset.refl _) (fun w member => ?_) (List.Subset.refl _)
  obtain ⟨v, old, ⟨_, rfl⟩ | ⟨_, rfl⟩⟩ := mem_raise member
  · exact ⟨v, old, fun _ belongs => ⟨belongs.owner, belongs.title, belongs.kind⟩⟩
  · exact ⟨v, old, fun _ belongs => ⟨belongs.owner, belongs.title, belongs.kind⟩⟩

theorem remove (linked : d.Linked) (id : String) : (d.remove id).Linked :=
  linked.keep (List.Subset.refl _) (fun w member => ⟨w, mem_remove member, fun _ belongs => belongs⟩)
    (List.Subset.refl _)

/-- A new window is labelled by the application that it is opened for. -/
theorem addWindow [Coordinate α] (linked : d.Linked) {defaults : Defaults α} {now : UInt64} {app : App}
    {data : Option Json} (listed : app ∈ d.apps) : (d.addWindow defaults now app data).Linked := by
  refine ⟨fun w member => ?_, linked.icons⟩
  rcases mem_addWindow.mp member with old | rfl
  · exact linked.windows w old
  · exact ⟨app, listed, rfl, rfl, rfl⟩

/-- A new icon belongs to the application that it comes with. -/
theorem addApp [Coordinate α] (linked : d.Linked) (new : NewApp) : (d.addApp new).Linked := by
  obtain ⟨made, placed, apps, icons, named, belongs⟩ := d.exists_addApp new
  have older : d.apps ⊆ (d.addApp new).apps := apps ▸ List.subset_append_left _ _
  refine ⟨?_, ?_⟩
  · intro w member
    obtain ⟨app, listed, belongs⟩ := linked.windows w member
    exact ⟨app, older listed, belongs⟩
  · intro icon member
    rw [icons, List.mem_append, List.mem_singleton] at member
    rcases member with old | rfl
    · obtain ⟨app, listed, named⟩ := linked.icons icon old
      exact ⟨app, older listed, named⟩
    · exact ⟨made, by simp [apps], belongs.trans named.symm⟩

/-- What belongs to another application than the one that goes still belongs to it. -/
theorem removeApp (linked : d.Linked) (id : String) : (d.removeApp id).Linked := by
  have stays : ∀ app ∈ d.apps, app.id ≠ id → app ∈ (d.removeApp id).apps :=
    fun app listed other => List.mem_filter.mpr ⟨listed, by simpa using other⟩
  refine ⟨?_, ?_⟩
  · intro w member
    obtain ⟨old, other⟩ := mem_removeApp.mp member
    obtain ⟨app, listed, belongs⟩ := linked.windows w old
    exact ⟨app, stays app listed (belongs.owner ▸ other), belongs⟩
  · intro icon member
    obtain ⟨old, other⟩ := List.mem_filter.mp member
    obtain ⟨app, listed, named⟩ := linked.icons icon old
    have apart : icon.app ≠ id := by simpa using other
    exact ⟨app, stays app listed (named ▸ apart), named⟩

end Linked

end Desktop

namespace Scene
variable {α : Type} {s : Scene α}

/-- Where no window is closed, the window that a gesture is on is live. -/
theorem Held.isLive (held : s.Held) (live : ∀ w ∈ s.desktop.windows, w.status ≠ .closed) {id : String}
    (on : id ∈ s.gestures.windows) : s.desktop.isLive id = true := by
  obtain ⟨w, member, rfl⟩ := List.mem_map.mp (held id on)
  exact Desktop.isLive_of_mem live member

variable [Coordinate α] {config : Config α} {defaults : Defaults α} {now : UInt64}

theorem start_linked (config : Config α) : (start config).desktop.Linked := by
  have none : (start config).desktop.windows = [] := rfl
  have shown : (start config).desktop.icons.map (·.app) = (config.apps.filter (·.onDesktop)).map (·.id) :=
    Placement.apps_column _ 0 1
  refine ⟨by simp [none], fun icon member => ?_⟩
  have owner := List.mem_map_of_mem (f := Icon.app) member
  rw [shown] at owner
  obtain ⟨app, kept, named⟩ := List.mem_map.mp owner
  exact ⟨app, (List.mem_filter.mp kept).1, named.symm⟩

theorem step_linked {action : Action α} (linked : s.desktop.Linked) (plain : action.isRestore = false) :
    (s.step defaults now action).1.desktop.Linked := by
  have outcome : s.Outcome defaults now action (s.step defaults now action) := s.step_outcome action
  generalize s.step defaults now action = after at *
  cases outcome with
  | idle _ => exact linked
  | move id x y => exact linked.change id fun _ _ belongs => ⟨belongs.owner, belongs.title, belongs.kind⟩
  | resize id width height => exact linked.change id fun _ _ belongs => ⟨belongs.owner, belongs.title, belongs.kind⟩
  | setData id fields => exact linked.change id fun _ _ belongs => ⟨belongs.owner, belongs.title, belongs.kind⟩
  | hide id _ => exact linked.change id fun _ _ belongs => ⟨belongs.owner, belongs.title, belongs.kind⟩
  | front id gestures _ _ => exact linked.raise id
  | close id => exact (linked.remove id).unfocus
  | add id app data found _ => exact linked.unfocus.addWindow (List.mem_of_find?_eq_some found)
  | follow id place _ _ _ => exact linked.change id fun _ _ belongs => ⟨belongs.owner, belongs.title, belongs.kind⟩
  | rest gestures _ => exact linked
  | install new => exact linked.addApp new
  | uninstall app clears =>
    have rest := linked.removeApp app
    cases clears with
    | false => exact rest
    | true => exact rest.unfocus
  | background background => exact ⟨linked.windows, linked.icons⟩
  | restore snapshot => simp [Action.isRestore] at plain

theorem Reached.windows_linked (run : s.Reached config (fun _ => True) Ordinary) : s.desktop.Linked := by
  induction run with
  | start => exact start_linked config
  | step now action _ ordinary _ ih => exact step_linked ih ordinary.plain

/-- No action leaves a closed window, whatever it takes over. -/
theorem step_live (action : Action α) (live : ∀ w ∈ s.desktop.windows, w.status ≠ .closed) :
    ∀ w ∈ (s.step defaults now action).1.desktop.windows, w.status ≠ .closed := by
  cases plain : action.isRestore with
  | false => exact (step_turn s plain).live live
  | true =>
    cases action with
    | restore snapshot =>
      intro w member
      obtain ⟨v, old, rfl⟩ := Restore.mem_windows member
      simpa [Window.isLive] using (List.mem_filter.mp old).2
    | _ => simp [Action.isRestore] at plain

theorem Reached.gestures_live {within : Scene α → Prop} {allows : Scene α → Action α → Prop}
    (run : s.Reached config within allows) : s.Held ∧ ∀ w ∈ s.desktop.windows, w.status ≠ .closed := by
  induction run with
  | start =>
    have none : (Scene.start config).desktop.windows = [] := rfl
    have idle : (Scene.start config).gestures = Gestures.none := rfl
    exact ⟨by simp [Held, idle], by simp [none]⟩
  | step now action _ _ _ ih => exact ⟨ih.1.step action, step_live action ih.2⟩

/-- In every run without restarts from a configuration that passes the check, the ids of applications are
    different, and windows and icons belong to applications, whose names and kinds are the titles and kinds of
    their windows. Gestures are on live windows, also in runs that take over any snapshots. -/
theorem Reached.linked {config : Config Float} {s : Scene Float} (accepted : config.fault? = none)
    (run : s.Reached config (fun _ => True) fun _ _ => True) :
    (s.Reached config (fun _ => True) Ordinary → (s.desktop.apps.map (·.id)).Nodup ∧ s.desktop.Linked) ∧
      ∀ id ∈ s.gestures.windows, s.desktop.isLive id = true := by
  obtain ⟨held, live⟩ := run.gestures_live
  refine ⟨fun ordinary => ?_, fun id on => held.isLive live on⟩
  exact ⟨(ordinary.allotted accepted).1.apart, ordinary.windows_linked⟩

/-- A configuration has taken the first id for new applications. Of the next one and another application the
    windows are opened, and the next one goes while a window of the other is dragged. Then windows are taken
    over that share an id, and one of them is dragged. -/
theorem linked_taken :
    let clock : App := ⟨"app-1", "Clock", .custom, "★", "Shows the time", "Clock.fxo", true, false, true⟩
    let config := { Config.standard with apps := clock :: Config.standard.apps }
    let notes : NewApp := ⟨"Notes", .custom, "★", "Store app", "Notes.fxo", false⟩
    let installed := ((start config).step config.windows 1 (.install notes)).1
    let one := (installed.step config.windows 2 (.openApp "app-2" none)).1
    let two := (one.step config.windows 3 (.openApp "app-1" none)).1
    let dragged := (two.step config.windows 4 (.beginDrag "win-2" ⟨0, 0⟩)).1
    let s := (dragged.step config.windows 5 (.uninstall "app-2")).1
    let w : Window Float := ⟨"win-7", "Lost", "app-9", .custom, ⟨0, 0, 1, 1⟩, .closed, 5, 0, false, .empty⟩
    let foreign : Snapshot Float :=
      ⟨1, [w, { w with status := .minimized }, { w with z := 6, status := .shown }], [], 7, none⟩
    let restored := (s.step config.windows 6 (.restore foreign)).1
    let t := (restored.step config.windows 7 (.beginDrag "win-7" ⟨3, 4⟩)).1
    config.fault?.isNone = true ∧ s.gestures.windows = ["win-2"] ∧ t.gestures.windows = ["win-7"] ∧
      s.desktop.windows.map (fun w => (w.app, w.title)) = [("app-1", "Clock")] ∧
      (s.desktop.apps.map (·.id)).Nodup ∧ s.desktop.Linked ∧
      s.desktop.isLive "win-2" = true ∧ t.desktop.isLive "win-7" = true := by
  intro clock config notes installed one two dragged s w foreign restored t
  have valid : config.fault?.isNone = true := by decide +kernel
  have accepted : config.fault? = none := Option.isNone_iff_eq_none.mp valid
  have left : (start config).Ordinary (.install notes) :=
    ⟨rfl, fun _ _ => ⟨2, by decide +kernel, by decide +kernel⟩⟩
  have atInstalled : installed.Reached config (fun _ => True) Ordinary := .step 1 _ (.start trivial) left trivial
  have atOne : one.Reached config (fun _ => True) Ordinary := .step 2 _ atInstalled ⟨rfl, by simp⟩ trivial
  have atTwo : two.Reached config (fun _ => True) Ordinary := .step 3 _ atOne ⟨rfl, by simp⟩ trivial
  have atDragged : dragged.Reached config (fun _ => True) Ordinary := .step 4 _ atTwo ⟨rfl, by simp⟩ trivial
  have run : s.Reached config (fun _ => True) Ordinary := .step 5 _ atDragged ⟨rfl, by simp⟩ trivial
  have anyRun : s.Reached config (fun _ => True) fun _ _ => True := run.mono fun _ _ _ => trivial
  have later : t.Reached config (fun _ => True) fun _ _ => True :=
    .step 7 _ (.step 6 _ anyRun trivial trivial) trivial trivial
  have dragging : s.gestures.windows = ["win-2"] := by decide +kernel
  have dragging' : t.gestures.windows = ["win-7"] := by decide +kernel
  obtain ⟨linked, live⟩ := Reached.linked accepted anyRun
  have live' := (Reached.linked accepted later).2
  exact ⟨valid, dragging, dragging', by decide +kernel, (linked run).1, (linked run).2,
    live "win-2" (by simp [dragging]), live' "win-7" (by simp [dragging'])⟩

end Scene

end DesktopShell
