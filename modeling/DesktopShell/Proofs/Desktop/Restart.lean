import DesktopShell.Proofs.Desktop.Registry

/-!
# Taking over a snapshot

A desktop that takes over a snapshot is orderly whatever the snapshot says, as
long as its windows have ids of their own (`orderly_into`). The snapshot of an
orderly desktop is taken over as it is (`windows_snapshot`, `zAfter_snapshot`), so that
desktops which take over only what desktops of their lineage have saved keep the whole
registry in order, over any number of restarts (`Lineage.registered`).

A snapshot from outside may give the focus to several windows. The one that keeps it is
chosen by its height (`Restore.Keeps`), but it is marked by its id, so that every window
with that id gets the focus, a minimized one too. One window at most has the focus just
when the chosen window shares its id with no other (`Scene.restore_focusedOnce_iff`).
-/
namespace DesktopShell

namespace Restore
variable {α : Type}

theorem topmost?_eq_none {windows : List (Window α)} : topmost? windows = none ↔ windows = [] := by
  cases windows with
  | nil => simp [topmost?]
  | cons first rest =>
    unfold topmost?
    split
    · split <;> simp
    · simp

/-- A window is the topmost of some if it is no lower than those before it and higher than those after it. -/
structure Tops (windows front : List (Window α)) (best : Window α) (back : List (Window α)) : Prop where
  parts : windows = front ++ best :: back
  before : ∀ v ∈ front, v.z ≤ best.z
  after : ∀ v ∈ back, v.z < best.z

theorem Tops.le {windows front back : List (Window α)} {best v : Window α} (tops : Tops windows front best back)
    (member : v ∈ windows) : v.z ≤ best.z := by
  rw [tops.parts, List.mem_append, List.mem_cons] at member
  rcases member with earlier | rfl | later
  · exact tops.before v earlier
  · exact UInt64.le_refl _
  · exact UInt64.le_of_lt (tops.after v later)

theorem exists_tops {windows : List (Window α)} {best : Window α} (found : topmost? windows = some best) :
    ∃ front back, Tops windows front best back := by
  induction windows generalizing best with
  | nil => simp [topmost?] at found
  | cons first rest ih =>
    unfold topmost? at found
    split at found
    · rename_i other later
      obtain ⟨front, back, tops⟩ := ih later
      split at found
      · rename_i lower
        obtain rfl := Option.some.inj found
        exact ⟨first :: front, back, by simp [tops.parts], by simpa using ⟨lower, tops.before⟩, tops.after⟩
      · rename_i higher
        obtain rfl := Option.some.inj found
        refine ⟨[], rest, rfl, by simp, fun v member => ?_⟩
        exact UInt64.lt_of_le_of_lt (tops.le member) (UInt64.not_le.mp higher)
    · rename_i none
      obtain rfl := Option.some.inj found
      exact ⟨[], rest, rfl, by simp, by simp [topmost?_eq_none.mp none]⟩

theorem topmost?_of_tops {windows front back : List (Window α)} {best : Window α}
    (tops : Tops windows front best back) : topmost? windows = some best := by
  obtain ⟨rfl, before, after⟩ := tops
  induction front with
  | nil =>
    simp only [List.nil_append, topmost?]
    cases later : topmost? back with
    | none => rfl
    | some other =>
      obtain ⟨_, _, rest⟩ := exists_tops later
      have higher : ¬ best.z ≤ other.z := UInt64.not_le.mpr (after other (by simp [rest.parts]))
      simp only [if_neg higher]
  | cons first rest ih =>
    have found := ih fun v member => before v (List.mem_cons_of_mem _ member)
    simp [topmost?, found, before first]

/-- The id that keeps the focus is that of a window that has it and shows it. -/
theorem exists_of_keeper? {windows : List (Window α)} {id : String} (kept : keeper? windows = some id) :
    ∃ w ∈ windows, w.id = id ∧ w.focused = true ∧ w.status ≠ .minimized := by
  obtain ⟨w, best, named⟩ := Option.map_eq_some_iff.mp kept
  obtain ⟨_, _, tops⟩ := exists_tops best
  have candidate : w ∈ windows.filter fun w => w.focused && !w.isMinimized := by simp [tops.parts]
  have chosen := List.mem_filter.mp candidate
  refine ⟨w, chosen.1, named, ?_⟩
  simpa [Window.isMinimized] using chosen.2

/-- When a window has the focus and shows it, some window keeps the focus. -/
theorem exists_keeper? {windows : List (Window α)} {w : Window α} (member : w ∈ windows)
    (focused : w.focused = true) (shown : w.status ≠ .minimized) : ∃ id, keeper? windows = some id := by
  have candidate : w ∈ windows.filter fun w => w.focused && !w.isMinimized :=
    List.mem_filter.mpr ⟨member, by simp [focused, shown, Window.isMinimized]⟩
  unfold keeper?
  cases candidates : windows.filter fun w => w.focused && !w.isMinimized with
  | nil => simp [candidates] at candidate
  | cons first rest =>
    cases best : topmost? (first :: rest) with
    | none => exact absurd (topmost?_eq_none.mp best) (List.cons_ne_nil first rest)
    | some top => exact ⟨top.id, rfl⟩

theorem mem_windows {snapshot : Snapshot α} {w : Window α} (member : w ∈ windows snapshot) :
    ∃ v ∈ snapshot.windows.filter (·.isLive),
      w = { v with focused := keeper? (snapshot.windows.filter (·.isLive)) = some v.id } := by
  obtain ⟨v, old, rfl⟩ := List.mem_map.mp member
  exact ⟨v, old, rfl⟩

theorem ids_windows (snapshot : Snapshot α) :
    (windows snapshot).map (·.id) = (snapshot.windows.filter (·.isLive)).map (·.id) := by
  simp [windows, focusOnly, Function.comp_def]

/-- The z value that is handed out next is above every one in the snapshot. -/
theorem z_lt_zAfter {snapshot : Snapshot α} (room : zAfter snapshot < Counter.top) {w : Window α}
    (member : w ∈ snapshot.windows) : w.z < zAfter snapshot := by
  unfold zAfter at room ⊢
  cases largest : (snapshot.windows.map (·.z)).max? with
  | none => simp_all
  | some z =>
    simp only [largest] at room ⊢
    have bound : w.z ≤ z := (List.max?_eq_some_iff.mp largest).2 w.z (List.mem_map.mpr ⟨w, member, rfl⟩)
    have after : Counter.next z ≤ max snapshot.nextZ (Counter.next z) := Std.right_le_max
    have room' : Counter.next z < Counter.top := Std.lt_of_le_of_lt after room
    exact Std.lt_of_lt_of_le (Std.lt_of_le_of_lt bound (Counter.lt_next room')) after

/-- A desktop that takes over a snapshot whose windows have ids of their own is orderly, unless the
    counters run out. -/
theorem orderly_into (d : Desktop α) {snapshot : Snapshot α}
    (apart : ((snapshot.windows.filter (·.isLive)).map (·.id)).Nodup)
    (room : (into d snapshot).nextWindow < Counter.top ∧ (into d snapshot).nextZ < Counter.top) :
    (into d snapshot).Orderly := by
  obtain ⟨roomWindow, roomZ⟩ := room
  have apart' : (windows snapshot |>.map (·.id)).Nodup := ids_windows snapshot ▸ apart
  refine ⟨apart', ?_, ?_, ?_, ?_, ?_⟩
  · intro w member n number
    have after : windowsAfter (windows snapshot) ≤ (into d snapshot).nextWindow := Std.right_le_max
    have counted := windowNumber_lt_windowsAfter (Std.lt_of_le_of_lt after roomWindow) member number
    exact Nat.lt_of_lt_of_le counted (UInt64.le_iff_toNat_le.mp after)
  · intro w member
    obtain ⟨v, old, rfl⟩ := mem_windows member
    have below : v.z < zAfter snapshot := z_lt_zAfter roomZ (List.mem_filter.mp old).1
    exact below
  · intro w member
    obtain ⟨v, old, rfl⟩ := mem_windows member
    simpa [Window.isLive] using (List.mem_filter.mp old).2
  · intro w member focused
    obtain ⟨v, old, rfl⟩ := mem_windows member
    obtain ⟨u, old', named, _, shown⟩ := exists_of_keeper? (of_decide_eq_true focused)
    have same : u = v := List.inj_on_of_nodup_map apart old' old named
    have live : v.status ≠ .closed := by simpa [Window.isLive] using (List.mem_filter.mp old).2
    rw [same] at shown
    cases status : v.status <;> simp_all
  · intro w member w' member' focused focused'
    obtain ⟨v, old, rfl⟩ := mem_windows member
    obtain ⟨v', old', rfl⟩ := mem_windows member'
    have kept := of_decide_eq_true focused
    have kept' := of_decide_eq_true focused'
    exact Option.some.inj (kept.symm.trans kept')

theorem filter_isLive {d : Desktop α} (orderly : d.Orderly) : d.windows.filter (·.isLive) = d.windows :=
  List.filter_eq_self.mpr fun w member => by simpa [Window.isLive] using orderly.live w member

/-- The windows of an orderly desktop are restored as they were, with the focus where it was. -/
theorem windows_snapshot {d : Desktop α} (orderly : d.Orderly) : windows d.snapshot = d.windows := by
  have live : d.snapshot.windows.filter (·.isLive) = d.windows := filter_isLive orderly
  unfold windows focusOnly
  rw [live]
  refine (List.map_congr_left ?_).trans (List.map_id _)
  intro w member
  -- The keeper is the window with the focus, if there is one.
  have kept : decide (keeper? d.windows = some w.id) = w.focused := by
    cases focused : w.focused with
    | true =>
      have shown : w.status ≠ .minimized := by simp [orderly.shown w member focused]
      obtain ⟨id, found⟩ := exists_keeper? member focused shown
      obtain ⟨v, old, named, focused', _⟩ := exists_of_keeper? found
      rw [found, ← named, orderly.alone v old w member focused' focused]
      simp
    | false =>
      refine decide_eq_false fun found => ?_
      obtain ⟨v, old, named, focused', _⟩ := exists_of_keeper? found
      have same : v = w := List.inj_on_of_nodup_map orderly.ids old member named
      simp [same, focused] at focused'
  simp [kept]

/-- The z counter of an orderly desktop is restored as it was. -/
theorem zAfter_snapshot {d : Desktop α} (orderly : d.Orderly) : zAfter d.snapshot = d.nextZ := by
  unfold zAfter
  cases largest : (d.snapshot.windows.map (·.z)).max? with
  | none => rfl
  | some z =>
    obtain ⟨w, member, rfl⟩ := List.mem_map.mp (List.max?_eq_some_iff.mp largest).1
    have after : Counter.next w.z ≤ d.nextZ := Counter.next_le (orderly.below w member)
    exact Std.LawfulOrderLeftLeaningMax.max_eq_left d.nextZ (Counter.next w.z) after

end Restore

/-- When the action takes over a snapshot, the windows in it have ids of their own, closed ones
    aside. -/
def Action.RestoresApart {α : Type} : Action α → Prop
  | .restore snapshot => ((snapshot.windows.filter (·.isLive)).map (·.id)).Nodup
  | _ => True

namespace Scene
variable {α : Type} [Coordinate α] {config : Config α} {s : Scene α}

theorem step_orderly {defaults : Defaults α} {now : UInt64} {action : Action α} (orderly : s.desktop.Orderly)
    (apart : action.RestoresApart) (room : (s.step defaults now action).1.Unsaturated) :
    (s.step defaults now action).1.desktop.Orderly := by
  cases plain : action.isRestore with
  | false => exact orderly.turn (step_turn s plain) ⟨room.window, room.z⟩
  | true =>
    cases action with
    | restore snapshot => exact Restore.orderly_into s.desktop apart ⟨room.window, room.z⟩
    | _ => simp [Action.isRestore] at plain

theorem start_orderly (config : Config α) : (start config).desktop.Orderly := by
  constructor <;> simp [start, Desktop.empty]

/-- Every scene of a run is orderly that takes over only snapshots whose windows have ids of their
    own, before the counters run out. -/
theorem Reached.orderly (run : s.Reached config Unsaturated fun _ action => action.RestoresApart) :
    s.desktop.Orderly := by
  induction run with
  | start => exact start_orderly config
  | step now action _ apart room ih => exact step_orderly ih apart room

/-- Saving a desktop and taking the snapshot over is the identity on all that is saved, on any
    desktop and under any configuration: the windows, each with its focus and in its place, the icons,
    the z counter and the background. The applications of that desktop stay, and no gesture does. -/
theorem snapshot_restore_snapshot
    (run : s.Reached config Unsaturated fun _ action => action.RestoresApart)
    (t : Scene α) (defaults : Defaults α) (now : UInt64) :
    let restored := (t.step defaults now (.restore s.desktop.snapshot)).1
    restored.desktop.snapshot = s.desktop.snapshot ∧
      restored.desktop.windows = s.desktop.windows ∧ restored.desktop.icons = s.desktop.icons ∧
      restored.desktop.nextZ = s.desktop.nextZ ∧ restored.desktop.background = s.desktop.background ∧
      restored.desktop.apps = t.desktop.apps ∧ restored.gestures = Gestures.none := by
  intro restored
  have orderly := run.orderly
  have windows : restored.desktop.windows = s.desktop.windows := Restore.windows_snapshot orderly
  have z : restored.desktop.nextZ = s.desktop.nextZ := Restore.zAfter_snapshot orderly
  refine ⟨?_, windows, rfl, z, rfl, rfl, rfl⟩
  rw [Desktop.snapshot, windows, z]
  rfl

/-- A snapshot from outside whose two windows are equally high and both have the focus, with a closed
    one of the same id: what the desktop makes of it is restored as it is. -/
theorem snapshot_restore_snapshot_foreign :
    let window : Window Float :=
      { id := "win-7", title := "Notes", app := "notes", kind := .custom, rect := ⟨1, 2, 3, 4⟩, status := .shown
        z := 140, openedAt := 8, focused := true, data := .null }
    let foreign : Snapshot Float :=
      { schema := 9, windows := [window, { window with id := "main" }, { window with status := .closed, z := 150 }]
        icons := [], nextZ := 20, background := some "dusk" }
    let defaults := Config.standard.windows
    let s := ((start Config.standard).step defaults 1 (.restore foreign)).1
    let t := ((start Config.standard).step defaults 2 (.openApp "terminal" none)).1
    let restored := (t.step defaults 3 (.restore s.desktop.snapshot)).1
    s.Reached Config.standard Unsaturated (fun _ action => action.RestoresApart) ∧
      s.desktop.windows.map (fun w => (w.id, w.focused)) = [("win-7", false), ("main", true)] ∧
      restored.desktop.snapshot = s.desktop.snapshot ∧
      restored.desktop.windows = s.desktop.windows ∧ restored.desktop.icons = s.desktop.icons ∧
      restored.desktop.nextZ = s.desktop.nextZ ∧ restored.desktop.background = s.desktop.background ∧
      restored.desktop.apps = t.desktop.apps ∧ restored.gestures = Gestures.none := by
  intro window foreign defaults s t restored
  have apart : (Action.restore foreign).RestoresApart := by
    change ((foreign.windows.filter (·.isLive)).map (·.id)).Nodup
    decide +kernel
  have run : s.Reached Config.standard Unsaturated fun _ action => action.RestoresApart :=
    .step 1 _ (.start ⟨by decide, by decide⟩) apart ⟨by decide +kernel, by decide +kernel⟩
  exact ⟨run, by decide +kernel, snapshot_restore_snapshot run t defaults 3⟩

end Scene

/-- The registry of a desktop's windows is in order. -/
structure Desktop.Registered {α : Type} (d : Desktop α) : Prop where
  ids : (d.windows.map (·.id)).Nodup
  zs : (d.windows.map (·.z)).Nodup
  below : ∀ w ∈ d.windows, w.z < d.nextZ
  live : ∀ w ∈ d.windows, w.status ≠ .closed
  oneFocus : d.windows.countP (·.focused) ≤ 1
  front : ∀ w ∈ d.windows, w.focused = true →
    w.status = .shown ∧ ∀ v ∈ d.windows, v.id ≠ w.id → v.z < w.z

/-- A desktop that takes over the snapshot of another is stacked like it. -/
theorem Restore.stacked_into {α : Type} {saved : Desktop α} (orderly : saved.Orderly) (stacked : saved.Stacked)
    (d : Desktop α) : (into d saved.snapshot).Stacked := by
  have same : (into d saved.snapshot).windows = saved.windows := windows_snapshot orderly
  exact ⟨same ▸ stacked.layers, same ▸ stacked.front⟩

namespace Scene
variable {α : Type} [Coordinate α]

theorem start_stacked (config : Config α) : (start config).desktop.Stacked := by
  constructor <;> simp [start, Desktop.empty]

/-- A run of a lineage takes over only snapshots whose windows have ids of their own, and its desktop
    stays stacked. -/
theorem Lineage.reached_stacked {related : Config α → Config α → Prop} {config : Config α} {s : Scene α}
    (line : Lineage Unsaturated related config s) :
    (s.Reached config Unsaturated fun _ action => action.RestoresApart) ∧ s.desktop.Stacked := by
  induction line with
  | start config room => exact ⟨.start room, start_stacked config⟩
  | @act config s now action _ plain room ih =>
    obtain ⟨run, stacked⟩ := ih
    have apart : action.RestoresApart := by cases action <;> simp_all [Action.isRestore, Action.RestoresApart]
    exact ⟨.step now action run apart room, stacked.turn run.orderly (step_turn s plain)⟩
  | @restart config s other saved now _ _ _ room ih ihSaved =>
    obtain ⟨savedRun, savedStacked⟩ := ihSaved
    have orderly := savedRun.orderly
    have live : saved.desktop.snapshot.windows.filter (·.isLive) = saved.desktop.windows :=
      Restore.filter_isLive orderly
    have apart : (Action.restore saved.desktop.snapshot).RestoresApart := by
      rw [Action.RestoresApart, live]
      exact orderly.ids
    exact ⟨.step now _ ih.1 apart room, Restore.stacked_into orderly savedStacked s.desktop⟩

/-- The registry is in order in every scene of a lineage, whatever its actions and restarts, before
    the counters run out. -/
theorem Lineage.registered {config : Config α} {s : Scene α}
    (line : Lineage Unsaturated (fun _ _ => True) config s) : s.desktop.Registered := by
  obtain ⟨run, stacked⟩ := line.reached_stacked
  have orderly := run.orderly
  refine ⟨orderly.ids, stacked.layers, orderly.below, orderly.live, orderly.countP_focused, ?_⟩
  intro w member focused
  exact ⟨orderly.shown w member focused, stacked.front w member focused⟩

/-- A desktop with another first z value takes over what a standard one saved with two windows, after
    the lower one was raised from the task bar. -/
theorem registered_restarted :
    let standard := Config.standard
    let other := { standard with windows := { standard.windows with firstZ := 500 } }
    let one := ((start standard).step standard.windows 1 (.openApp "terminal" none)).1
    let two := (one.step standard.windows 2 (.openApp "browser" none)).1
    let saved := (two.step standard.windows 3 (.toggle "win-1")).1
    let later := ((start other).step other.windows 4 (.openApp "files" none)).1
    let restarted := (later.step other.windows 5 (.restore saved.desktop.snapshot)).1
    Lineage Unsaturated (fun _ _ => True) other restarted ∧ restarted.desktop.Registered := by
  intro standard other one two saved later restarted
  have atOne : Lineage Unsaturated (fun _ _ => True) standard one :=
    .act 1 _ (.start standard ⟨by decide, by decide⟩) rfl ⟨by decide +kernel, by decide +kernel⟩
  have atTwo : Lineage Unsaturated (fun _ _ => True) standard two :=
    .act 2 _ atOne rfl ⟨by decide +kernel, by decide +kernel⟩
  have atSaved : Lineage Unsaturated (fun _ _ => True) standard saved :=
    .act 3 _ atTwo rfl ⟨by decide +kernel, by decide +kernel⟩
  have atLater : Lineage Unsaturated (fun _ _ => True) other later :=
    .act 4 _ (.start other ⟨by decide, by decide⟩) rfl ⟨by decide +kernel, by decide +kernel⟩
  have atRestarted : Lineage Unsaturated (fun _ _ => True) other restarted :=
    .restart 5 atLater atSaved trivial ⟨by decide +kernel, by decide +kernel⟩
  exact ⟨atRestarted, atRestarted.registered⟩

end Scene

/-- At most one window has the focus, and it is not minimized. -/
structure Desktop.FocusedOnce {α : Type} (d : Desktop α) : Prop where
  once : d.windows.countP (·.focused) ≤ 1
  shown : ∀ w ∈ d.windows, w.focused = true → w.status ≠ .minimized

namespace Restore
variable {α : Type}

/-- The window that is chosen to keep the focus: of those that have it and are not minimized the topmost, of several
    equally high the last. -/
def Keeps (windows : List (Window α)) (w : Window α) : Prop :=
  ∃ front back, Tops (windows.filter fun w => w.focused && !w.isMinimized) front w back

theorem keeper?_eq_some_iff {windows : List (Window α)} {id : String} :
    keeper? windows = some id ↔ ∃ w, Keeps windows w ∧ w.id = id := by
  unfold keeper?
  rw [Option.map_eq_some_iff]
  refine exists_congr fun w => and_congr_left' ⟨exists_tops, ?_⟩
  rintro ⟨_, _, tops⟩
  exact topmost?_of_tops tops

/-- The windows that get the focus are those with the id of the window that keeps it. -/
theorem focused_iff {snapshot : Snapshot α} {w : Window α} (member : w ∈ windows snapshot) :
    w.focused = true ↔ ∃ v, Keeps (snapshot.windows.filter (·.isLive)) v ∧ v.id = w.id := by
  obtain ⟨u, _, rfl⟩ := mem_windows member
  simp only [decide_eq_true_eq, keeper?_eq_some_iff]

theorem Keeps.countP_focused {snapshot : Snapshot α} {w : Window α}
    (keeps : Keeps (snapshot.windows.filter (·.isLive)) w) :
    (windows snapshot).countP (·.focused) = (snapshot.windows.filter (·.isLive)).countP (·.id = w.id) := by
  have chosen := keeper?_eq_some_iff.mpr ⟨w, keeps, rfl⟩
  simp only [windows, focusOnly, chosen, List.countP_map, Function.comp_def, Option.some.injEq, eq_comm]

theorem Keeps.shown {windows : List (Window α)} {w : Window α} (keeps : Keeps windows w) :
    w ∈ windows ∧ w.status ≠ .minimized := by
  obtain ⟨_, _, tops⟩ := keeps
  have candidate : w ∈ windows.filter fun w => w.focused && !w.isMinimized := by simp [tops.parts]
  have chosen := List.mem_filter.mp candidate
  exact ⟨chosen.1, by simpa [Window.isMinimized] using (Bool.and_eq_true_iff.mp chosen.2).2⟩

end Restore

namespace Scene
variable {α : Type} [Coordinate α]

/-- Whatever a snapshot says, a desktop that takes it over has at most one window in focus, and a shown one, if and
    only if the window that keeps the focus shares its id with no other window of the snapshot that is not closed. -/
theorem restore_focusedOnce_iff (defaults : Defaults α) (now : UInt64) (s : Scene α) (snapshot : Snapshot α) :
    (s.step defaults now (.restore snapshot)).1.desktop.FocusedOnce ↔
      ∀ w, Restore.Keeps (snapshot.windows.filter (·.isLive)) w →
        (snapshot.windows.filter (·.isLive)).countP (·.id = w.id) ≤ 1 := by
  have taken : (s.step defaults now (.restore snapshot)).1.desktop.windows = Restore.windows snapshot := rfl
  constructor
  · rintro ⟨once, _⟩ w keeps
    rwa [taken, keeps.countP_focused] at once
  · intro unshared
    refine ⟨?_, ?_⟩
    · rw [taken]
      by_cases chosen : ∃ w, Restore.Keeps (snapshot.windows.filter (·.isLive)) w
      · obtain ⟨w, keeps⟩ := chosen
        exact keeps.countP_focused ▸ unshared w keeps
      · have none : (Restore.windows snapshot).countP (·.focused) = 0 := by
          refine List.countP_eq_zero.mpr fun w member focused => ?_
          obtain ⟨v, keeps, _⟩ := (Restore.focused_iff member).mp focused
          exact chosen ⟨v, keeps⟩
        exact none ▸ Nat.zero_le 1
    · intro w member focused
      obtain ⟨v, keeps, named⟩ := (Restore.focused_iff (taken ▸ member)).mp focused
      obtain ⟨u, old, rfl⟩ := Restore.mem_windows (taken ▸ member)
      obtain ⟨live, shown⟩ := keeps.shown
      -- A marked window has the id of the chosen one, which is the only window with that id.
      have same : v = u := eq_of_countP_le_one (unshared v keeps) live old (by simp) (by simpa using named.symm)
      exact same ▸ shown

/-- A snapshot in which three windows have the focus and two share an id: the highest is minimized, and of the equally
    high others the last keeps it. -/
theorem restore_focusedOnce_repeated :
    let window : Window Float :=
      { id := "main", title := "Notes", app := "notes", kind := .custom, rect := ⟨1, 2, 3, 4⟩, status := .shown
        z := 140, openedAt := 8, focused := true, data := .null }
    let foreign : Snapshot Float :=
      { schema := 1, windows := [window, { window with id := "win-7" }, { window with status := .minimized, z := 150 }]
        icons := [], nextZ := 20, background := none }
    let next := ((start Config.standard).step Config.standard.windows 1 (.restore foreign)).1.desktop
    (next.windows.map fun w => (w.id, w.focused)) = [("main", false), ("win-7", true), ("main", false)] ∧
      next.FocusedOnce := by
  intro window foreign next
  refine ⟨by decide +kernel, (restore_focusedOnce_iff _ 1 (start Config.standard) foreign).mpr fun w keeps => ?_⟩
  have chosen : Restore.keeper? (foreign.windows.filter (·.isLive)) = some "win-7" := by decide +kernel
  have named : "win-7" = w.id := Option.some.inj (chosen.symm.trans (Restore.keeper?_eq_some_iff.mpr ⟨w, keeps, rfl⟩))
  rw [← named]
  decide +kernel

/-- Two windows of a snapshot have the same id, and only the shown one of them has the focus. When they are taken over
    both have it. -/
theorem restore_focusedOnce_shared :
    let window : Window Float :=
      { id := "win-1", title := "Notes", app := "notes", kind := .custom, rect := ⟨1, 2, 3, 4⟩, status := .shown
        z := 140, openedAt := 8, focused := true, data := .empty }
    let hidden : Window Float := { window with status := .minimized, z := 130, focused := false }
    let foreign : Snapshot Float :=
      { schema := 1, windows := [window, hidden], icons := [], nextZ := 141, background := none }
    let next := ((start Config.standard).step Config.standard.windows 1 (.restore foreign)).1.desktop
    (next.windows.map fun w => (w.id, w.focused, w.status)) =
        [("win-1", true, .shown), ("win-1", true, .minimized)] ∧ ¬ next.FocusedOnce := by
  intro window hidden foreign next
  exact ⟨by decide +kernel, fun focused => absurd focused.once (by decide +kernel)⟩

end Scene

end DesktopShell
