import DesktopShell.Proofs.Desk.Isolation
import DesktopShell.Proofs.Desktop.Removal
import Mathlib.Data.List.Induction

/-!
# What is given out on a desk and what is removed

A chronicle is a desk with a record of the z values and the window ids that were given
out on it, by actions and by lines of a terminal. Nothing is given out twice and
nothing is left out, whatever was closed meanwhile: the z values follow one another
from the first one on, and the windows that are still there stand in the order in
which they were opened (`Chronicle.Kept.given_in_turn`).

A window goes when a control or a script closes it, or with its application. From then on
no action finds anything under its id, whatever else is done on the desk, and no gesture is
on it (`Removes.stays_gone`).
-/
namespace DesktopShell

namespace Desktop
variable {α : Type} {d : Desktop α}

theorem exists_window?_raise {id : String} (present : d.hasWindow id = true) :
    ∃ w, (d.raise id).window? id = some w ∧ w.z = d.nextZ := by
  have still : (d.raise id).hasWindow id = true := by
    obtain ⟨v, member, named⟩ := List.any_eq_true.mp present
    have named' : v.id = id := by simpa using named
    exact List.any_eq_true.mpr ⟨v.fronted d.nextZ, List.mem_map.mpr ⟨v, member, by simp [named', Window.fronted]⟩, named⟩
  obtain ⟨w, found⟩ := Option.isSome_iff_exists.mp (List.find?_isSome.mpr (List.any_eq_true.mp still))
  have named : w.id = id := by simpa using List.find?_some found
  obtain ⟨v, _, ⟨_, rfl⟩ | ⟨other, rfl⟩⟩ := mem_raise (List.mem_of_find?_eq_some found)
  · exact ⟨_, found, rfl⟩
  · exact absurd named other

theorem window?_addWindow [Coordinate α] {defaults : Defaults α} {now : UInt64} {app : App} {data : Option Json}
    (fresh : d.nextWindowId ∉ d.windows.map (·.id)) :
    (d.addWindow defaults now app data).window? d.nextWindowId = some (d.newWindow defaults now app data) := by
  have none : d.windows.find? (fun w => w.id = d.nextWindowId) = none := by
    refine List.find?_eq_none.mpr fun w member named => fresh (List.mem_map.mpr ⟨w, member, ?_⟩)
    simpa using named
  simp [window?, addWindow, none, newWindow]

end Desktop

namespace Scene
variable {α : Type}

/-- The windows that a step brings to the front, which it wants the input focus in, as they stand after it. -/
def fronted (after : Scene α × List Effect) : List (Window α) :=
  (after.2.filterMap Desk.focusRequest?).filterMap after.1.desktop.window?

theorem fronted_focusInput {after : Scene α × List Effect} {id : String} {w : Window α}
    (asks : after.2 = [.save, .focusInput id]) (found : after.1.desktop.window? id = some w) : fronted after = [w] := by
  have asked : [Effect.save, Effect.focusInput id].filterMap Desk.focusRequest? = [id] := rfl
  simp [fronted, asks, asked, found]

/-- A step brings no window to the front, or one that is there, or a new one. -/
theorem step_fronts_or [Coordinate α] (defaults : Defaults α) (now : UInt64) (s : Scene α) {action : Action α}
    (plain : action.isRestore = false) :
    let after := s.step defaults now action
    (fronted after = [] ∧ s.desktop.Remains after.1.desktop) ∨
      (∃ id w, fronted after = [w] ∧ w.z = s.desktop.nextZ ∧ after.1.desktop = s.desktop.raise id) ∨
      ∃ app data, after.1.desktop = s.desktop.unfocus.addWindow defaults now app data ∧
        (s.desktop.nextWindowId ∉ s.desktop.windows.map (·.id) →
          fronted after = [s.desktop.unfocus.newWindow defaults now app data]) := by
  intro after
  rcases s.step_remains_or defaults now plain with
    ⟨remains, saves⟩ | ⟨id, present, next, asks⟩ | ⟨app, data, next, asks⟩
  · refine .inl ⟨?_, remains⟩
    have none : after.2.filterMap Desk.focusRequest? = [] :=
      List.filterMap_eq_nil_iff.mpr fun effect asked => by rw [saves effect asked]; rfl
    simp [fronted, none]
  · obtain ⟨w, found, high⟩ := Desktop.exists_window?_raise present
    exact .inr (.inl ⟨id, w, fronted_focusInput asks (next ▸ found), high, next⟩)
  · refine .inr (.inr ⟨app, data, next, fun fresh => fronted_focusInput asks ?_⟩)
    rw [next]
    exact Desktop.window?_addWindow (d := s.desktop.unfocus) (by rwa [Desktop.ids_unfocus])

/-- Counters that have not come to their end after a step had not before. -/
theorem Unsaturated.of_step [Coordinate α] {defaults : Defaults α} {now : UInt64} {s : Scene α} {action : Action α}
    (plain : action.isRestore = false) (room : (s.step defaults now action).1.Unsaturated) : s.Unsaturated := by
  rcases s.step_fronts_or defaults now plain with
    ⟨_, remains⟩ | ⟨id, w, _, _, same⟩ | ⟨app, data, same, _⟩
  · exact ⟨remains.window ▸ room.window, remains.z ▸ room.z⟩
  · obtain ⟨window, z⟩ := room
    rw [same] at window z
    exact ⟨window, UInt64.lt_of_le_of_lt (Counter.le_next _) z⟩
  · obtain ⟨window, z⟩ := room
    rw [same] at window z
    exact ⟨UInt64.lt_of_le_of_lt (Counter.le_next _) window, UInt64.lt_of_le_of_lt (Counter.le_next _) z⟩

end Scene

/-- A built-in command leaves the scene as it is. -/
theorem Desk.scene_runBuiltin (desk : Desk) (now : UInt64) (command : Shell.Builtin) :
    (desk.runBuiltin now command).1.scene = desk.scene := by
  have made (answer : String) (outcome : Files.Tree × Except Files.Fault Files.Node) :
      (desk.made answer outcome).1.scene = desk.scene := by
    rcases outcome with ⟨files, _ | _⟩ <;> rfl
  cases command with
  | mkdir name => exact made _ _
  | touch name => exact made _ _
  | _ => rfl

/-- The counters of a desktop tell how much was given out, z values were given out one by one from the first one
    on, no id was given out twice, and the windows that are there stand in the order of their ids. -/
structure InTurn {α : Type} (first : UInt64) (d : Desktop α) (zs : List UInt64) (opened : List String) : Prop where
  z : d.nextZ.toNat = first.toNat + zs.length
  zs : zs.map (·.toNat) = List.range' first.toNat zs.length
  issued : Counter.Issued "win" d.nextWindow opened
  order : (d.windows.map (·.id)).Sublist opened

namespace InTurn
variable {α : Type} {first : UInt64} {d next : Desktop α} {zs : List UInt64} {opened : List String}

theorem remains (inTurn : InTurn first d zs opened) (remains : d.Remains next) : InTurn first next zs opened :=
  ⟨remains.z ▸ inTurn.z, inTurn.zs, remains.window ▸ inTurn.issued, remains.ids.trans inTurn.order⟩

private theorem z_push (inTurn : InTurn first d zs opened) (room : Counter.next d.nextZ < Counter.top) :
    (Counter.next d.nextZ).toNat = first.toNat + (zs ++ [d.nextZ]).length := by
  rw [Counter.next_toNat (Counter.ne_top_of_next room), inTurn.z, List.length_append, List.length_singleton, Nat.add_assoc]

private theorem zs_push (inTurn : InTurn first d zs opened) :
    (zs ++ [d.nextZ]).map (·.toNat) = List.range' first.toNat (zs ++ [d.nextZ]).length := by
  simp [List.range'_1_concat, inTurn.z, inTurn.zs]

theorem raise (inTurn : InTurn first d zs opened) (id : String) (room : (d.raise id).nextZ < Counter.top) :
    InTurn first (d.raise id) (zs ++ [d.nextZ]) opened :=
  ⟨inTurn.z_push room, inTurn.zs_push, inTurn.issued, by simpa using inTurn.order⟩

theorem fresh (inTurn : InTurn first d zs opened) : d.nextWindowId ∉ d.windows.map (·.id) :=
  fun used => inTurn.issued.fresh (inTurn.order.subset used)

theorem addWindow [Coordinate α] (inTurn : InTurn first d zs opened) {defaults : Defaults α} {now : UInt64} {app : App}
    {data : Option Json} (roomWindow : (d.addWindow defaults now app data).nextWindow < Counter.top)
    (roomZ : (d.addWindow defaults now app data).nextZ < Counter.top) :
    InTurn first (d.addWindow defaults now app data) (zs ++ [d.nextZ]) (opened ++ [d.nextWindowId]) := by
  refine ⟨inTurn.z_push roomZ, inTurn.zs_push, inTurn.issued.push (Counter.ne_top_of_next roomWindow), ?_⟩
  rw [Desktop.addWindow, List.map_append]
  exact inTurn.order.append (List.Sublist.refl _)

end InTurn

/-- A desk with what was given out on it, in order. -/
structure Chronicle where
  desk : Desk
  /-- The z values that windows got when they came to the front. -/
  zs : List UInt64
  /-- The ids of the windows that were opened. -/
  opened : List String

namespace Chronicle

def start (config : Config Float) (files : Files.Tree) : Chronicle :=
  { desk := .start config files, zs := [], opened := [] }

/-- An action, with what it gives out. A window that comes to the front is opened when there are more
    windows than before. -/
def act (c : Chronicle) (now : UInt64) (action : Action Float) : Chronicle :=
  let after := c.desk.scene.step c.desk.config.windows now action
  let front := Scene.fronted after
  { desk := c.desk.act now action
    zs := c.zs ++ front.map (·.z)
    opened :=
      if c.desk.scene.desktop.windows.length < after.1.desktop.windows.length then c.opened ++ front.map (·.id)
      else c.opened }

/-- A chronicle as what scripts run on: what they do is put down call by call. -/
def host (now : UInt64) : Script.Host Chronicle :=
  { isLive := fun c id => c.desk.scene.desktop.isLive id
    perform := fun c deed => c.act now deed.action }

/-- A line of a terminal, with what its calls give out when it is a script. -/
def evaluate (c : Chronicle) (now : UInt64) (line : String) : Chronicle :=
  match Shell.Command.ofLine line with
  | .script source => { (Script.evaluate (host now) c source).1 with desk := (c.desk.evaluate now line).1 }
  | _ => { c with desk := (c.desk.evaluate now line).1 }

/-- The chronicles that actions and lines lead to from the start of a configuration before the counters
    run out. No action takes over a snapshot. -/
inductive Kept (config : Config Float) (files : Files.Tree) : Chronicle → Prop
  | start : (Scene.start config).Unsaturated → Kept config files (start config files)
  | act {c} (now : UInt64) (action : Action Float) : Kept config files c → action.isRestore = false →
      (c.act now action).desk.scene.Unsaturated → Kept config files (c.act now action)
  | evaluate {c} (now : UInt64) (line : String) : Kept config files c →
      (c.evaluate now line).desk.scene.Unsaturated → Kept config files (c.evaluate now line)

variable {config : Config Float} {files : Files.Tree} {first : UInt64} {c : Chronicle}

/-- What was given out on the desk was given out in turn. -/
def Orderly (first : UInt64) (c : Chronicle) : Prop := InTurn first c.desk.scene.desktop c.zs c.opened

theorem Orderly.act (orderly : c.Orderly first) (now : UInt64) {action : Action Float} (plain : action.isRestore = false)
    (room : (c.act now action).desk.scene.Unsaturated) : (c.act now action).Orderly first := by
  obtain ⟨roomWindow, roomZ⟩ := room
  have fronts := c.desk.scene.step_fronts_or c.desk.config.windows now plain
  unfold Orderly Chronicle.act Desk.act at *
  generalize c.desk.scene.step c.desk.config.windows now action = after at *
  dsimp only at fronts roomWindow roomZ ⊢
  rcases fronts with ⟨none, remains⟩ | ⟨id, w, one, high, same⟩ | ⟨app, data, same, new⟩
  · simpa [none] using orderly.remains remains
  · rw [same] at roomZ ⊢
    have level : (c.desk.scene.desktop.raise id).windows.length = c.desk.scene.desktop.windows.length := by
      simp [Desktop.raise]
    simpa [one, high, level] using orderly.raise id roomZ
  · have one := new orderly.fresh
    rw [same] at roomWindow roomZ ⊢
    have more : (c.desk.scene.desktop.unfocus.addWindow c.desk.config.windows now app data).windows.length =
        c.desk.scene.desktop.windows.length + 1 := by
      simp [Desktop.addWindow, Desktop.unfocus]
    have added := (orderly.remains (.unfocus _)).addWindow roomWindow roomZ
    rw [one, more, if_pos (Nat.lt_succ_self _)]
    exact added

/-- A script does on a chronicle what it does on the desk. -/
theorem desk_evaluate_host (c : Chronicle) (now : UInt64) (source : String) :
    (Script.evaluate (host now) c source).1.desk = (Script.evaluate (Desk.host now) c.desk source).1 := by
  simp only [Script.evaluate_eq]
  exact (List.foldl_hom Chronicle.desk fun _ _ => rfl).symm

theorem Orderly.perform (orderly : c.Orderly first) (now : UInt64) (deeds : List Script.Deed)
    (room : (deeds.foldl (host now).perform c).desk.scene.Unsaturated) :
    (deeds.foldl (host now).perform c).Orderly first := by
  induction deeds using List.reverseRecOn with
  | nil => exact orderly
  | append_singleton front deed ih =>
    rw [List.foldl_append] at room ⊢
    have plain : deed.action.isRestore = false := by cases deed <;> rfl
    exact (ih (.of_step plain room)).act now plain room

theorem Orderly.evaluate (orderly : c.Orderly first) (now : UInt64) (line : String)
    (room : (c.evaluate now line).desk.scene.Unsaturated) : (c.evaluate now line).Orderly first := by
  unfold Chronicle.evaluate at room ⊢
  cases command : Shell.Command.ofLine line with
  | empty => simpa [Orderly, Desk.evaluate, command] using orderly
  | builtin builtin => simpa [Orderly, Desk.evaluate, command, Desk.scene_runBuiltin] using orderly
  | script source =>
    have same : (c.desk.evaluate now line).1 = (Script.evaluate (host now) c source).1.desk := by
      rw [desk_evaluate_host, Desk.evaluate, command]
    simp only [command, same] at room ⊢
    rw [Script.evaluate_eq] at room ⊢
    exact orderly.perform now _ room

theorem Kept.orderly (kept : Kept config files c) : c.Orderly config.windows.firstZ := by
  induction kept with
  | start => exact ⟨rfl, rfl, .nil, List.Sublist.refl []⟩
  | act now action _ plain room ih => exact ih.act now plain room
  | evaluate now line _ room ih => exact ih.evaluate now line room

/-- Over a whole run, the k-th z value that is given out is the first one of the configuration and k more, so
    that they increase whatever is closed meanwhile, and the counter has not passed any that was not given
    out. No two windows are ever opened with one id, and those that are there stand in the order in which
    they were opened. -/
theorem Kept.given_in_turn (kept : Kept config files c) :
    (∀ k z, c.zs[k]? = some z → z.toNat = config.windows.firstZ.toNat + k) ∧ c.zs.Pairwise (· < ·) ∧
      c.desk.scene.desktop.nextZ.toNat = config.windows.firstZ.toNat + c.zs.length ∧ c.opened.Nodup ∧
      (c.desk.scene.desktop.windows.map (·.id)).Sublist c.opened := by
  obtain ⟨z, zs, issued, order⟩ := kept.orderly
  refine ⟨?_, ?_, z, issued.apart, order⟩
  · intro k given place
    have number := congrArg (·[k]?) zs
    obtain ⟨inside, rfl⟩ := List.getElem?_eq_some_iff.mp place
    simpa [inside] using number
  · have increasing : (c.zs.map (·.toNat)).Pairwise (· < ·) := zs ▸ List.pairwise_lt_range'
    exact (List.pairwise_map.mp increasing).imp fun below => UInt64.lt_iff_toNat_lt.mpr below

/-- A window is opened and closed, and others come to the front by the second opening of an application
    that has one window, by a drag, from the task bar and by a script, with a window opened in between. -/
theorem Kept.given_in_turn_closed :
    let standard := Config.standard
    let one := (Chronicle.start standard (.empty 0)).act 1 (.openApp "files" none)
    let two := (one.act 2 (.openApp "terminal" none)).act 3 (.openApp "browser" none)
    let raised := (two.act 4 (.close "win-2")).act 5 (.openApp "files" none)
    let dragged := (raised.act 6 (.beginDrag "win-3" ⟨0, 0⟩)).act 7 (.openApp "terminal" none)
    let c := (dragged.act 8 (.toggle "win-1")).evaluate 9 "local b = window('win-3') b.focus:() b.move:(5, 5)"
    c.zs = [100, 101, 102, 103, 104, 105, 106, 107] ∧ c.opened = ["win-1", "win-2", "win-3", "win-4"] ∧
      c.desk.scene.desktop.windows.map (·.id) = ["win-1", "win-3", "win-4"] ∧
      (∀ k z, c.zs[k]? = some z → z.toNat = standard.windows.firstZ.toNat + k) ∧
      c.opened.Nodup ∧ (c.desk.scene.desktop.windows.map (·.id)).Sublist c.opened := by
  intro standard one two raised dragged c
  have atOne : Kept standard (.empty 0) one :=
    .act 1 _ (.start ⟨by decide, by decide⟩) rfl ⟨by decide +kernel, by decide +kernel⟩
  have atTwo : Kept standard (.empty 0) two :=
    .act 3 _ (.act 2 _ atOne rfl ⟨by decide +kernel, by decide +kernel⟩) rfl ⟨by decide +kernel, by decide +kernel⟩
  have atRaised : Kept standard (.empty 0) raised :=
    .act 5 _ (.act 4 _ atTwo rfl ⟨by decide +kernel, by decide +kernel⟩) rfl ⟨by decide +kernel, by decide +kernel⟩
  have atDragged : Kept standard (.empty 0) dragged :=
    .act 7 _ (.act 6 _ atRaised rfl ⟨by decide +kernel, by decide +kernel⟩) rfl ⟨by decide +kernel, by decide +kernel⟩
  have atToggled : Kept standard (.empty 0) (dragged.act 8 (.toggle "win-1")) :=
    .act 8 _ atDragged rfl ⟨by decide +kernel, by decide +kernel⟩
  have atEnd : Kept standard (.empty 0) c := .evaluate 9 _ atToggled ⟨by decide +kernel, by decide +kernel⟩
  obtain ⟨numbers, _, _, apart, order⟩ := atEnd.given_in_turn
  exact ⟨by decide +kernel, by decide +kernel, by decide +kernel, numbers, apart, order⟩

end Chronicle

end DesktopShell

namespace DesktopShell.Desk
open Script (Deed Program)

/-- The desks that come later: after actions of controls, of which none takes over a snapshot, after lines of a
    terminal, and after whatever is done to the files and the queue besides. -/
inductive LeadsTo (first : Desk) : Desk → Prop
  | refl : LeadsTo first first
  | act {desk} (now : UInt64) (action : Action Float) : LeadsTo first desk → action.isRestore = false →
      LeadsTo first (desk.act now action)
  | evaluate {desk} (now : UInt64) (line : String) : LeadsTo first desk → LeadsTo first (desk.evaluate now line).1
  | aside {desk} (files : Files.Tree) (queue : List Effect) : LeadsTo first desk →
      LeadsTo first { desk with files, queue }

/-- A line leaves the scene where the calls of its script leave it, if it is one. -/
theorem scene_evaluate (desk : Desk) (now : UInt64) (line : String) : ∃ deeds : List Deed,
    (desk.evaluate now line).1.scene = (deeds.foldl (host now).perform desk).scene := by
  cases command : Shell.Command.ofLine line with
  | empty => exact ⟨[], by simp [evaluate, command]⟩
  | builtin builtin => exact ⟨[], by simp [evaluate, command, scene_runBuiltin]⟩
  | script source => exact ⟨_, congrArg Desk.scene (desk.evaluate_script now command)⟩

theorem isRestore_action (deed : Deed) : deed.action.isRestore = false := by
  cases deed <;> rfl

section
variable (kept : Scene Float → Prop) {first desk : Desk}

theorem foldl_perform_keeps
    (step : ∀ (s : Scene Float) (defaults : Defaults Float) (now : UInt64) (action : Action Float),
      action.isRestore = false → kept s → kept (s.step defaults now action).1)
    (now : UInt64) (deeds : List Deed) (before : kept desk.scene) :
    kept (deeds.foldl (host now).perform desk).scene := by
  induction deeds generalizing desk with
  | nil => exact before
  | cons deed rest ih =>
    exact ih (step desk.scene desk.config.windows now deed.action (isRestore_action deed) before)

/-- What every step of the scene keeps is kept by whole runs. -/
theorem LeadsTo.keeps
    (step : ∀ (s : Scene Float) (defaults : Defaults Float) (now : UInt64) (action : Action Float),
      action.isRestore = false → kept s → kept (s.step defaults now action).1)
    (run : first.LeadsTo desk) (before : kept first.scene) : kept desk.scene := by
  induction run with
  | refl => exact before
  | act now action _ plain ih => exact step _ _ now action plain ih
  | @evaluate desk now line _ ih =>
    obtain ⟨deeds, same⟩ := desk.scene_evaluate now line
    rw [same]
    exact foldl_perform_keeps kept step now deeds ih
  | aside files queue _ ih => exact ih

end

/-- The calls of a script are steps of a run. -/
theorem LeadsTo.perform {first desk : Desk} (run : first.LeadsTo desk) (now : UInt64) (deeds : List Deed) :
    first.LeadsTo (deeds.foldl (host now).perform desk) := by
  induction deeds generalizing desk with
  | nil => exact run
  | cons deed rest ih => exact ih (run.act now deed.action (isRestore_action deed))

/-- The counter of windows never goes back, so that it has room all along when it has room in the end. -/
theorem LeadsTo.windowsIssued {config : Config Float} {files : Files.Tree} {desk : Desk}
    (run : (start config files).LeadsTo desk) (room : desk.scene.desktop.nextWindow < Counter.top) :
    desk.scene.desktop.WindowsIssued := by
  refine run.keeps (fun s => s.desktop.nextWindow < Counter.top → s.desktop.WindowsIssued) ?_ ?_ room
  · intro s defaults now action plain issued room
    have turn : s.desktop.Turn defaults now (s.step defaults now action).1.desktop := s.step_turn plain
    exact (issued (UInt64.lt_of_le_of_lt turn.le_nextWindow room)).turn turn room
  · exact fun _ => .nil

theorem LeadsTo.held {first desk : Desk} (run : first.LeadsTo desk) (held : first.scene.Held) : desk.scene.Held :=
  run.keeps Scene.Held (fun _ _ _ action _ held => held.step action) held

/-- The ways in which a desk comes to be without a window: it is closed by a control, or by a script that has carried
    out some first calls of its line or all of them, or its application is uninstalled. -/
inductive Removes (before : Desk) (id : String) : Desk → Prop
  | close (now : UInt64) : Removes before id (before.act now (.close id))
  | script (now : UInt64) {line source : String} {called : List Deed} : Shell.Command.ofLine line = .script source →
      called <+: (Program.ofSource source).deeds before.scene.desktop.isLive → Deed.close id ∈ called →
      Removes before id (called.foldl (host now).perform before)
  | uninstall (now : UInt64) {w : Window Float} {app : App} : w ∈ before.scene.desktop.windows → w.id = id →
      before.scene.desktop.app? w.app = some app → Removes before id (before.act now (.uninstall w.app))

/-- A removal is a stretch of a run. -/
theorem Removes.leadsTo {before after : Desk} {id : String} (removal : before.Removes id after) :
    before.LeadsTo after := by
  cases removal with
  | close now => exact .act now _ .refl rfl
  | script now _ _ _ => exact LeadsTo.refl.perform now _
  | uninstall now _ _ _ => exact .act now _ .refl rfl

/-- Right after it was removed a window is gone for good. -/
theorem Removes.gone {config : Config Float} {files : Files.Tree} {before after : Desk} {id : String}
    (run : (start config files).LeadsTo before) (room : before.scene.desktop.nextWindow < Counter.top)
    (present : id ∈ before.scene.desktop.windows.map (·.id)) (removal : before.Removes id after) :
    after.scene.desktop.Gone id := by
  have issued := run.windowsIssued room
  have passed : before.scene.desktop.Passed id := fun k named => issued.behind k (named ▸ present)
  cases removal with
  | close now => exact Scene.gone_close issued passed
  | script now _ _ closes =>
    obtain ⟨front, back, rfl⟩ := List.append_of_mem closes
    rw [List.foldl_append]
    -- The calls before the closing one open no window, so that the counter is where it was.
    have counter := (SameBesides.perform before now front).nextWindow
    have issued' := (run.perform now front).windowsIssued (counter ▸ room)
    have gone : ((front.foldl (host now).perform before).act now (.close id)).scene.desktop.Gone id :=
      Scene.gone_close issued' fun k named => counter ▸ passed k named
    exact foldl_perform_keeps (fun s => s.desktop.Gone id) Scene.gone_step now back gone
  | uninstall now member named listed =>
    subst named
    exact Scene.gone_uninstall issued member listed

/-- A window that was removed stays gone. Wherever a run without restored snapshots goes afterwards, no window
    has its id again, no gesture is on it, and every action that names it leaves the desk as it is, with nothing
    added to the queue. It is enough that the counter of windows had room when the window was removed. -/
theorem Removes.stays_gone {config : Config Float} {files : Files.Tree} {before after later : Desk} {id : String}
    (run : (start config files).LeadsTo before) (room : before.scene.desktop.nextWindow < Counter.top)
    (present : id ∈ before.scene.desktop.windows.map (·.id)) (removal : before.Removes id after)
    (rest : after.LeadsTo later) :
    id ∉ later.scene.desktop.windows.map (·.id) ∧ id ∉ later.scene.gestures.windows ∧
      ∀ (now : UInt64) (action : Action Float), action.window? = some id → later.act now action = later := by
  have gone : later.scene.desktop.Gone id :=
    rest.keeps (fun s => s.desktop.Gone id) Scene.gone_step (removal.gone run room present)
  have held : later.scene.Held := rest.held (removal.leadsTo.held (run.held (by simp [Scene.Held, start, Scene.start])))
  refine ⟨gone.absent, fun gesture => gone.absent (held id gesture), ?_⟩
  intro now action named
  simp [act, Scene.step_of_gone gone.absent named, Scene.unchanged]

/-- A window is dragged and closed by the first call of a line that goes on with it. After the line another
    window is opened, and the pointer moves on. -/
theorem Removes.stays_gone_dragged :
    let line := "local a = window('win-1') a.close:() a.move:(5, 5)"
    let opened := (start Config.standard (.empty 0)).act 1 (.openApp "terminal" none)
    let before := opened.act 2 (.beginDrag "win-1" ⟨0, 0⟩)
    let later := ((before.evaluate 3 line).1.act 4 (.openApp "terminal" none)).act 5 (.dragTo ⟨9, 9⟩)
    later.scene.desktop.windows.map (·.id) = ["win-2"] ∧ "win-1" ∉ later.scene.desktop.windows.map (·.id) ∧
      "win-1" ∉ later.scene.gestures.windows ∧
      ∀ (now : UInt64) (action : Action Float), action.window? = some "win-1" → later.act now action = later := by
  intro line opened before later
  have run : (start Config.standard (.empty 0)).LeadsTo before := .act 2 _ (.act 1 _ .refl rfl) rfl
  have command : Shell.Command.ofLine line = .script line := by decide +kernel
  have called : (Program.ofSource line).deeds before.scene.desktop.isLive =
      [.close "win-1", .move "win-1" 5 5] := by decide +kernel
  have removal : before.Removes "win-1" (before.evaluate 3 line).1 := by
    rw [before.evaluate_script 3 command]
    exact .script 3 command (List.prefix_refl _) (by simp [called])
  have rest : (before.evaluate 3 line).1.LeadsTo later := .act 5 _ (.act 4 _ .refl rfl) rfl
  exact ⟨by decide +kernel, removal.stays_gone run (by decide +kernel) (by decide +kernel) rest⟩

end DesktopShell.Desk
