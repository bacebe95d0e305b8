import DesktopShell.Desk
import DesktopShell.Proofs.Desktop.Outcome
import DesktopShell.Proofs.Files.Growth
import DesktopShell.Proofs.Shell

/-!
# What a line can touch

A script asks its host which windows are there only before its first call, so what
it does and shows is settled by the windows that are there when it begins
(`evaluate_eq`). A rehearsal therefore tells all about a run on a desk: the desk
comes to where it would come by the rehearsed actions one by one, and the answer
is the rehearsed one (`Desk.evaluate_rehearsed`).

A built-in command at most makes one node in the root, and a refused one leaves the desk as
it was; a script reaches the windows and nothing besides (`Desk.SameBesides`). So a line
changes files or windows and never both (`Desk.evaluate_isolated`).
-/
namespace DesktopShell

namespace Script
variable {σ : Type}

/-- What a call does, if anything, and what it shows, if anything, once the names are bound. -/
def reply (names : Names) (call : String × String × List String) : Option Deed × Option String :=
  match names.window? call.1 with
  | none => (none, some ("Error: Window variable '" ++ call.1 ++ "' not found"))
  | some window => respond window call.2.1 call.2.2

/-- What calls do, one after another. -/
def deeds (names : Names) (calls : List (String × String × List String)) : List Deed :=
  calls.filterMap fun call => (reply names call).1

/-- What calls show, line by line. -/
def shownLines (names : Names) (calls : List (String × String × List String)) : List String :=
  calls.filterMap fun call => (reply names call).2

theorem runCall_eq (host : Host σ) (names : Names) (s : σ) (call : String × String × List String) :
    runCall host names s call = ((reply names call).1.elim s (host.perform s), (reply names call).2) := by
  unfold runCall reply
  cases names.window? call.1 with
  | none => rfl
  | some window =>
    dsimp only
    generalize respond window call.2.1 call.2.2 = answer
    obtain ⟨deed, line⟩ := answer
    cases deed <;> rfl

/-- Calls are replied to by their names alone, whatever the calls before them did to the host. -/
theorem runCalls_eq (host : Host σ) (names : Names) (s : σ) (calls : List (String × String × List String)) :
    runCalls host names s calls = ((deeds names calls).foldl host.perform s, shownLines names calls) := by
  induction calls generalizing s with
  | nil => rfl
  | cons call rest ih =>
    unfold runCalls
    rw [runCall_eq]
    simp only [ih, deeds, shownLines, List.filterMap_cons]
    cases reply names call with
    | mk deed line => cases deed <;> cases line <;> rfl

/-- What a program does where the windows are those that `live` tells. -/
def Program.deeds (live : String → Bool) (p : Program) : List Deed :=
  if p.hasPrint then [] else Script.deeds (bindNames live p.bindings) p.calls

/-- What a program shows where the windows are those that `live` tells. -/
def Program.shown (live : String → Bool) (p : Program) : String :=
  if p.hasPrint then output (p.prints.map Expr.render)
  else
    let text := output (shownLines (bindNames live p.bindings) p.calls)
    if text = "" then acknowledgement else text

/-- A run depends on its host only through the windows that are there when it begins. -/
theorem evaluate_eq (host : Host σ) (s : σ) (source : String) :
    let program := Program.ofSource source
    evaluate host s source = ((program.deeds (host.isLive s)).foldl host.perform s, program.shown (host.isLive s)) := by
  intro program
  unfold evaluate run Program.deeds Program.shown
  by_cases prints : program.hasPrint = true
  · simp [program, prints]
  · simp [program, prints, runCalls_eq]

/-- A rehearsal writes down what it is asked to do and goes on knowing the same windows. -/
theorem foldl_perform_rehearsal (r : Rehearsal) (ds : List Deed) :
    ds.foldl Rehearsal.host.perform r = { r with deeds := r.deeds ++ ds } := by
  induction ds generalizing r with
  | nil => simp
  | cons deed rest ih =>
    rw [List.foldl_cons, ih]
    simp [Rehearsal.host]

/-- A run of a script from the beginning of a rehearsal. -/
def rehearse (live : List String) (source : String) : Rehearsal × String :=
  evaluate Rehearsal.host ⟨live, []⟩ source

theorem rehearse_eq (live : List String) (source : String) :
    let program := Program.ofSource source
    rehearse live source = (⟨live, program.deeds live.contains⟩, program.shown live.contains) := by
  intro program
  unfold rehearse
  rw [evaluate_eq, foldl_perform_rehearsal]
  rfl

/-- On a host with the rehearsed windows a script does what was rehearsed and answers so. -/
theorem evaluate_eq_rehearse (host : Host σ) (s : σ) {live : List String}
    (same : ∀ id, live.contains id = host.isLive s id) (source : String) :
    evaluate host s source =
      ((rehearse live source).1.deeds.foldl host.perform s, (rehearse live source).2) := by
  have known : live.contains = host.isLive s := funext same
  simp only [evaluate_eq, rehearse_eq, known]

end Script

/-- The ids of the windows that a script finds on a desktop. -/
def Desktop.liveIds {α : Type} (d : Desktop α) : List String := (d.windows.map (·.id)).filter d.isLive

theorem Desktop.contains_liveIds {α : Type} (d : Desktop α) (id : String) :
    d.liveIds.contains id = d.isLive id := by
  apply Bool.eq_iff_iff.mpr
  rw [List.contains_iff_mem, liveIds, List.mem_filter]
  constructor
  · exact fun member => member.2
  · intro live
    refine ⟨?_, live⟩
    unfold isLive at live
    cases found : d.window? id with
    | none => simp [found] at live
    | some w =>
      have named : w.id = id := by simpa using List.find?_some found
      exact List.mem_map.mpr ⟨w, List.mem_of_find?_eq_some found, named⟩

namespace Desk

/-- The desk after actions one by one, each at a time of its own. -/
def actAll (desk : Desk) (steps : List (UInt64 × Action Float)) : Desk :=
  steps.foldl (fun desk step => desk.act step.1 step.2) desk

/-- What scripts do does not look at the clock. -/
theorem act_deed (desk : Desk) (now later : UInt64) (deed : Script.Deed) :
    desk.act now deed.action = desk.act later deed.action := by
  cases deed <;> rfl

theorem foldl_perform_host (desk : Desk) (now : UInt64) {ds : List Script.Deed}
    {steps : List (UInt64 × Action Float)} (acted : steps.map (·.2) = ds.map Script.Deed.action) :
    ds.foldl (Desk.host now).perform desk = desk.actAll steps := by
  induction ds generalizing desk steps with
  | nil =>
    have none : steps = [] := by simpa using acted
    rw [none]
    rfl
  | cons deed rest ih =>
    cases steps with
    | nil => simp at acted
    | cons step later =>
      simp only [List.map_cons, List.cons.injEq] at acted
      have first : (Desk.host now).perform desk deed = desk.act step.1 step.2 := by
        rw [acted.1]
        exact act_deed desk now step.1 deed
      simp only [List.foldl_cons, first, ih _ acted.2]
      rfl

/-- A script on any desk shows what it shows in a rehearsal with the windows of the desk, which it
    knows to the end; and it leaves the desk as the rehearsed actions leave it when they are done
    one by one at any times. -/
theorem evaluate_rehearsed (desk : Desk) (now : UInt64) (source : String) (steps : List (UInt64 × Action Float))
    (acted : steps.map (·.2) =
      (Script.rehearse desk.scene.desktop.liveIds source).1.deeds.map Script.Deed.action) :
    let rehearsal := Script.rehearse desk.scene.desktop.liveIds source
    rehearsal.1.live = desk.scene.desktop.liveIds ∧
      Script.evaluate (Desk.host now) desk source = (desk.actAll steps, rehearsal.2) := by
  intro rehearsal
  have known : rehearsal.1.live = desk.scene.desktop.liveIds := by
    simp only [rehearsal, Script.rehearse_eq]
  have rehearsed := Script.evaluate_eq_rehearse (Desk.host now) desk desk.scene.desktop.contains_liveIds source
  rw [foldl_perform_host desk now acted] at rehearsed
  exact ⟨known, rehearsed⟩

/-- A window that is closed at the beginning of a line stays bound to its name to the end, although
    the actions on it come to nothing. -/
theorem evaluate_rehearsed_closed :
    let desk := (start Config.standard (.empty 0)).act 1 (.openApp "terminal" none)
    let source := "local a = window('win-1') a.close:() b.focus:() a.move:(5, x) a.move:(5, 5)"
    let steps : List (UInt64 × Action Float) := [(7, .close "win-1"), (3, .move "win-1" 5 5)]
    (Script.rehearse desk.scene.desktop.liveIds source).1.deeds = [.close "win-1", .move "win-1" 5 5] ∧
      Script.evaluate (Desk.host 2) desk source = (desk.actAll steps,
        "Closed window win-1\nError: Window variable 'b' not found\nMoved window win-1 to (5, 5)") := by
  intro desk source steps
  have deeds : (Script.rehearse desk.scene.desktop.liveIds source).1.deeds =
      [.close "win-1", .move "win-1" 5 5] := by decide +kernel
  have shown : (Script.rehearse desk.scene.desktop.liveIds source).2 =
      "Closed window win-1\nError: Window variable 'b' not found\nMoved window win-1 to (5, 5)" := by
    decide +kernel
  have run := (evaluate_rehearsed desk 2 source steps (by rw [deeds]; rfl)).2
  rw [shown] at run
  exact ⟨deeds, run⟩

end Desk

end DesktopShell

namespace DesktopShell.Desk
open Script (Deed Program)

/-- A script leaves the desk where its calls leave it. -/
theorem evaluate_script (desk : Desk) (now : UInt64) {line source : String}
    (command : Shell.Command.ofLine line = .script source) : (desk.evaluate now line).1 =
      ((Program.ofSource source).deeds desk.scene.desktop.isLive).foldl (host now).perform desk := by
  simp only [evaluate, command, Script.evaluate_eq]
  rfl

/-- Two desks that differ at most in the windows that are there, the gestures on these and the queue. -/
structure SameBesides (desk after : Desk) : Prop where
  config : after.config = desk.config
  files : after.files = desk.files
  catalogue : desk.scene.desktop.SameCatalogue after.scene.desktop
  background : after.scene.desktop.background = desk.scene.desktop.background
  nextWindow : after.scene.desktop.nextWindow = desk.scene.desktop.nextWindow

namespace SameBesides

theorem refl (desk : Desk) : desk.SameBesides desk := ⟨rfl, rfl, ⟨rfl, rfl, rfl, rfl⟩, rfl, rfl⟩

theorem trans {desk between after : Desk} (first : desk.SameBesides between) (second : between.SameBesides after) :
    desk.SameBesides after := by
  refine ⟨second.config.trans first.config, second.files.trans first.files, ?_,
    second.background.trans first.background, second.nextWindow.trans first.nextWindow⟩
  exact ⟨second.catalogue.apps.trans first.catalogue.apps, second.catalogue.icons.trans first.catalogue.icons,
    second.catalogue.nextApp.trans first.catalogue.nextApp, second.catalogue.nextIcon.trans first.catalogue.nextIcon⟩

/-- What a script calls for opens no windows and stays off all but them. -/
theorem act_deed (desk : Desk) (now : UInt64) (deed : Deed) : desk.SameBesides (desk.act now deed.action) := by
  cases deed <;> simp only [Deed.action, act, Scene.step, Scene.edit, Scene.close, Scene.focus] <;> split <;>
    exact ⟨rfl, rfl, ⟨rfl, rfl, rfl, rfl⟩, rfl, rfl⟩

theorem perform (desk : Desk) (now : UInt64) (deeds : List Deed) :
    desk.SameBesides (deeds.foldl (host now).perform desk) := by
  induction deeds generalizing desk with
  | nil => exact refl desk
  | cons deed rest ih => exact (act_deed desk now deed).trans (ih (desk.act now deed.action))

end SameBesides

/-- A command that names no new node leaves the desk as it is. -/
theorem runBuiltin_of_newName?_eq_none (desk : Desk) (now : UInt64) {command : Shell.Builtin}
    (nothing : command.newName? = none) : ∃ answer, desk.runBuiltin now command = (desk, .ok answer) := by
  cases command with
  | mkdir name => cases nothing
  | touch name => cases nothing
  | _ => exact ⟨_, rfl⟩

/-- A command that names a new node creates it in the root. -/
theorem runBuiltin_of_newName? (desk : Desk) (now : UInt64) {command : Shell.Builtin} {name : String}
    (named : command.newName? = some name) : ∃ answer body,
      desk.runBuiltin now command = desk.made answer (desk.files.create now none name body) ∧
        ∀ name', body name' = .folder ↔ command = .mkdir name := by
  cases command with
  | mkdir given =>
    obtain rfl := Option.some.inj named
    exact ⟨_, fun _ => .folder, rfl, by simp⟩
  | touch given =>
    obtain rfl := Option.some.inj named
    exact ⟨_, fun name => .file "" (Files.extension? name), rfl, by simp⟩
  | _ => cases named

/-- What can come of a command that names a new node. -/
theorem runBuiltin_cases (desk : Desk) (now : UInt64) {command : Shell.Builtin} {name : String}
    (named : command.newName? = some name) :
    (∃ failure, desk.runBuiltin now command = (desk, .error failure)) ∨
      ∃ answer n, desk.runBuiltin now command = ({ desk with files := desk.files.withNode n }, .ok answer) ∧
        n.name = Text.trim name ∧ n.parent = some Files.rootId ∧ (n.isFolder = true ↔ command = .mkdir name) ∧
        Files.Joins desk.files.nodes n := by
  obtain ⟨answer, body, runs, kind⟩ := desk.runBuiltin_of_newName? now named
  rw [runs]
  rcases created : desk.files.create now none name body with ⟨next, fault | n⟩
  · obtain rfl := Files.Tree.create_eq_self created
    exact .inl ⟨_, rfl⟩
  · obtain ⟨_, joins, _⟩ := Files.Tree.create_eq_ok created
    obtain ⟨root, found, _, _, _, rfl, rfl⟩ := Files.Tree.exists_of_create created
    have placed : root.id = Files.rootId := by simpa using List.find?_some found
    refine .inr ⟨answer, _, rfl, rfl, congrArg some placed, ?_, joins⟩
    exact decide_eq_true_iff.trans (kind (Text.trim name))

theorem evaluate_builtin (desk : Desk) (now : UInt64) {line : String} {command : Shell.Builtin}
    (asked : Shell.Command.ofLine line = .builtin command) : desk.evaluate now line = desk.runBuiltin now command := by
  simp only [evaluate, asked]

theorem evaluate_eq_error {desk : Desk} {now : UInt64} {line : String} {failure : Shell.Failure}
    (failed : (desk.evaluate now line).2 = .error failure) : (desk.evaluate now line).1 = desk ∧
      ∃ command name, Shell.Command.ofLine line = .builtin command ∧ command.newName? = some name := by
  cases asked : Shell.Command.ofLine line with
  | empty => simp [evaluate, asked] at failed
  | script source => simp [evaluate, asked] at failed
  | builtin command =>
    rw [desk.evaluate_builtin now asked] at failed ⊢
    cases named : command.newName? with
    | none =>
      obtain ⟨answer, read⟩ := desk.runBuiltin_of_newName?_eq_none now named
      simp [read] at failed
    | some name =>
      rcases desk.runBuiltin_cases now named with ⟨_, refused⟩ | ⟨answer, n, made, _⟩
      · exact ⟨by rw [refused], command, name, rfl, named⟩
      · simp [made] at failed

/-- A line fails only if it names a new node, and then the desk is as before. If the node is made, it stands after
    the others and is a child of the root with that name, and nothing else has changed. A blank line and any
    other built-in command change nothing, and a script changes nothing besides the windows. -/
theorem evaluate_isolated (desk : Desk) (now : UInt64) (line : String) :
    let after := desk.evaluate now line
    (∀ failure, after.2 = .error failure → after.1 = desk ∧
      ∃ command name, Shell.Command.ofLine line = .builtin command ∧ command.newName? = some name) ∧
    (∀ command name, Shell.Command.ofLine line = .builtin command → command.newName? = some name →
      ∀ answer, after.2 = .ok answer → ∃ n : Files.Node,
        after.1 = { desk with files := desk.files.withNode n } ∧ n.name = name ∧ n.parent = some Files.rootId ∧
          (n.isFolder = true ↔ command = .mkdir name) ∧ Files.Joins desk.files.nodes n) ∧
    (∀ command, Shell.Command.ofLine line = .builtin command → command.newName? = none → after.1 = desk) ∧
    (Text.trim line = "" → after.1 = desk) ∧
    ∀ source, Shell.Command.ofLine line = .script source → desk.SameBesides after.1 := by
  refine ⟨fun _ => evaluate_eq_error, ?_, ?_, ?_, ?_⟩
  · intro command name asked named answer fine
    rw [desk.evaluate_builtin now asked] at fine ⊢
    rcases desk.runBuiltin_cases now named with ⟨_, refused⟩ | ⟨_, n, made, given, inRoot, kind, joins⟩
    · simp [refused] at fine
    · rw [Shell.Command.trim_newName? asked named] at given
      exact ⟨n, by rw [made], given, inRoot, kind, joins⟩
  · intro command asked unnamed
    obtain ⟨answer, read⟩ := desk.runBuiltin_of_newName?_eq_none now unnamed
    rw [desk.evaluate_builtin now asked, read]
  · intro blank
    simp only [evaluate, Shell.Command.ofLine_eq_empty_iff.mpr blank]
  · intro source asked
    exact desk.evaluate_script now asked ▸ .perform desk now _

/-- A file is made, which a second time is refused, and a script moves a window. -/
theorem evaluate_isolated_again :
    let desk := (start Config.standard (.empty 0)).act 1 (.openApp "terminal" none)
    let made := (desk.evaluate 2 " touch  a b ").1
    let again := made.evaluate 3 "touch a b"
    let moved := (made.evaluate 4 "local a = window('win-1') a.move:(5, 5)").1
    (∃ n : Files.Node, made = { desk with files := desk.files.withNode n } ∧ n.name = "a b") ∧
      again.2 = .error ⟨.conflict, "/a b: File exists"⟩ ∧ again.1 = made ∧
      made.SameBesides moved ∧ moved.queue = made.queue ++ [.save] := by
  intro desk made again moved
  have asked : Shell.Command.ofLine " touch  a b " = .builtin (.touch "a b") := by decide +kernel
  have script : Shell.Command.ofLine "local a = window('win-1') a.move:(5, 5)" =
      .script "local a = window('win-1') a.move:(5, 5)" := by decide +kernel
  have refused : again.2 = .error ⟨.conflict, "/a b: File exists"⟩ := rfl
  obtain ⟨n, same, named, _⟩ := (desk.evaluate_isolated 2 " touch  a b ").2.1 _ "a b" asked rfl _ rfl
  refine ⟨⟨n, same, named⟩, refused, ((made.evaluate_isolated 3 "touch a b").1 _ refused).1, ?_, by decide +kernel⟩
  exact (made.evaluate_isolated 4 _).2.2.2.2 _ script

end DesktopShell.Desk
