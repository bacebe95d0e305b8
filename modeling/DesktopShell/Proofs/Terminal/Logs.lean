import DesktopShell.Proofs.Terminal.Console
import Mathlib.Data.List.Destutter
import Mathlib.Data.List.DropRight

/-!
# What a session keeps of its lines

The history and the transcript of a session are cut after every line. What is left is what
one cut at the end would leave of logs that are never cut (`Session.logs_of_lines`): each
log only looks at its last element, and the last elements of a log are those of its end.
-/
namespace DesktopShell.Terminal

theorem keepLast_append_keepLast {α : Type} (count : Nat) (xs ys : List α) :
    keepLast count (keepLast count xs ++ ys) = keepLast count (xs ++ ys) := by
  unfold keepLast
  have front : xs.drop (xs.length - count) ++ ys = (xs ++ ys).drop (xs.length - count) :=
    (List.drop_append_of_le_length (Nat.sub_le _ _)).symm
  rw [front, List.drop_drop]
  congr 1
  simp only [List.length_drop, List.length_append]
  omega

theorem length_keepLast_le {α : Type} (count : Nat) (xs : List α) : (keepLast count xs).length ≤ count := by
  rw [keepLast, List.length_drop]
  omega

theorem keepLast_of_few {α : Type} {count : Nat} {xs : List α} (few : xs.length ≤ count) :
    keepLast count xs = xs := by
  rw [keepLast, Nat.sub_eq_zero_of_le few, List.drop_zero]

theorem getLast?_keepLast {α : Type} {count : Nat} (room : 0 < count) (xs : List α) :
    (keepLast count xs).getLast? = xs.getLast? := by
  rw [keepLast, List.getLast?_drop]
  by_cases empty : xs = []
  · simp [empty]
  · have inhabited : 0 < xs.length := List.length_pos_iff.mpr empty
    rw [if_neg (by omega)]

section
variable {α : Type} [DecidableEq α]

private theorem destutter'_append_singleton (first : α) (xs : List α) (last : α) :
    (xs ++ [last]).destutter' (· ≠ ·) first =
      if (xs.destutter' (· ≠ ·) first).getLast? = some last then xs.destutter' (· ≠ ·) first
      else xs.destutter' (· ≠ ·) first ++ [last] := by
  induction xs generalizing first with
  | nil =>
    by_cases same : first = last <;> simp [List.destutter', same]
  | cons next rest ih =>
    rw [List.cons_append]
    by_cases same : first = next
    · rw [List.destutter'_cons_neg _ (not_not_intro same), List.destutter'_cons_neg _ (not_not_intro same), ih]
    · rw [List.destutter'_cons_pos _ same, List.destutter'_cons_pos _ same, ih]
      have inhabited := List.destutter'_ne_nil rest (· ≠ ·) (a := next)
      have kept : (first :: rest.destutter' (· ≠ ·) next).getLast? = (rest.destutter' (· ≠ ·) next).getLast? :=
        List.getLast?_append_of_ne_nil [first] inhabited
      rw [kept]
      split <;> rfl

/-- Of a list that grows at its end, with equal neighbours taken as one, only the last element matters. -/
theorem destutter_append_singleton (xs : List α) (last : α) :
    (xs ++ [last]).destutter (· ≠ ·) =
      if (xs.destutter (· ≠ ·)).getLast? = some last then xs.destutter (· ≠ ·)
      else xs.destutter (· ≠ ·) ++ [last] := by
  cases xs with
  | nil => simp
  | cons first rest => exact destutter'_append_singleton first rest last

end

/-- A line that is submitted on a desk at a time. -/
structure Submission where
  desk : Desk
  now : UInt64
  line : String

namespace Submission

def command (given : Submission) : String := Text.trim given.line

/-- The entries that are due for a line: the line as it was typed and its answer, but none for a blank line or for
    clearing. -/
def entries (given : Submission) : List Entry :=
  if given.command = "" ∨ given.command = "clear" then []
  else match (given.desk.evaluate given.now given.line).2 with
    | .ok text => if text = "" then [.prompt given.line] else [.prompt given.line, .output text]
    | .error failure => [.prompt given.line, .error ("Error: " ++ failure.message)]

/-- The trimmed lines that are not blank, with equal neighbours taken as one. -/
def history (lines : List Submission) : List String :=
  ((lines.map command).filter fun command => command ≠ "").destutter (· ≠ ·)

/-- The banner and then the entries of the lines, from nothing again after each line that clears. -/
def transcript (lines : List Submission) : List Entry :=
  lines.foldl (fun shown given => if given.command = "clear" then [] else shown ++ given.entries)
    [.system "FluxoOS Terminal v1.0.0", .system "Type 'help' for available commands."]

/-- A line that neither is blank nor clears has the entries that a session makes for its answer. -/
theorem entries_of_command {given : Submission} (spoken : given.command ≠ "") (stays : given.command ≠ "clear") :
    given.entries = .prompt given.line :: Session.answerEntries (given.desk.evaluate given.now given.line).2 := by
  rw [entries, if_neg (not_or.mpr ⟨spoken, stays⟩)]
  cases (given.desk.evaluate given.now given.line).2 with
  | error failure => rfl
  | ok text => by_cases empty : text = "" <;> simp [Session.answerEntries, empty]

theorem history_append_singleton (lines : List Submission) (given : Submission) :
    history (lines ++ [given]) =
      if given.command = "" ∨ (history lines).getLast? = some given.command then history lines
      else history lines ++ [given.command] := by
  unfold history
  rw [List.map_append, List.filter_append, List.map_singleton]
  by_cases blank : given.command = ""
  · simp [blank]
  · have kept : [given.command].filter (fun command => command ≠ "") = [given.command] := by simp [blank]
    rw [kept, destutter_append_singleton]
    simp only [blank, false_or]

theorem transcript_append_singleton (lines : List Submission) (given : Submission) :
    transcript (lines ++ [given]) = if given.command = "clear" then [] else transcript lines ++ given.entries := by
  unfold transcript
  rw [List.foldl_append, List.foldl_cons, List.foldl_nil]

end Submission

namespace Session

/-- A session after lines, each submitted on a desk of its own, such as the one that the line before left. -/
def submitAll (s : Session) (lines : List Submission) : Session :=
  lines.foldl (fun s given => (s.submit given.desk given.now given.line).1) s

theorem submitAll_append_singleton (s : Session) (lines : List Submission) (given : Submission) :
    s.submitAll (lines ++ [given]) = ((s.submitAll lines).submit given.desk given.now given.line).1 := by
  rw [submitAll, List.foldl_append]
  rfl

section
variable (s : Session) {given : Submission}

theorem remember_transcript (command : String) : (s.remember command).transcript = s.transcript := by
  unfold remember
  split <;> rfl

theorem remember_history (command : String) :
    (s.remember command).history =
      if s.history.getLast? = some command then s.history else keepLast maxHistory (s.history ++ [command]) := by
  unfold remember
  split <;> rfl

theorem submit_of_blank (blank : given.command = "") :
    s.submit given.desk given.now given.line = (s, given.desk, []) := by
  have trimmed : Text.trim given.line = "" := blank
  simp only [submit, trimmed, if_true]

theorem submit_of_clear (clears : given.command = "clear") :
    s.submit given.desk given.now given.line =
      ({ s.remember given.command with exit := .success, transcript := [] }, given.desk, []) := by
  have trimmed : Text.trim given.line = "clear" := clears
  have spoken : "clear" ≠ "" := by decide
  simp only [submit, trimmed, if_neg spoken, if_true, clears]

theorem submit_of_command (spoken : given.command ≠ "") (stays : given.command ≠ "clear") :
    (s.submit given.desk given.now given.line).1 =
      { s.remember given.command with
        exit := answerExit (given.desk.evaluate given.now given.line).2
        transcript := keepLast maxEntries (s.transcript ++ given.entries) } := by
  have due := Submission.entries_of_command spoken stays
  unfold Submission.command at spoken stays
  simp only [submit, Submission.command, if_neg spoken, if_neg stays, remember_transcript, due]

theorem submit_history :
    (s.submit given.desk given.now given.line).1.history =
      if given.command = "" ∨ s.history.getLast? = some given.command then s.history
      else keepLast maxHistory (s.history ++ [given.command]) := by
  by_cases blank : given.command = ""
  · rw [submit_of_blank s blank, if_pos (.inl blank)]
  · simp only [blank, false_or, ← remember_history]
    by_cases clears : given.command = "clear"
    · rw [submit_of_clear s clears]
    · rw [submit_of_command s blank clears]

/-- A line gives back the entries that are due for it. -/
theorem submit_gives : (s.submit given.desk given.now given.line).2.2 = given.entries := by
  by_cases blank : given.command = ""
  · rw [submit_of_blank s blank, Submission.entries, if_pos (.inl blank)]
  · by_cases clears : given.command = "clear"
    · rw [submit_of_clear s clears, Submission.entries, if_pos (.inr clears)]
    · rw [Submission.entries_of_command blank clears]
      exact s.submit_entries given.desk given.now blank clears

/-- A line that does not clear appends the entries that are due for it. -/
theorem submit_transcript (few : s.transcript.length ≤ maxEntries) :
    (s.submit given.desk given.now given.line).1.transcript =
      if given.command = "clear" then [] else keepLast maxEntries (s.transcript ++ given.entries) := by
  by_cases clears : given.command = "clear"
  · rw [submit_of_clear s clears, if_pos clears]
  · rw [if_neg clears]
    by_cases blank : given.command = ""
    · rw [submit_of_blank s blank, Submission.entries, if_pos (.inl blank), List.append_nil, keepLast_of_few few]
    · rw [submit_of_command s blank clears]

end

/-- What a session has after lines is the end of the logs that are never cut. -/
structure Follows (s : Session) (lines : List Submission) : Prop where
  history : s.history = keepLast maxHistory (Submission.history lines)
  transcript : s.transcript = keepLast maxEntries (Submission.transcript lines)

namespace Follows
variable {s : Session} {lines : List Submission}

theorem few (follows : s.Follows lines) : s.transcript.length ≤ maxEntries := by
  rw [follows.transcript]
  exact length_keepLast_le _ _

theorem submit (follows : s.Follows lines) (given : Submission) :
    (s.submit given.desk given.now given.line).1.Follows (lines ++ [given]) := by
  refine ⟨?_, ?_⟩
  · rw [submit_history, Submission.history_append_singleton, follows.history, getLast?_keepLast (by decide)]
    split
    · rfl
    · exact keepLast_append_keepLast _ _ _
  · rw [s.submit_transcript follows.few, Submission.transcript_append_singleton, follows.transcript]
    split
    · rfl
    · exact keepLast_append_keepLast _ _ _

end Follows

theorem follows_submitAll (window : Option String) (lines : List Submission) :
    ((new window).submitAll lines).Follows lines := by
  induction lines using List.reverseRecOn with
  | nil => exact ⟨rfl, (keepLast_of_few (show 2 ≤ maxEntries by decide)).symm⟩
  | append_singleton before given ih =>
    rw [submitAll_append_singleton]
    exact ih.submit given

/-- After any lines on any desks, the history and the transcript of a session are the last 100 and the last 200
    elements of the logs that are never cut. Whatever line comes next, it gives back the entries that are due for it,
    and unless it clears, these are what comes to the transcript. -/
theorem logs_of_lines (window : Option String) (lines : List Submission) :
    let s := (new window).submitAll lines
    s.history = (Submission.history lines).rtake 100 ∧
      s.transcript = (Submission.transcript lines).rtake 200 ∧
      ∀ next : Submission,
        let submitted := s.submit next.desk next.now next.line
        submitted.2.2 = next.entries ∧ submitted.1.transcript =
          if next.command = "clear" then [] else (s.transcript ++ submitted.2.2).rtake 200 := by
  intro s
  have follows : s.Follows lines := follows_submitAll window lines
  refine ⟨follows.history, follows.transcript, ?_⟩
  intro next submitted
  have gives : submitted.2.2 = next.entries := s.submit_gives
  refine ⟨gives, ?_⟩
  rw [gives]
  exact s.submit_transcript follows.few

example :
    let desk := Desk.start Config.standard (.empty 0)
    let lines := ["mkdir a", " mkdir a ", "", "clear", "mkdir a"]
    let s := (new none).submitAll (lines.map fun line => ⟨desk, 1, line⟩)
    s.history = ["mkdir a", "clear", "mkdir a"] ∧
      s.transcript = [.prompt "mkdir a", .output "Created folder: a"] := by
  decide +kernel

end Session

end DesktopShell.Terminal
