import DesktopShell.Proofs.Desk.Isolation
import DesktopShell.Terminal

/-!
# What a console prints

A console prints the banner and then, line by line, what its desk answers, each answer
once and however many lines came before (`Console.runAt_replies`). The session in between
cuts its transcript and the desk carries out its effects, and neither shows: the entries
of a line are the last of the transcript that is left (`Session.submit_entries`), and what
waits in a queue never changes an answer (`Desk.SameButQueue.evaluate`).
-/
namespace DesktopShell

namespace Desk

/-- Two desks that differ at most in the effects that wait. -/
structure SameButQueue (desk other : Desk) : Prop where
  config : other.config = desk.config
  scene : other.scene = desk.scene
  files : other.files = desk.files

namespace SameButQueue
variable {desk other : Desk}

theorem refl (desk : Desk) : desk.SameButQueue desk := ⟨rfl, rfl, rfl⟩

theorem trans {last : Desk} (first : desk.SameButQueue other) (second : other.SameButQueue last) :
    desk.SameButQueue last :=
  ⟨second.config.trans first.config, second.scene.trans first.scene, second.files.trans first.files⟩

theorem drain (same : desk.SameButQueue other) (store : Store) (stamp : UInt64) :
    desk.SameButQueue (other.runEffects store stamp).1 :=
  ⟨same.config, same.scene, same.files⟩

theorem act (same : desk.SameButQueue other) (now : UInt64) (action : Action Float) :
    (desk.act now action).SameButQueue (other.act now action) := by
  refine ⟨same.config, ?_, same.files⟩
  simp only [Desk.act, same.config, same.scene]

theorem perform (same : desk.SameButQueue other) (now : UInt64) (deeds : List Script.Deed) :
    (deeds.foldl (host now).perform desk).SameButQueue (deeds.foldl (host now).perform other) := by
  induction deeds generalizing desk other with
  | nil => exact same
  | cons deed rest ih => exact ih (same.act now deed.action)

theorem made (same : desk.SameButQueue other) (answer : String)
    (result : Files.Tree × Except Files.Fault Files.Node) :
    (other.made answer result).2 = (desk.made answer result).2 ∧
      (desk.made answer result).1.SameButQueue (other.made answer result).1 := by
  rcases result with ⟨files, fault | n⟩ <;> exact ⟨rfl, same.config, same.scene, rfl⟩

theorem runBuiltin (same : desk.SameButQueue other) (now : UInt64) (command : Shell.Builtin) :
    (other.runBuiltin now command).2 = (desk.runBuiltin now command).2 ∧
      (desk.runBuiltin now command).1.SameButQueue (other.runBuiltin now command).1 := by
  cases command with
  | mkdir name =>
    simp only [Desk.runBuiltin, same.files]
    exact same.made _ _
  | touch name =>
    simp only [Desk.runBuiltin, same.files]
    exact same.made _ _
  | _ =>
    simp only [Desk.runBuiltin, same.files, same.scene]
    exact ⟨trivial, same⟩

/-- What waits changes no answer and nothing that an answer leaves behind. -/
theorem evaluate (same : desk.SameButQueue other) (now : UInt64) (line : String) :
    (other.evaluate now line).2 = (desk.evaluate now line).2 ∧
      (desk.evaluate now line).1.SameButQueue (other.evaluate now line).1 := by
  cases asked : Shell.Command.ofLine line with
  | empty =>
    simp only [Desk.evaluate, asked]
    exact ⟨trivial, same⟩
  | builtin command =>
    rw [desk.evaluate_builtin now asked, other.evaluate_builtin now asked]
    exact same.runBuiltin now command
  | script source =>
    have live : (host now).isLive other = (host now).isLive desk := by simp only [host, same.scene]
    simp only [Desk.evaluate, asked, Script.evaluate_eq, live]
    exact ⟨trivial, same.perform now _⟩

end SameButQueue

/-- What is shown of an answer, if anything. -/
def shown : Except Shell.Failure String → List String
  | .ok text => if text = "" then [] else [text]
  | .error failure => ["Error: " ++ failure.message]

/-- What a desk shows for lines that it carries out one after another, the line with a number at the
    time that the clock shows then. -/
def replies (clock : Nat → UInt64) : Nat → Desk → List String → List String
  | _, _, [] => []
  | n, desk, line :: rest =>
    shown (desk.evaluate (clock n) line).2 ++ replies clock (n + 1) (desk.evaluate (clock n) line).1 rest

theorem evaluate_of_blank (desk : Desk) (now : UInt64) {line : String} (blank : Text.trim line = "") :
    desk.evaluate now line = (desk, .ok "") := by
  simp only [evaluate, Shell.Command.ofLine_eq_empty_iff.mpr blank]

theorem evaluate_of_clear (desk : Desk) (now : UInt64) {line : String} (clears : Text.trim line = "clear") :
    desk.evaluate now line = (desk, .ok "") := by
  rw [desk.evaluate_builtin now (Shell.Command.ofLine_eq_clear_iff.mpr clears)]
  rfl

end Desk

namespace Terminal

/-- The last elements stay the last when elements are dropped before them. -/
theorem keepLast_keepLast_append {α : Type} {count : Nat} (xs : List α) {ys : List α} (few : ys.length ≤ count) :
    keepLast ys.length (keepLast count (xs ++ ys)) = ys := by
  unfold keepLast
  rw [List.drop_drop]
  have whole : (xs ++ ys).length - count + ((List.drop ((xs ++ ys).length - count) (xs ++ ys)).length - ys.length) =
      xs.length := by
    simp only [List.length_drop, List.length_append]
    omega
  rw [whole, List.drop_left]

namespace Session

/-- However full the transcript is, the entries of a line are the line and its answer. -/
theorem submit_entries (s : Session) (desk : Desk) (now : UInt64) {line : String}
    (spoken : Text.trim line ≠ "") (stays : Text.trim line ≠ "clear") :
    (s.submit desk now line).2.2 = .prompt line :: answerEntries (desk.evaluate now line).2 := by
  have few : (Entry.prompt line :: answerEntries (desk.evaluate now line).2).length ≤ maxEntries := by
    cases (desk.evaluate now line).2 with
    | error failure => simp [answerEntries, maxEntries]
    | ok text => by_cases empty : text = "" <;> simp [answerEntries, maxEntries, empty]
  simp only [submit, if_neg spoken, if_neg stays]
  exact keepLast_keepLast_append _ few

/-- A line leaves the desk where the desk itself would be left. -/
theorem submit_desk (s : Session) (desk : Desk) (now : UInt64) (line : String) :
    (s.submit desk now line).2.1 = (desk.evaluate now line).1 := by
  unfold submit
  by_cases blank : Text.trim line = ""
  · simp [blank, desk.evaluate_of_blank now blank]
  · by_cases clears : Text.trim line = "clear"
    · simp [clears, desk.evaluate_of_clear now clears]
    · simp [blank, clears]

end Session

namespace Console

theorem printEntries_answer (line : String) (answer : Except Shell.Failure String) :
    printEntries (.prompt line :: Session.answerEntries answer) = String.join ((Desk.shown answer).map printed) := by
  cases answer with
  | error failure => rfl
  | ok text => by_cases empty : text = "" <;> simp [printEntries, Session.answerEntries, Desk.shown, Entry.isPrompt,
      Entry.render, empty]

/-- A line prints what the desk answers to it. -/
theorem feed_prints (c : Console) (now : UInt64) (line : String) :
    (c.feed now line).2 = String.join ((Desk.shown (c.desk.evaluate now line).2).map printed) := by
  unfold feed
  by_cases blank : Text.trim line = ""
  · simp [Session.submit, blank, c.desk.evaluate_of_blank now blank, Desk.shown, printEntries]
  · by_cases clears : Text.trim line = "clear"
    · simp [Session.submit, clears, c.desk.evaluate_of_clear now clears, Desk.shown, printEntries]
    · simp only [c.session.submit_entries c.desk now blank clears]
      exact printEntries_answer line _

theorem feed_desk (c : Console) (now : UInt64) (line : String) :
    (c.desk.evaluate now line).1.SameButQueue (c.feed now line).1.desk := by
  simp only [feed, Session.submit_desk]
  exact (Desk.SameButQueue.refl _).drain .discarding now

/-- The lines of an input, if all of them are text. -/
def texts? (input : List UInt8) : Option (List String) :=
  (inputLines input).mapM fun line => String.fromUTF8? ⟨line.toArray⟩

/-- The input that gives lines one after another, each ended by a line feed. -/
def typed (lines : List String) : List UInt8 := lines.flatMap fun line => line.toUTF8.data.toList ++ [10]

theorem data_toUTF8 (s : String) : s.toUTF8.data.toList = s.toList.flatMap String.utf8EncodeChar := by
  have bytes (cs : List Char) : (String.ofList cs).toUTF8.data.toList = cs.flatMap String.utf8EncodeChar := by
    rw [String.toUTF8_eq_toByteArray, String.toByteArray_ofList, List.utf8Encode, List.data_toByteArray]
  rw [← bytes, String.ofList_toList]

theorem fromUTF8?_data_toUTF8 (s : String) : String.fromUTF8? ⟨s.toUTF8.data.toList.toArray⟩ = some s := by
  rw [Array.toArray_toList]
  unfold String.fromUTF8?
  rw [String.toUTF8_eq_toByteArray, dif_pos s.isValidUTF8]
  rfl

/-- A byte below 128 stands only for the character with its number. -/
theorem toNat_of_mem_utf8EncodeChar {c : Char} {b : UInt8} (small : b.toNat < 128)
    (member : b ∈ String.utf8EncodeChar c) : c.toNat = b.toNat := by
  have wide {n : Nat} (high : 128 ≤ n % 256) (same : b = UInt8.ofNat n) : c.toNat = b.toNat := by
    rw [same, UInt8.toNat_ofNat'] at small
    omega
  simp only [String.utf8EncodeChar] at member
  split at member
  · rename_i single
    rw [List.mem_singleton.mp member, UInt8.toNat_ofNat']
    exact (Nat.mod_eq_of_lt (Nat.lt_of_le_of_lt single (by decide))).symm
  · split at member
    · simp only [List.mem_cons, List.not_mem_nil, or_false] at member
      rcases member with same | same <;> exact wide (by omega) same
    · split at member <;> simp only [List.mem_cons, List.not_mem_nil, or_false] at member
      · rcases member with same | same | same <;> exact wide (by omega) same
      · rcases member with same | same | same | same <;> exact wide (by omega) same

theorem lineFeed_not_mem {line : String} (whole : '\n' ∉ line.toList) : 10 ∉ line.toUTF8.data.toList := by
  rw [data_toUTF8, List.mem_flatMap]
  rintro ⟨c, member, byte⟩
  have feed : c = '\n' := Char.toNat_inj.mp (toNat_of_mem_utf8EncodeChar (by decide) byte)
  exact whole (feed ▸ member)

theorem getLast?_ne_return {line : String} (plain : line.toList.getLast? ≠ some '\r') :
    line.toUTF8.data.toList.getLast? ≠ some 13 := by
  rw [data_toUTF8]
  rcases List.eq_nil_or_concat line.toList with nothing | ⟨front, c, split⟩
  · simp [nothing]
  · intro last
    rw [split, List.concat_eq_append, List.flatMap_append, List.flatMap_singleton,
      List.getLast?_append_of_ne_nil _ String.utf8EncodeChar_ne_nil] at last
    have back : c = '\r' :=
      Char.toNat_inj.mp (toNat_of_mem_utf8EncodeChar (by decide) (List.mem_of_getLast? last))
    exact plain (by simp [split, back])

theorem parts_typed {lines : List String} (whole : ∀ line ∈ lines, '\n' ∉ line.toList) :
    Text.parts (fun b => b == 10) (typed lines) = (lines.map fun line => line.toUTF8.data.toList) ++ [[]] := by
  induction lines with
  | nil => rfl
  | cons line rest ih =>
    have others := ih fun other member => whole other (by simp [member])
    have plain : ∀ b ∈ line.toUTF8.data.toList, (b == 10) = false := by
      intro b member
      have unlike : b ≠ 10 := fun same => lineFeed_not_mem (whole line (by simp)) (same ▸ member)
      simpa using unlike
    have feed : Text.parts (fun b : UInt8 => b == 10) (10 :: typed rest) = [] :: Text.parts (· == 10) (typed rest) :=
      Text.parts_cons_of_separates rfl (typed rest)
    have ended := Text.parts_append plain feed
    rw [others, List.append_nil] at ended
    simpa [typed] using ended

/-- Lines that are typed are the lines that are read. -/
theorem texts?_typed {lines : List String}
    (whole : ∀ line ∈ lines, '\n' ∉ line.toList ∧ line.toList.getLast? ≠ some '\r') :
    texts? (typed lines) = some lines := by
  have read : inputLines (typed lines) = lines.map fun line => line.toUTF8.data.toList := by
    have kept : ∀ line ∈ lines, (if line.toUTF8.data.toList.getLast? = some 13 then line.toUTF8.data.toList.dropLast
        else line.toUTF8.data.toList) = line.toUTF8.data.toList := by
      intro line member
      rw [if_neg (getLast?_ne_return (whole line member).2)]
    unfold inputLines
    rw [parts_typed fun line member => (whole line member).1]
    simp only [List.getLast?_append, List.getLast?_singleton, List.dropLast_concat, List.map_map, Option.some_or,
      List.append_nil]
    exact List.map_congr_left kept
  rw [texts?, read]
  clear whole read
  induction lines with
  | nil => rfl
  | cons line rest ih =>
    rw [List.map_cons, List.mapM_cons, fromUTF8?_data_toUTF8, ih]
    rfl

/-- A console prints for lines what a desk shows for them that differs from its own at most in what waits. -/
theorem feedAll_prints (clock : Nat → UInt64) {n : Nat} {c : Console} {desk : Desk} (same : desk.SameButQueue c.desk)
    {input : List (List UInt8)} {lines : List String}
    (given : (input.mapM fun line => String.fromUTF8? ⟨line.toArray⟩) = some lines) :
    (feedAll clock n c input).2 = { stdout := String.join ((desk.replies clock n lines).map printed), code := 0 } := by
  induction input generalizing n c desk lines with
  | nil =>
    obtain rfl : [] = lines := Option.some.inj given
    rfl
  | cons line rest ih =>
    simp only [List.mapM_cons, Option.bind_eq_bind, Option.bind_eq_some_iff, Option.pure_def, Option.some.injEq] at given
    obtain ⟨text, decoded, texts, others, rfl⟩ := given
    obtain ⟨answer, next⟩ := same.evaluate (clock n) text
    have left := ih (n := n + 1) (next.trans (c.feed_desk (clock n) text)) others
    simp only [feedAll, decoded, left, c.feed_prints, answer, Desk.replies, List.map_append, String.join_append]

/-- What a run on lines of text prints is the two lines of the banner and then what the desk with which it begins
    shows for the lines, carried out one after another, each with one line end after it. Any texts without line ends
    are the lines of an input. -/
theorem runAt_replies (config : Config Float) (begun : UInt64) (clock : Nat → UInt64) (lines : List String) :
    let booted := ((Desk.start config (.seeded begun)).openWindow begun "terminal" none).1
    let greeting := "FluxoOS Terminal v1.0.0\nType 'help' for available commands.\n"
    let shown := (booted.replies clock 0 lines).map fun reply => reply ++ "\n"
    (∀ input, texts? input = some lines →
      runAt (.ok config) begun clock input = { stdout := greeting ++ String.join shown, code := 0 }) ∧
    ((∀ line ∈ lines, '\n' ∉ line.toList ∧ line.toList.getLast? ≠ some '\r') → texts? (typed lines) = some lines) := by
  intro booted greeting shown
  refine ⟨?_, texts?_typed⟩
  intro input given
  have same : booted.SameButQueue (start config begun).1.desk := by
    simp only [start]
    exact (Desk.SameButQueue.refl booted).drain .discarding begun
  have greets : (start config begun).2 = greeting := rfl
  simp only [runAt, feedAll_prints clock same given, greets]
  rfl

/-- After more lines than a transcript holds, and a clock that goes back, the answers still come one by one. -/
theorem runAt_replies_full :
    let lines := ["mkdir a", " clear", " "] ++ List.replicate 110 "mkdir a" ++ ["touch b"]
    let shown := ["FluxoOS Terminal v1.0.0\n", "Type 'help' for available commands.\n", "Created folder: a\n"] ++
      List.replicate 110 "Error: /a: File exists\n" ++ ["Created file: b\n"]
    runAt (.ok Config.standard) 7 (fun n => 500 - n.toUInt64) (typed lines) =
      { stdout := String.join shown, code := 0 } := by
  intro lines shown
  have plain : ∀ line ∈ lines, '\n' ∉ line.toList ∧ line.toList.getLast? ≠ some '\r' := by decide +kernel
  obtain ⟨prints, reads⟩ := runAt_replies Config.standard 7 (fun n => 500 - n.toUInt64) lines
  rw [prints (typed lines) (reads plain)]
  have replies : ((Desk.start Config.standard (.seeded 7)).openWindow 7 "terminal" none).1.replies
      (fun n => 500 - n.toUInt64) 0 lines =
        ["Created folder: a"] ++ List.replicate 110 "Error: /a: File exists" ++ ["Created file: b"] := by decide +kernel
  rw [replies]
  decide +kernel

end Console

end Terminal

end DesktopShell
