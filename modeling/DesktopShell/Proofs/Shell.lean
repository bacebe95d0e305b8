import DesktopShell.Proofs.Text
import DesktopShell.Shell
import Mathlib.Data.List.Basic
import Mathlib.Data.List.Induction
import Mathlib.Data.List.Nodup

/-!
# The grammar of command lines and the registry

A line asks for nothing just when it is blank (`Command.ofLine_eq_empty_iff`). The argument
of a command is what is left of the line after the command word, without blanks at its ends.
Which texts spell which commands is said by a grammar (`Spells`), without the order in
which a line is tried for them. A line asks for the command that its trimmed text spells,
and is a script just when it spells none (`Command.ofLine_grammar`), so that no trimmed
text spells two. What a command has got from its line, it gets again when it is asked
for with that.

A registry keeps the order of its commands apart from the commands themselves, and only a
registration keeps the two in step (`Registry.Records.register`). After any registrations,
repeated or not, every name is listed once, where it was registered first and as it was
registered last, and the help says so (`Registry.lists_registered`).
-/
namespace DesktopShell.Shell

/-- The name that a built-in command gives to what it makes. -/
def Builtin.newName? : Builtin → Option String
  | .mkdir name => some name
  | .touch name => some name
  | _ => none

theorem argument?_trimmed {word : String} {cs : List Char} {arg : String} (found : argument? word cs = some arg) :
    Text.trim arg = arg := by
  unfold argument? at found
  split at found
  · rename_i rest _
    split at found
    · cases found
    · obtain rfl := Option.some.inj found
      rw [Text.trim_eq_self_iff, String.toList_ofList]
      exact Text.unpadded_trimmed rest
  · cases found

theorem newName?_of_bare? {line : String} {command : Builtin} (found : bare? line = some command) :
    command.newName? = none := by
  unfold bare? at found
  split at found <;> cases found <;> rfl

/-- The shapes of a built-in command. -/
theorem builtin?_cases {cs : List Char} {command : Builtin} (found : builtin? cs = some command) :
    bare? (String.ofList cs) = some command ∨ (∃ path, listing? cs = some path ∧ command = .ls path) ∨
      (∃ path, argument? "cat" cs = some path ∧ command = .cat path) ∨
      (∃ name, argument? "mkdir" cs = some name ∧ command = .mkdir name) ∨
      ∃ name, argument? "touch" cs = some name ∧ command = .touch name := by
  simp only [builtin?, Option.or_eq_some_iff, Option.map_eq_some_iff] at found
  rcases found with bare | ⟨_, listing | ⟨_, display | ⟨_, folder | ⟨_, file⟩⟩⟩⟩
  · exact .inl bare
  · exact .inr (.inl (listing.imp fun _ given => ⟨given.1, given.2.symm⟩))
  · exact .inr (.inr (.inl (display.imp fun _ given => ⟨given.1, given.2.symm⟩)))
  · exact .inr (.inr (.inr (.inl (folder.imp fun _ given => ⟨given.1, given.2.symm⟩))))
  · exact .inr (.inr (.inr (.inr (file.imp fun _ given => ⟨given.1, given.2.symm⟩))))

namespace Command

theorem ofLine_eq_empty_iff {line : String} : ofLine line = .empty ↔ Text.trim line = "" := by
  have blank : Text.trim line = "" ↔ Text.trimmed line.toList = [] := by
    rw [Text.trim, ← String.toList_inj, String.toList_ofList, String.toList_empty]
  rw [blank]
  unfold ofLine
  split
  · rename_i none
    exact ⟨fun _ => none, fun _ => rfl⟩
  · rename_i cs some
    refine ⟨fun same => ?_, fun none => absurd none some⟩
    split at same <;> cases same

theorem builtin?_of_ofLine {line : String} {command : Builtin} (asked : ofLine line = .builtin command) :
    builtin? (Text.trimmed line.toList) = some command := by
  unfold ofLine at asked
  split at asked
  · cases asked
  · split at asked
    · rename_i found
      obtain rfl := Command.builtin.inj asked
      exact found
    · cases asked

/-- A line clears just when it is the word for it between blanks. -/
theorem ofLine_eq_clear_iff {line : String} : ofLine line = .builtin .clear ↔ Text.trim line = "clear" := by
  constructor
  · intro clears
    rcases builtin?_cases (builtin?_of_ofLine clears) with
      bare | ⟨_, _, other⟩ | ⟨_, _, other⟩ | ⟨_, _, other⟩ | ⟨_, _, other⟩
    · unfold bare? at bare
      split at bare <;> simp_all [Text.trim]
    · cases other
    · cases other
    · cases other
    · cases other
  · intro word
    have trimmed : Text.trimmed line.toList = "clear".toList := by
      rw [← word, Text.trim, String.toList_ofList]
    unfold ofLine
    rw [trimmed]
    rfl

/-- A name that a line gives has no blanks at its ends. -/
theorem trim_newName? {line name : String} {command : Builtin} (asked : ofLine line = .builtin command)
    (named : command.newName? = some name) : Text.trim name = name := by
  rcases builtin?_cases (builtin?_of_ofLine asked) with
    bare | ⟨path, _, rfl⟩ | ⟨path, _, rfl⟩ | ⟨arg, given, rfl⟩ | ⟨arg, given, rfl⟩
  · simp [newName?_of_bare? bare] at named
  · cases named
  · cases named
  · obtain rfl := Option.some.inj named
    exact argument?_trimmed given
  · obtain rfl := Option.some.inj named
    exact argument?_trimmed given

end Command

open Text (isBlank)

/-- What a command has got from its line. -/
def Builtin.operand? : Builtin → Option String
  | .ls path | .cat path => some path
  | .mkdir name | .touch name => some name
  | .help | .clear | .windows | .apps => none

/-- The trimmed texts of built-in commands. A word that takes a text is followed by one space. -/
inductive Spells : String → Builtin → Prop
  | help : Spells "help" .help
  | clear : Spells "clear" .clear
  | windows : Spells "windows" .windows
  | apps : Spells "apps" .apps
  | lsRoot : Spells "ls" (.ls "/")
  | ls {rest path : String} : Text.FirstWord rest.toList path.toList → Spells ("ls " ++ rest) (.ls path)
  | cat {rest path : String} : Text.trim rest = path → path ≠ "" → Spells ("cat " ++ rest) (.cat path)
  | mkdir {rest name : String} : Text.trim rest = name → name ≠ "" → Spells ("mkdir " ++ rest) (.mkdir name)
  | touch {rest name : String} : Text.trim rest = name → name ≠ "" → Spells ("touch " ++ rest) (.touch name)

theorem after?_eq_some_iff {word cs rest : List Char} : after? word cs = some rest ↔ cs = word ++ rest := by
  induction word generalizing cs with
  | nil => simp [after?, eq_comm]
  | cons w ws ih =>
    cases cs with
    | nil => simp [after?]
    | cons c cs =>
      by_cases same : w = c
      · simp [after?, same, ih]
      · simp [after?, same, Ne.symm same]

theorem argument?_eq_some_iff {word arg : String} {cs : List Char} :
    argument? word cs = some arg ↔
      ∃ rest : String, cs = (word ++ " " ++ rest).toList ∧ Text.trim rest ≠ "" ∧ arg = Text.trim rest := by
  have follows (rest : List Char) : after? (word.toList ++ [' ']) cs = some rest ↔
      cs = (word ++ " " ++ String.ofList rest).toList := by
    rw [after?_eq_some_iff]
    simp
  unfold argument?
  constructor
  · intro found
    split at found
    · rename_i rest behind
      refine ⟨String.ofList rest, (follows rest).mp behind, ?_⟩
      split at found
      · cases found
      · rename_i some
        obtain rfl := Option.some.inj found
        refine ⟨?_, by simp [Text.trim]⟩
        simpa [Text.trim] using some
    · cases found
  · rintro ⟨rest, rfl, some, rfl⟩
    rw [(follows rest.toList).mpr (by simp)]
    have trimmed : Text.trimmed rest.toList ≠ [] := by simpa [Text.trim] using some
    dsimp only
    split
    · rename_i none
      exact absurd none trimmed
    · rfl

/-- A word with its space is told apart before texts are compared. -/
private theorem argument?_spaced {word spaced rest : String} (space : spaced = word ++ " ")
    (some : Text.trim rest ≠ "") : argument? word (spaced ++ rest).toList = Text.trim rest :=
  argument?_eq_some_iff.mpr ⟨rest, by rw [space], some, rfl⟩

/-- A trimmed text that goes on after the word for a listing has a word there. -/
theorem listing?_eq_some_iff {cs : List Char} {path : String} (unpadded : Text.Unpadded cs) :
    listing? cs = some path ↔
      ∃ rest : String, cs = ("ls " ++ rest).toList ∧ Text.FirstWord rest.toList path.toList := by
  unfold listing?
  rw [Option.map_eq_some_iff]
  constructor
  · rintro ⟨rest, behind, found⟩
    rw [after?_eq_some_iff] at behind
    refine ⟨String.ofList rest, by simp [behind], ?_⟩
    split at found
    · rename_i word first
      rw [← found, String.toList_ofList, String.toList_ofList]
      exact Text.firstWord?_eq_some_iff.mp first
    · rename_i none
      -- The text would end in a blank, if in no other than the space after the word.
      have blank : (' ' :: rest).all isBlank = true := Text.firstWord?_eq_none_iff.mp none
      have whole : cs = ['l', 's'] ++ ' ' :: rest := behind
      have last : (' ' :: rest).getLast (by simp) ∈ cs.getLast? := by
        rw [whole, List.getLast?_append_of_ne_nil _ (by simp), List.getLast?_eq_some_getLast (by simp)]
        rfl
      have ends := unpadded.last _ last
      simp [List.all_eq_true.mp blank _ (List.getLast_mem _)] at ends
  · rintro ⟨rest, rfl, first⟩
    refine ⟨rest.toList, after?_eq_some_iff.mpr (by simp), ?_⟩
    rw [Text.firstWord?_eq_some_iff.mpr first]
    simp

theorem spells_of_builtin? {line : String} {command : Builtin} (unpadded : Text.Unpadded line.toList)
    (found : builtin? line.toList = some command) : Spells line command := by
  rcases builtin?_cases found with
    bare | ⟨path, listed, rfl⟩ | ⟨path, given, rfl⟩ | ⟨name, given, rfl⟩ | ⟨name, given, rfl⟩
  · rw [String.ofList_toList] at bare
    unfold bare? at bare
    split at bare <;> cases bare <;> constructor
  · obtain ⟨rest, same, first⟩ := (listing?_eq_some_iff unpadded).mp listed
    rw [String.toList_inj.mp same]
    exact .ls first
  · obtain ⟨rest, same, some, rfl⟩ := argument?_eq_some_iff.mp given
    rw [String.toList_inj.mp same]
    exact .cat rfl some
  · obtain ⟨rest, same, some, rfl⟩ := argument?_eq_some_iff.mp given
    rw [String.toList_inj.mp same]
    exact .mkdir rfl some
  · obtain ⟨rest, same, some, rfl⟩ := argument?_eq_some_iff.mp given
    rw [String.toList_inj.mp same]
    exact .touch rfl some

/-- A command without a text after it is a word without a space. -/
theorem bare?_of_space {line : String} (space : ' ' ∈ line.toList) : bare? line = none := by
  unfold bare?
  split
  all_goals first | rfl | exact absurd space (by decide)

theorem builtin?_of_spells {line : String} {command : Builtin} (unpadded : Text.Unpadded line.toList)
    (spells : Spells line command) : builtin? line.toList = some command := by
  cases spells with
  | help => decide
  | clear => decide
  | windows => decide
  | apps => decide
  | lsRoot => decide
  | @ls rest path first =>
    have bare : bare? ("ls " ++ rest) = none := bare?_of_space (by simp)
    rw [builtin?, String.ofList_toList, bare, (listing?_eq_some_iff unpadded).mpr ⟨rest, rfl, first⟩]
    rfl
  | @cat rest _ same some =>
    subst same
    have bare : bare? ("cat " ++ rest) = none := bare?_of_space (by simp)
    have listing : listing? ("cat " ++ rest).toList = none := by simp [listing?, after?]
    have display := argument?_spaced (show "cat " = "cat" ++ " " by decide) some
    rw [builtin?, String.ofList_toList, bare, listing, display]
    rfl
  | @mkdir rest _ same some =>
    subst same
    have bare : bare? ("mkdir " ++ rest) = none := bare?_of_space (by simp)
    have listing : listing? ("mkdir " ++ rest).toList = none := by simp [listing?, after?]
    have display : argument? "cat" ("mkdir " ++ rest).toList = none := by simp [argument?, after?]
    have folder := argument?_spaced (show "mkdir " = "mkdir" ++ " " by decide) some
    rw [builtin?, String.ofList_toList, bare, listing, display, folder]
    rfl
  | @touch rest _ same some =>
    subst same
    have bare : bare? ("touch " ++ rest) = none := bare?_of_space (by simp)
    have listing : listing? ("touch " ++ rest).toList = none := by simp [listing?, after?]
    have display : argument? "cat" ("touch " ++ rest).toList = none := by simp [argument?, after?]
    have folder : argument? "mkdir" ("touch " ++ rest).toList = none := by simp [argument?, after?]
    have file := argument?_spaced (show "touch " = "touch" ++ " " by decide) some
    rw [builtin?, String.ofList_toList, bare, listing, display, folder, file]
    rfl

/-- What a command has got is a trimmed text that is not empty, and spells the command once more behind its word. -/
theorem Spells.again {line operand : String} {command : Builtin} (spells : Spells line command)
    (got : command.operand? = some operand) :
    operand ≠ "" ∧ Text.trim operand = operand ∧ Spells (command.word ++ " " ++ operand) command := by
  have fixed {rest arg : String} (same : Text.trim rest = arg) : Text.trim arg = arg := same ▸ Text.trim_trim rest
  have whole {word : String} (solid : ∀ c ∈ word.toList, isBlank c = false) : Text.trim word = word :=
    Text.trim_eq_self_iff.mpr (Text.unpadded_of_solid solid)
  cases spells with
  | help | clear | windows | apps => cases got
  | lsRoot =>
    obtain rfl := Option.some.inj got
    have solid : ∀ c ∈ "/".toList, isBlank c = false := Text.solid_of_any (by decide)
    exact ⟨by decide, whole solid, .ls (Text.firstWord_self (by decide) solid)⟩
  | ls first =>
    obtain rfl := Option.some.inj got
    exact ⟨by simpa using first.nonempty, whole first.solid, .ls (Text.firstWord_self first.nonempty first.solid)⟩
  | cat same some =>
    obtain rfl := Option.some.inj got
    exact ⟨some, fixed same, .cat (fixed same) some⟩
  | mkdir same some =>
    obtain rfl := Option.some.inj got
    exact ⟨some, fixed same, .mkdir (fixed same) some⟩
  | touch same some =>
    obtain rfl := Option.some.inj got
    exact ⟨some, fixed same, .touch (fixed same) some⟩

/-- A command's word with a trimmed text behind it is trimmed. -/
theorem trim_word_append (command : Builtin) {operand : String} (some : operand ≠ "")
    (trimmed : Text.trim operand = operand) :
    Text.trim (command.word ++ " " ++ operand) = command.word ++ " " ++ operand := by
  have word : command.word.toList ≠ [] ∧ command.word.toList.any isBlank = false := by
    cases command <;> simp only [Builtin.word] <;> decide
  have operand : operand.toList ≠ [] := by simpa using some
  rw [Text.trim_eq_self_iff] at trimmed ⊢
  rw [String.toList_append, String.toList_append]
  exact (Text.unpadded_of_solid (Text.solid_of_any word.2)).around trimmed word.1 operand _

/-- The path of a listing has no blank in it. -/
theorem Spells.solid_path {line path : String} (spells : Spells line (.ls path)) :
    ∀ c ∈ path.toList, isBlank c = false := by
  cases spells with
  | lsRoot => exact Text.solid_of_any (by decide)
  | ls first => exact first.solid

namespace Command

theorem ofLine_eq_builtin_iff {line : String} {command : Builtin} :
    ofLine line = .builtin command ↔ Spells (Text.trim line) command := by
  have unpadded : Text.Unpadded (Text.trim line).toList := Text.trim_eq_self_iff.mp (Text.trim_trim line)
  have chars : (Text.trim line).toList = Text.trimmed line.toList := String.toList_ofList
  constructor
  · intro asked
    exact spells_of_builtin? unpadded (chars ▸ builtin?_of_ofLine asked)
  · intro spells
    have found := builtin?_of_spells unpadded spells
    rw [chars] at found
    unfold ofLine
    split
    · rename_i none
      rw [none] at found
      cases found
    · rw [found]

theorem eq_trim_of_script {line source : String} (asked : ofLine line = .script source) : source = Text.trim line := by
  unfold ofLine at asked
  split at asked
  · cases asked
  · split at asked
    · cases asked
    · exact (Command.script.inj asked).symm

theorem ofLine_eq_script_iff {line source : String} :
    ofLine line = .script source ↔
      source = Text.trim line ∧ source ≠ "" ∧ ∀ command, ¬ Spells source command := by
  constructor
  · intro asked
    have same := eq_trim_of_script asked
    refine ⟨same, ?_, ?_⟩
    · intro blank
      rw [ofLine_eq_empty_iff.mpr (same ▸ blank)] at asked
      cases asked
    · intro command spells
      rw [ofLine_eq_builtin_iff.mpr (same ▸ spells)] at asked
      cases asked
  · rintro ⟨rfl, spoken, spellsNone⟩
    cases asked : ofLine line with
    | empty => exact absurd (ofLine_eq_empty_iff.mp asked) spoken
    | builtin command => exact absurd (ofLine_eq_builtin_iff.mp asked) (spellsNone command)
    | script source => rw [eq_trim_of_script asked]

/-- A line is empty, a command or a script by its trimmed text alone: empty when that is, a command when it spells
    this one, and otherwise the text as a script. What a command has got from the line is not empty and trimmed, the
    path of a listing has no blanks at all, and asked for with it behind its word the command is the same again. -/
theorem ofLine_grammar (line : String) :
    (ofLine line = .empty ↔ Text.trim line = "") ∧
      (∀ command, ofLine line = .builtin command ↔ Spells (Text.trim line) command) ∧
      (∀ source, ofLine line = .script source ↔
        source = Text.trim line ∧ source ≠ "" ∧ ∀ command, ¬ Spells source command) ∧
      ∀ command operand, ofLine line = .builtin command → command.operand? = some operand →
        (operand ≠ "" ∧ Text.trim operand = operand) ∧
          (command = .ls operand → ∀ c ∈ operand.toList, isBlank c = false) ∧
          ofLine (command.word ++ " " ++ operand) = .builtin command := by
  refine ⟨ofLine_eq_empty_iff, fun _ => ofLine_eq_builtin_iff, fun _ => ofLine_eq_script_iff, ?_⟩
  intro command operand asked got
  have spells := ofLine_eq_builtin_iff.mp asked
  obtain ⟨some, trimmed, again⟩ := spells.again got
  refine ⟨⟨some, trimmed⟩, ?_, ?_⟩
  · rintro rfl
    exact spells.solid_path
  · rw [ofLine_eq_builtin_iff, trim_word_append command some trimmed]
    exact again

/-- A listing of a folder whose name is cut at a blank, and a folder whose name is cut only at its ends; a word
    with a tab behind it is a script. -/
theorem ofLine_grammar_padded :
    ofLine "  ls  My Files " = .builtin (.ls "My") ∧ ofLine "ls My" = .builtin (.ls "My") ∧
      ofLine " mkdir  My Files " = .builtin (.mkdir "My Files") ∧
      ofLine "mkdir My Files" = .builtin (.mkdir "My Files") ∧
      ofLine "mkdir\tFiles" = .script "mkdir\tFiles" := by
  have listed : ofLine "  ls  My Files " = .builtin (.ls "My") := by decide
  have made : ofLine " mkdir  My Files " = .builtin (.mkdir "My Files") := by decide
  obtain ⟨_, _, _, listing⟩ := ofLine_grammar "  ls  My Files "
  obtain ⟨_, _, _, folder⟩ := ofLine_grammar " mkdir  My Files "
  exact ⟨listed, (listing (.ls "My") "My" listed rfl).2.2, made, (folder (.mkdir "My Files") "My Files" made rfl).2.2,
    by decide⟩

end Command

end DesktopShell.Shell

namespace DesktopShell

theorem eraseDups_append_singleton (names : List String) (name : String) :
    (names ++ [name]).eraseDups = if name ∈ names then names.eraseDups else names.eraseDups ++ [name] := by
  have alone : [name].eraseDups = [name] := by simp [List.eraseDups_cons]
  rw [List.eraseDups_append]
  by_cases known : name ∈ names
  · simp [List.removeAll, known]
  · simp [List.removeAll, known, alone]

theorem nodup_eraseDups (names : List String) : names.eraseDups.Nodup := by
  induction names using List.reverseRecOn with
  | nil => simp
  | append_singleton before name ih =>
    rw [eraseDups_append_singleton]
    by_cases known : name ∈ before
    · rwa [if_pos known]
    · rw [if_neg known, ← List.concat_eq_append, List.nodup_concat, List.mem_eraseDups]
      exact ⟨known, ih⟩

/-- Every line but the first one follows a line feed. -/
theorem Text.unlines_cons (first : String) (others : List String) :
    unlines (first :: others) = first ++ String.join (others.map fun line => "\n" ++ line) := by
  unfold unlines
  induction others generalizing first with
  | nil => simp
  | cons second others ih =>
    rw [String.intercalate_cons_cons, ih, List.map_cons, String.join_cons]
    simp only [String.append_assoc]

namespace Shell

/-- What the help says after the commands. -/
def scriptSection : String :=
  "\n\nFluxo scripting:\n  local <name> = window(\"<id>\") - Bind a window to a variable\n" ++
  "  console.log:(<message>) - Print a message\n  <name>.move:(<x>, <y>) - Move window to position\n" ++
  "  <name>.resize:(<width>, <height>) - Resize window\n  <name>.close:() - Close window\n" ++
  "  <name>.focus:() - Focus window"

theorem join_scriptForms : String.join (("" :: "Fluxo scripting:" :: scriptForms.map fun form =>
    helpLine form.1 form.2).map fun line => "\n" ++ line) = scriptSection := by
  decide +kernel

namespace Registry

theorem helpText_eq (r : Registry) : r.helpText = "Available commands:" ++
    String.join (r.descriptors.map fun d => "\n  " ++ d.help.usage ++ " - " ++ d.help.summary) ++ scriptSection := by
  unfold helpText
  rw [List.cons_append, Text.unlines_cons, List.map_append, String.join_append, join_scriptForms, List.map_map,
    ← String.append_assoc]
  simp only [Function.comp_def, helpLine, ← String.append_assoc]
  rfl

/-- The order and the commands of a registry are those of registrations from nothing: the names in the order in which
    they came first, and under each name what came last. -/
structure Records (r : Registry) (given : List Descriptor) : Prop where
  order : r.order = (given.map (·.name)).eraseDups
  kept : ∀ name, r.descriptor? name = given.findRev? fun d => d.name = name

theorem name_of_descriptor? {r : Registry} {name : String} {d : Descriptor} (kept : r.descriptor? name = some d) :
    d.name = name := by
  simpa using List.find?_some kept

theorem descriptor?_of_mem {r : Registry} {d : Descriptor} (listed : d ∈ r.descriptors) :
    r.descriptor? d.name = some d := by
  obtain ⟨name, -, kept⟩ := List.mem_filterMap.mp listed
  rwa [name_of_descriptor? kept]

theorem descriptor?_register (r : Registry) (d : Descriptor) (name : String) :
    (r.register d).descriptor? name = if d.name = name then some d else r.descriptor? name :=
  find?_insertByKey d r.entries name

namespace Records
variable {r : Registry} {given : List Descriptor}

theorem empty : Records Registry.empty [] := ⟨rfl, fun _ => rfl⟩

theorem descriptor?_eq_none_iff (records : r.Records given) (name : String) :
    r.descriptor? name = none ↔ name ∉ given.map (·.name) := by
  rw [records.kept, List.findRev?_eq_find?_reverse]
  simp

theorem isSome_iff (records : r.Records given) (name : String) :
    (r.descriptor? name).isSome = true ↔ name ∈ given.map (·.name) := by
  rw [← not_iff_not, ← records.descriptor?_eq_none_iff]
  simp

theorem register (records : r.Records given) (d : Descriptor) : (r.register d).Records (given ++ [d]) := by
  refine ⟨?_, ?_⟩
  · rw [List.map_append, List.map_singleton, eraseDups_append_singleton, ← records.order]
    simp only [Registry.register, records.isSome_iff]
  · intro name
    rw [descriptor?_register, List.findRev?_eq_find?_reverse, List.reverse_concat, List.find?_cons]
    by_cases own : d.name = name
    · simp [own]
    · simp [own, records.kept, List.findRev?_eq_find?_reverse]

theorem registerAll (records : r.Records given) (calls : List Descriptor) :
    (calls.foldl Registry.register r).Records (given ++ calls) := by
  induction calls generalizing r given with
  | nil => simpa using records
  | cons d later ih => simpa using ih (records.register d)

theorem builtin : Records Registry.builtin builtins := empty.registerAll builtins

/-- No name of the order is without its command, so that none is left out of the listing. -/
theorem names_descriptors (records : r.Records given) : r.descriptors.map (·.name) = r.order := by
  have named : ∀ name ∈ r.order, (r.descriptor? name).map (·.name) = some name := by
    intro name member
    have known : name ∈ given.map (·.name) := by simpa [records.order] using member
    obtain ⟨d, kept⟩ := Option.isSome_iff_exists.mp ((records.isSome_iff name).mpr known)
    rw [kept, Option.map_some, name_of_descriptor? kept]
  rw [descriptors, List.map_filterMap, List.filterMap_congr named, List.filterMap_some]

theorem nodup_descriptors (records : r.Records given) : (r.descriptors.map (·.name)).Nodup := by
  rw [records.names_descriptors, records.order]
  exact nodup_eraseDups _

theorem descriptor?_eq_find? (records : r.Records given) (name : String) :
    r.descriptor? name = r.descriptors.find? fun d => d.name = name := by
  cases kept : r.descriptor? name with
  | none =>
    rw [eq_comm, List.find?_eq_none]
    intro d listed named
    have own : r.descriptor? name = some d := by simpa [of_decide_eq_true named] using descriptor?_of_mem listed
    cases kept.symm.trans own
  | some d =>
    have known : name ∈ r.order := by
      rw [records.order, List.mem_eraseDups, ← records.isSome_iff, kept, Option.isSome_some]
    have listed : d ∈ r.descriptors := List.mem_filterMap.mpr ⟨name, known, kept⟩
    rw [eq_comm, find?_eq_some_iff_key records.nodup_descriptors]
    exact ⟨listed, name_of_descriptor? kept⟩

end Records

/-- What a registry says after registrations. -/
structure Lists (r : Registry) (given : List Descriptor) : Prop where
  /-- Every name that was registered is listed, in the order of the first registrations. -/
  order : r.descriptors.map (·.name) = (given.map (·.name)).eraseDups
  /-- No name is listed twice. -/
  once : (r.descriptors.map (·.name)).Nodup
  /-- A command is listed as it was registered last. -/
  last : ∀ d ∈ r.descriptors, given.findRev? (fun other => other.name = d.name) = some d
  /-- Under a name there is the command that is listed with it. -/
  found : ∀ name, r.descriptor? name = r.descriptors.find? fun d => d.name = name
  /-- Under a name there is nothing just when it was never registered. -/
  unknown : ∀ name, r.descriptor? name = none ↔ name ∉ given.map (·.name)
  /-- The help has a line for each command that is listed, and says the same of scripts always. -/
  help : r.helpText = "Available commands:" ++
    String.join (r.descriptors.map fun d => "\n  " ++ d.help.usage ++ " - " ++ d.help.summary) ++ scriptSection

theorem Records.lists {r : Registry} {given : List Descriptor} (records : r.Records given) : r.Lists given where
  order := records.names_descriptors.trans records.order
  once := records.nodup_descriptors
  last d listed := by rw [← records.kept, descriptor?_of_mem listed]
  found := records.descriptor?_eq_find?
  unknown := records.descriptor?_eq_none_iff
  help := r.helpText_eq

/-- After any registrations, into an empty registry or into that of the built-in commands, every name is listed once,
    in the order of the first registrations and with the descriptor that was registered last; it is also what there is
    under the name. The help is about the commands that are listed, in their order, and then about scripts. -/
theorem lists_registered (calls : List Descriptor) :
    (calls.foldl register empty).Lists calls ∧ (calls.foldl register builtin).Lists (builtins ++ calls) :=
  ⟨(Records.empty.registerAll calls).lists, (Records.builtin.registerAll calls).lists⟩

example :
    let r := [describe "ls" "ls" "List" [], describe "date" "date" "Tell the time" []].foldl register builtin
    (r.descriptors.map fun d => (d.name, d.help.summary)).drop 4 =
      [("ls", "List"), ("cat", "Display file contents"), ("mkdir", "Create a folder"), ("touch", "Create a file"),
        ("date", "Tell the time")] := by
  decide +kernel

end Registry

end Shell

end DesktopShell
