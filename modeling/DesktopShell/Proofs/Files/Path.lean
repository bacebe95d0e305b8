import DesktopShell.Files.Tree
import DesktopShell.Proofs.Text
import Mathlib.Data.List.Basic
import Mathlib.Data.List.Induction

/-!
# Stored paths

The path made from names (`ofNames`) spells each of them after a slash. It gives
names of a path back exactly if the last of them does not end in a blank
(`names_ofNames_iff`); plain names it always gives back, so it is its own stored
form. A name with a separator in it is not plain, and no path leads to it: what a
path is normalized to never has a backslash in it. Other names can always be told
from the path that is made from them (`ofNames_inj`). Whether a path is within a
place shows in its characters (`isWithin_child_iff`).

A path is trimmed as a whole, before the parts that it does not lead through are left
out. What then comes to stand at its end is cut when the path is normalized again, so
that a normalized path need not be its own stored form (`normalize_normalize_iff`).
-/
namespace DesktopShell.Path

/-- The stored path of the place that names lead to from the root. -/
def ofNames (names : List String) : String := names.foldl child root

theorem normalize_eq (path : String) : normalize path = ofNames (names path) := rfl

theorem ofNames_append_singleton (names : List String) (name : String) :
    ofNames (names ++ [name]) = child (ofNames names) name := by
  simp [ofNames]

/-- The characters of names that each follow a slash. -/
def spelled (names : List String) : List Char := names.flatMap fun name => '/' :: name.toList

theorem toList_child {parent : String} (inside : parent ≠ root) (name : String) :
    (child parent name).toList = parent.toList ++ '/' :: name.toList := by
  simp [child, inside]

theorem toList_child_root (name : String) : (child root name).toList = '/' :: name.toList := by
  simp [child, root]

theorem child_ne_root {name : String} (named : name ≠ "") (parent : String) : child parent name ≠ root := by
  intro same
  have chars := congrArg String.toList same
  have nonempty : name.toList ≠ [] := by simpa using named
  by_cases atRoot : parent = root
  · rw [atRoot, toList_child_root] at chars
    simp [root, nonempty] at chars
  · have length := congrArg List.length chars
    rw [toList_child atRoot, List.length_append, List.length_cons] at length
    have positive := List.length_pos_iff.mpr nonempty
    have one : root.toList.length = 1 := by decide
    omega

theorem length_lt_child {name : String} (named : name ≠ "") (parent : String) :
    parent.toList.length < (child parent name).toList.length := by
  have positive : 0 < name.toList.length := List.length_pos_iff.mpr (by simpa using named)
  by_cases atRoot : parent = root
  · have one : root.toList.length = 1 := by decide
    rw [atRoot, toList_child_root, List.length_cons]
    omega
  · rw [toList_child atRoot, List.length_append, List.length_cons]
    omega

theorem child_ne_empty {name : String} (named : name ≠ "") (parent : String) : child parent name ≠ "" := by
  intro empty
  have longer := length_lt_child named parent
  rw [empty] at longer
  exact absurd longer (by simp)

/-- Two lists with the same last element of a kind are alike on both sides of it. -/
private theorem append_cons_inj {α : Type} {last : α} {front front' back back' : List α} (apart : last ∉ back)
    (apart' : last ∉ back') (same : front ++ last :: back = front' ++ last :: back') : front = front' ∧ back = back' := by
  rcases List.append_eq_append_iff.mp same with ⟨between, split, rest⟩ | ⟨between, split, rest⟩
  · cases between with
    | nil => exact ⟨by simpa using split.symm, (List.cons.inj rest).2⟩
    | cons first between =>
      have inside : back = between ++ last :: back' := (List.cons.inj rest).2
      exact absurd (by simp [inside]) apart
  · cases between with
    | nil => exact ⟨by simpa using split, (List.cons.inj rest).2.symm⟩
    | cons first between =>
      have inside : back' = between ++ last :: back := (List.cons.inj rest).2
      exact absurd (by simp [inside]) apart'

/-- The path of a child tells the name of the child and the path of its folder. -/
theorem child_inj {parent parent' name name' : String} (some : parent ≠ "") (some' : parent' ≠ "")
    (noSlash : '/' ∉ name.toList) (noSlash' : '/' ∉ name'.toList) (same : child parent name = child parent' name') :
    parent = parent' ∧ name = name' := by
  have chars := congrArg String.toList same
  by_cases atRoot : parent = root
  · by_cases atRoot' : parent' = root
    · rw [atRoot, atRoot', toList_child_root, toList_child_root] at chars
      exact ⟨atRoot.trans atRoot'.symm, String.toList_inj.mp (List.cons.inj chars).2⟩
    · rw [atRoot, toList_child_root, toList_child atRoot', ← List.nil_append ('/' :: name.toList)] at chars
      obtain ⟨none, _⟩ := append_cons_inj noSlash noSlash' chars
      exact absurd (by simpa using none.symm) some'
  · by_cases atRoot' : parent' = root
    · rw [atRoot', toList_child_root, toList_child atRoot, ← List.nil_append ('/' :: name'.toList)] at chars
      obtain ⟨none, _⟩ := append_cons_inj noSlash noSlash' chars
      exact absurd (by simpa using none) some
    · rw [toList_child atRoot, toList_child atRoot'] at chars
      obtain ⟨front, back⟩ := append_cons_inj noSlash noSlash' chars
      exact ⟨String.toList_inj.mp front, String.toList_inj.mp back⟩

private theorem toList_foldl_child {names : List String} (named : ∀ name ∈ names, name ≠ "") {path : String}
    (inside : path ≠ root) : (names.foldl child path).toList = path.toList ++ spelled names := by
  induction names generalizing path with
  | nil => simp [spelled]
  | cons name rest ih =>
    have first := named name (by simp)
    have deeper := ih (fun other member => named other (by simp [member])) (child_ne_root first path)
    rw [List.foldl_cons, deeper, toList_child inside]
    simp [spelled]

theorem toList_ofNames {names : List String} (named : ∀ name ∈ names, name ≠ "") (some : names ≠ []) :
    (ofNames names).toList = spelled names := by
  cases names with
  | nil => exact absurd rfl some
  | cons name rest =>
    have first := named name (by simp)
    rw [ofNames, List.foldl_cons,
      toList_foldl_child (fun other member => named other (by simp [member])) (child_ne_root first root),
      toList_child_root]
    simp [spelled]

/-- The characters of a stored path are slashes and the characters of its names. -/
theorem mem_ofNames {names : List String} {c : Char} (member : c ∈ (ofNames names).toList) :
    c = '/' ∨ ∃ name ∈ names, c ∈ name.toList := by
  induction names using List.reverseRecOn with
  | nil => exact .inl (by simpa [ofNames, root] using member)
  | append_singleton front name ih =>
    rw [ofNames_append_singleton] at member
    have split : c ∈ (ofNames front).toList ∨ c ∈ '/' :: name.toList := by
      by_cases atRoot : ofNames front = root
      · rw [atRoot, toList_child_root] at member
        exact .inr member
      · rwa [toList_child atRoot, List.mem_append] at member
    rcases split with earlier | here
    · rcases ih earlier with slash | ⟨other, listed, inside⟩
      · exact .inl slash
      · exact .inr ⟨other, by simp [listed], inside⟩
    · rcases List.mem_cons.mp here with slash | inside
      · exact .inl slash
      · exact .inr ⟨name, by simp, inside⟩

theorem mem_ofNames_of_mem {names : List String} (named : ∀ name ∈ names, name ≠ "") {name : String}
    (listed : name ∈ names) {c : Char} (member : c ∈ name.toList) : c ∈ (ofNames names).toList := by
  rw [toList_ofNames named (List.ne_nil_of_mem listed)]
  exact List.mem_flatMap.mpr ⟨name, listed, List.mem_cons_of_mem _ member⟩

theorem ofNames_ne_root {names : List String} (named : ∀ name ∈ names, name ≠ "") (some : names ≠ []) :
    ofNames names ≠ root := by
  induction names using List.reverseRecOn with
  | nil => exact absurd rfl some
  | append_singleton front name _ =>
    rw [ofNames_append_singleton]
    exact child_ne_root (named name (by simp)) (ofNames front)

/-- A path that is a given one or goes on from it after a slash. -/
def IsWithin (top path : String) : Prop := path = top ∨ top.toList ++ ['/'] <+: path.toList

instance instDecidableRelIsWithin : DecidableRel IsWithin := fun top path =>
  inferInstanceAs (Decidable (path = top ∨ top.toList ++ ['/'] <+: path.toList))

/-- A prefix ends before what has its last element nowhere. -/
private theorem prefix_of_prefix_append {α : Type} {front before after : List α} {last : α} (apart : last ∉ after)
    (leads : front ++ [last] <+: before ++ after) : front ++ [last] <+: before := by
  obtain ⟨rest, whole⟩ := leads
  rcases List.append_eq_append_iff.mp whole with ⟨between, split, -⟩ | ⟨between, split, split'⟩
  · exact ⟨between, split.symm⟩
  · rcases List.eq_nil_or_concat between with none | ⟨start, c, ends⟩
    · have whole : front ++ [last] = before := by rw [split, none, List.append_nil]
      exact whole ▸ List.prefix_refl before
    · rw [ends, List.concat_eq_append] at split split'
      rw [← List.append_assoc] at split
      obtain rfl : last = c := List.singleton_inj.mp (List.append_inj' split rfl).2
      exact absurd (by simp [split']) apart

/-- The root is not within a place below it. -/
theorem not_isWithin_root {top : String} (some : top ≠ "") (below : top ≠ root) : ¬ IsWithin top root := by
  rintro (same | leads)
  · exact below same.symm
  · have positive : 0 < top.toList.length := List.length_pos_iff.mpr (by simpa using some)
    have length := leads.length_le
    have one : root.toList.length = 1 := by decide
    rw [List.length_append, List.length_singleton, one] at length
    omega

/-- A child is within a place below the root exactly if it is this place or its folder is within it: a name that only
    begins like that of the place does not lead into it. -/
theorem isWithin_child_iff {top folder name : String} (noSlash : '/' ∉ name.toList) (some : top ≠ "")
    (below : top ≠ root) : IsWithin top (child folder name) ↔ child folder name = top ∨ IsWithin top folder := by
  have outside := not_isWithin_root some below
  have split (inside : folder ≠ root) : (child folder name).toList = (folder.toList ++ ['/']) ++ name.toList := by
    simp [toList_child inside]
  constructor
  · rintro (same | longer)
    · exact .inl same
    · by_cases atRoot : folder = root
      · rw [atRoot, toList_child_root] at longer
        have leads : top.toList ++ ['/'] <+: root.toList := prefix_of_prefix_append noSlash longer
        exact absurd (.inr leads) outside
      · rw [split atRoot] at longer
        rcases List.prefix_concat_iff.mp (prefix_of_prefix_append noSlash longer) with whole | deeper
        · exact .inr (.inl (String.toList_inj.mp (List.append_inj_left' whole rfl).symm))
        · exact .inr (.inr deeper)
  · rintro (same | same | deeper)
    · exact .inl same
    · refine .inr ?_
      rw [split (same ▸ below), same]
      exact List.prefix_append _ _
    · by_cases atRoot : folder = root
      · exact absurd (.inr (atRoot ▸ deeper)) outside
      · refine .inr ?_
        rw [split atRoot, List.append_assoc]
        exact deeper.trans (List.prefix_append _ _)

/-- What stands between two separators, if anything does. -/
def IsPart (name : String) : Prop := name ≠ "" ∧ ∀ c ∈ name.toList, isSeparator c = false

theorem parts_spelled {names : List String} (whole : ∀ name ∈ names, ∀ c ∈ name.toList, isSeparator c = false) :
    Text.parts isSeparator (spelled names) = [] :: names.map String.toList := by
  induction names with
  | nil => rfl
  | cons name rest ih =>
    have others := ih fun other member => whole other (by simp [member])
    have joined := Text.parts_append (whole name (by simp)) others
    rw [spelled, List.flatMap_cons, List.cons_append, Text.parts_cons_of_separates (by decide)]
    simpa [spelled] using joined

/-- Names without separators can be told from the path that is made from them. -/
theorem ofNames_inj {names others : List String} (part : ∀ name ∈ names, IsPart name)
    (part' : ∀ name ∈ others, IsPart name) (same : ofNames names = ofNames others) : names = others := by
  have named : ∀ name ∈ names, name ≠ "" := fun name listed => (part name listed).1
  have named' : ∀ name ∈ others, name ≠ "" := fun name listed => (part' name listed).1
  by_cases none : names = []
  · by_contra differ
    have some' : others ≠ [] := fun none' => differ (none.trans none'.symm)
    exact ofNames_ne_root named' some' (by rw [← same, none]; rfl)
  · by_cases none' : others = []
    · exact absurd (by rw [same, none']; rfl) (ofNames_ne_root named none)
    · have chars : spelled names = spelled others := by
        rw [← toList_ofNames named none, ← toList_ofNames named' none', same]
      have parts := congrArg (Text.parts isSeparator) chars
      rw [parts_spelled fun name listed => (part name listed).2,
        parts_spelled fun name listed => (part' name listed).2] at parts
      exact List.map_injective_iff.mpr (fun _ _ => String.toList_inj.mp) (List.cons.inj parts).2

/-- A part that a path goes through, and no dots that say where to go otherwise. -/
structure IsStep (name : String) : Prop where
  part : IsPart name
  notDot : name ≠ "."
  notDots : name ≠ ".."

theorem IsStep.enter_eq {name : String} (step : IsStep name) (back : List (List Char)) :
    enter back name.toList = name.toList :: back := by
  have nonempty : name.toList ≠ [] := by simpa using step.part.1
  have notDot : name.toList ≠ ['.'] := fun same => step.notDot (String.toList_inj.mp same)
  have notDots : name.toList ≠ ['.', '.'] := fun same => step.notDots (String.toList_inj.mp same)
  simp [enter, nonempty, notDot, notDots]

private theorem foldl_enter {names : List String} (steps : ∀ name ∈ names, IsStep name) (back : List (List Char)) :
    (names.map String.toList).foldl enter back = (names.map String.toList).reverse ++ back := by
  induction names generalizing back with
  | nil => rfl
  | cons name rest ih =>
    rw [List.map_cons, List.foldl_cons, (steps name (by simp)).enter_eq,
      ih fun other member => steps other (by simp [member])]
    simp

/-- Blanks at the end of the last name are cut off before the path is gone through. -/
theorem trimmed_spelled (front : List String) (last : String) :
    Text.trimmed (spelled (front ++ [last])) = spelled (front ++ [String.ofList (Text.trimEnd last.toList)]) := by
  have chars (name : String) : spelled (front ++ [name]) = spelled front ++ '/' :: name.toList := by simp [spelled]
  have start : Text.trimStart (spelled front ++ '/' :: last.toList) = spelled front ++ '/' :: last.toList := by
    cases front with
    | nil => rfl
    | cons name rest => rfl
  rw [chars, chars, Text.trimmed, start, Text.trimEnd_append_cons (by decide), String.toList_ofList]

/-- From a path that is made from names, all but the last are read as they are, and then what is left of the last. -/
theorem names_ofNames_append_singleton {front : List String} {last : String}
    (steps : ∀ name ∈ front ++ [last], IsStep name) :
    Path.names (ofNames (front ++ [last])) =
      (enter (front.map String.toList).reverse (Text.trimEnd last.toList)).reverse.map String.ofList := by
  have named : ∀ name ∈ front ++ [last], name ≠ "" := fun name listed => (steps name listed).part.1
  have whole : ∀ name ∈ front ++ [String.ofList (Text.trimEnd last.toList)],
      ∀ c ∈ name.toList, isSeparator c = false := by
    intro name listed c inside
    rcases List.mem_append.mp listed with before | cut
    · exact (steps name (by simp [before])).part.2 c inside
    · rw [List.mem_singleton.mp cut, String.toList_ofList] at inside
      exact (steps last (by simp)).part.2 c (Text.mem_of_mem_trimEnd inside)
  have start : enter [] [] = [] := rfl
  rw [Path.names, toList_ofNames named (by simp), segments, trimmed_spelled, parts_spelled whole, List.foldl_cons,
    List.map_append, List.foldl_append, start, foldl_enter fun name (listed : name ∈ front) => steps name (by simp [listed]),
    List.append_nil]
  simp

/-- The last of the names, if there is one, does not end in a blank. -/
def Settled (names : List String) : Prop :=
  ∀ name ∈ names.getLast?, ∀ c ∈ name.toList.getLast?, Text.isBlank c = false

/-- A path that is made from names has these names exactly if the last of them does not end in a blank. -/
theorem names_ofNames_iff {names : List String} (steps : ∀ name ∈ names, IsStep name) :
    Path.names (ofNames names) = names ↔ Settled names := by
  rcases List.eq_nil_or_concat names with rfl | ⟨front, last, rfl⟩
  · exact iff_of_true (by decide) (by simp [Settled])
  · have settled : Settled (front ++ [last]) ↔ Text.trimEnd last.toList = last.toList := by
      rw [Text.trimEnd_eq_self_iff, Settled]
      simp
    have whole (name : String) : (name.toList :: (front.map String.toList).reverse).reverse.map String.ofList =
        front ++ [name] := by simp
    rw [List.concat_eq_append] at steps ⊢
    rw [settled, names_ofNames_append_singleton steps]
    constructor
    · -- A last name that is lost, or taken for dots, leaves too few.
      intro same
      have count := congrArg List.length same
      unfold enter at same count
      split at same
      · rename_i lost
        simp [lost] at count
      · rename_i some
        split at same
        · rename_i dots
          simp [dots] at count
        · have kept := whole (String.ofList (Text.trimEnd last.toList))
          rw [String.toList_ofList] at kept
          rw [kept] at same
          have cut : String.ofList (Text.trimEnd last.toList) = last := by simpa using same
          rw [← String.toList_inj, String.toList_ofList] at cut
          exact cut
    · intro same
      rw [same, (steps last (by simp)).enter_eq, whole]

/-- A name that a node may have. -/
structure Proper (name : String) : Prop where
  trimmed : Text.trim name = name
  nonempty : name ≠ ""
  noSlash : '/' ∉ name.toList
  notDot : name ≠ "."
  notDots : name ≠ ".."

instance instDecidablePredProper : DecidablePred Proper := fun name =>
  decidable_of_iff
    (Text.trim name = name ∧ name ≠ "" ∧ '/' ∉ name.toList ∧ name ≠ "." ∧ name ≠ "..")
    ⟨fun ⟨trimmed, nonempty, noSlash, notDot, notDots⟩ => ⟨trimmed, nonempty, noSlash, notDot, notDots⟩,
      fun proper => ⟨proper.trimmed, proper.nonempty, proper.noSlash, proper.notDot, proper.notDots⟩⟩

/-- A name that stands for itself in a path. -/
structure Plain (name : String) : Prop extends Proper name where
  noBackslash : '\\' ∉ name.toList

theorem Plain.isSeparator_of_mem {name : String} (plain : Plain name) {c : Char} (member : c ∈ name.toList) :
    isSeparator c = false := by
  have noSlash : c ≠ '/' := fun same => plain.noSlash (same ▸ member)
  have noBackslash : c ≠ '\\' := fun same => plain.noBackslash (same ▸ member)
  simp [isSeparator, noSlash, noBackslash]

theorem Plain.isPart {name : String} (plain : Plain name) : IsPart name :=
  ⟨plain.nonempty, fun _ inside => plain.isSeparator_of_mem inside⟩

theorem Plain.isStep {name : String} (plain : Plain name) : IsStep name :=
  ⟨plain.isPart, plain.notDot, plain.notDots⟩

theorem settled_of_plain {names : List String} (plain : ∀ name ∈ names, Plain name) : Settled names :=
  fun name last => (Text.trim_eq_self_iff.mp (plain name (List.mem_of_mem_getLast? last)).trimmed).last

/-- A path that is made from plain names has these names. -/
theorem names_ofNames {names : List String} (plain : ∀ name ∈ names, Plain name) :
    Path.names (ofNames names) = names :=
  (names_ofNames_iff fun name listed => (plain name listed).isStep).mpr (settled_of_plain plain)

theorem normalize_ofNames {names : List String} (plain : ∀ name ∈ names, Plain name) :
    normalize (ofNames names) = ofNames names := by
  rw [normalize_eq, names_ofNames plain]

private theorem mem_foldl_enter {parts : List (List Char)} {back : List (List Char)} {segment : List Char}
    (member : segment ∈ parts.foldl enter back) :
    segment ∈ back ∨ segment ∈ parts ∧ segment ≠ [] ∧ segment ≠ ['.'] ∧ segment ≠ ['.', '.'] := by
  induction parts generalizing back with
  | nil => exact .inl member
  | cons part rest ih =>
    rcases ih member with entered | ⟨later, kept⟩
    · unfold enter at entered
      split at entered
      · exact .inl entered
      · rename_i some
        split at entered
        · exact .inl (List.mem_of_mem_tail entered)
        · rename_i notDots
          rcases List.mem_cons.mp entered with rfl | older
          · exact .inr ⟨by simp, (not_or.mp some).1, (not_or.mp some).2, notDots⟩
          · exact .inl older
    · exact .inr ⟨by simp [later], kept⟩

theorem isStep_of_mem_names {path name : String} (listed : name ∈ names path) : IsStep name := by
  obtain ⟨segment, entered, rfl⟩ := List.mem_map.mp listed
  rcases mem_foldl_enter (List.mem_reverse.mp entered) with nothing | ⟨part, some, notDot, notDots⟩
  · simp at nothing
  · refine ⟨⟨by simpa using some, fun c member => ?_⟩, ?_, ?_⟩
    · rw [String.toList_ofList] at member
      exact Text.separates_of_mem_parts part member
    · intro same
      exact notDot (by simpa using congrArg String.toList same)
    · intro same
      exact notDots (by simpa using congrArg String.toList same)

/-- The names of a path are parts of it. -/
theorem isPart_of_mem_names {path name : String} (listed : name ∈ names path) : IsPart name :=
  (isStep_of_mem_names listed).part

/-- The only separator in a normalized path is the slash. -/
theorem backslash_not_mem_normalize (path : String) : '\\' ∉ (normalize path).toList := by
  intro member
  rcases mem_ofNames member with slash | ⟨name, listed, inside⟩
  · exact absurd slash (by decide)
  · have plain := (isPart_of_mem_names listed).2 _ inside
    exact absurd plain (by decide)

theorem names_normalize_iff (path : String) : names (normalize path) = names path ↔ Settled (names path) := by
  rw [normalize_eq, names_ofNames_iff fun _ listed => isStep_of_mem_names listed]

/-- Normalizing a normalized path changes nothing, and it has the names of the path, exactly if the last name of the
    path does not end in a blank. -/
theorem normalize_normalize_iff (path : String) :
    (normalize (normalize path) = normalize path ↔ Settled (names path)) ∧
      (names (normalize path) = names path ↔ Settled (names path)) := by
  refine ⟨?_, names_normalize_iff path⟩
  rw [← names_normalize_iff]
  constructor
  · intro same
    rw [normalize_eq, normalize_eq path] at same
    exact ofNames_inj (fun _ listed => isPart_of_mem_names listed) (fun _ listed => isPart_of_mem_names listed) same
  · intro same
    rw [normalize_eq (normalize path), same, normalize_eq]

/-- The blank before the first slash comes to stand at the end when the dots take the rest back. -/
theorem normalize_normalize_dropped :
    normalize "a /x/.." = "/a " ∧ normalize (normalize "a /x/..") = "/a" ∧
      normalize (normalize "a /x/..") ≠ normalize "a /x/.." ∧
      names "a /x/.." = ["a "] ∧ names (normalize "a /x/..") = ["a"] := by
  decide +kernel

end DesktopShell.Path
