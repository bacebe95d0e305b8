import DesktopShell.Proofs.Files.Arrangement

/-!
# Walking the tree and deleting from it

A walk starts at the root and goes from each folder to the child with the next name
(`Tree.Leads`). Looking up a path finds the node that the names of the path lead to,
and finds none exactly if a folder on the way has no child of the next name
(`Grown.byPath?_iff_leads`). This needs ids that tell the folders apart. Past the
last number there are none, and a walk can go astray (`Grown.byPath?_iff_leads_repeated`),
but what a look-up finds is still reached by walking.

A deletion takes the nodes whose way up leads over the deleted one, and no others. Their
paths tell which they are: those that are the path of the deleted node or go on from it
after a slash, again as long as ids tell the nodes apart. So a folder that is made, filled
and deleted leaves the nodes that were there before (`History.Grown.delete_subtree`).
-/
namespace DesktopShell.Files

namespace Tree

/-- Names lead from the root to a node, each to a child that has it of the node before. -/
inductive Leads (t : Tree) : List String → Node → Prop
  | root {n} : n ∈ t.nodes → n.id = rootId → Leads t [] n
  | child {names folder n} : Leads t names folder → n ∈ t.children folder.id → Leads t (names ++ [n.name]) n

/-- The walk along some names stops: a folder on the way has no child of the next name. -/
def Stops (t : Tree) (names : List String) : Prop :=
  ∃ front name rest folder, names = front ++ name :: rest ∧ t.Leads front folder ∧
    ∀ n ∈ t.children folder.id, n.name ≠ name

theorem mem_children {t : Tree} {id : String} {n : Node} :
    n ∈ t.children id ↔ n ∈ t.nodes ∧ n.parent = some id := by
  simp [children]

theorem leads_append_singleton_iff {t : Tree} {names : List String} {name : String} {n : Node} :
    t.Leads (names ++ [name]) n ↔ ∃ folder, t.Leads names folder ∧ n ∈ t.children folder.id ∧ n.name = name := by
  constructor
  · intro leads
    generalize whole : names ++ [name] = all at leads
    cases leads with
    | root => simp at whole
    | @child front folder _ before placed =>
      obtain ⟨rfl, same⟩ := List.append_inj' whole rfl
      exact ⟨folder, before, placed, (List.singleton_inj.mp same).symm⟩
  · rintro ⟨folder, before, placed, rfl⟩
    exact .child before placed

/-- A walk along names goes through a child for each of them. -/
theorem Leads.through {t : Tree} {front rest : List String} {name : String} {n : Node}
    (leads : t.Leads (front ++ name :: rest) n) :
    ∃ folder, t.Leads front folder ∧ ∃ m ∈ t.children folder.id, m.name = name := by
  induction rest using List.reverseRecOn generalizing n with
  | nil =>
    obtain ⟨folder, before, placed, named⟩ := leads_append_singleton_iff.mp leads
    exact ⟨folder, before, n, placed, named⟩
  | append_singleton middle last ih =>
    rw [← List.cons_append, ← List.append_assoc] at leads
    obtain ⟨folder, before, _, _⟩ := leads_append_singleton_iff.mp leads
    exact ih before

/-- Names lead to a node, or the walk along them stops. -/
theorem leads_or_stops {t : Tree} {top : Node} (member : top ∈ t.nodes) (isRoot : top.id = rootId)
    (names : List String) : (∃ n, t.Leads names n) ∨ t.Stops names := by
  induction names using List.reverseRecOn with
  | nil => exact .inl ⟨top, .root member isRoot⟩
  | append_singleton before last ih =>
    rcases ih with ⟨folder, leads⟩ | ⟨front, name, rest, folder, rfl, leads, none⟩
    · by_cases further : ∃ n ∈ t.children folder.id, n.name = last
      · obtain ⟨n, placed, named⟩ := further
        exact .inl ⟨n, leads_append_singleton_iff.mpr ⟨folder, leads, placed, named⟩⟩
      · refine .inr ⟨before, last, [], folder, rfl, leads, fun n placed named => further ⟨n, placed, named⟩⟩
    · exact .inr ⟨front, name, rest ++ [last], folder, by simp, leads, none⟩

end Tree

/-- A deletion leaves the nodes from which no way up leads to its top. -/
theorem Tree.mem_without {t : Tree} {id : String} {n : Node} :
    n ∈ (t.without id).nodes ↔ n ∈ t.nodes ∧ ¬ Reaches t.nodes id n.id := by
  simp [without, mem_withBelow_iff]

/-- A node is the root, or its path goes on from that of a node which has the id of its folder. -/
def Rooted (nodes : List Node) : Prop :=
  ∀ n ∈ nodes, n.id = rootId ∧ n.path = Path.root ∨
    ∃ folder ∈ nodes, n.parent = some folder.id ∧ n.path = Path.child folder.path n.name ∧ Path.Proper n.name

namespace Rooted
variable {nodes : List Node}

theorem root (now : UInt64) : Rooted [rootNode now] := by
  intro n member
  obtain rfl := List.mem_singleton.mp member
  exact .inl ⟨rfl, rfl⟩

theorem join {n : Node} (rooted : Rooted nodes) (joins : Joins nodes n) : Rooted (nodes ++ [n]) := by
  intro m member
  rcases List.mem_append.mp member with old | new
  · rcases rooted m old with top | ⟨folder, above, rest⟩
    · exact .inl top
    · exact .inr ⟨folder, List.mem_append_left _ above, rest⟩
  · obtain rfl := List.mem_singleton.mp new
    obtain ⟨folder, above, _, inside, path⟩ := joins.placed
    exact .inr ⟨folder, List.mem_append_left _ above, inside, path, joins.named⟩

theorem rewritten {t : Tree} (rooted : Rooted t.nodes) (now : UInt64) (id content : String) :
    Rooted (t.rewritten now id content).nodes := by
  -- A change of content leaves every node at its id and its path.
  have places : (t.rewritten now id content).nodes.map (fun n => (n.id, n.path)) =
      t.nodes.map fun n => (n.id, n.path) := by
    refine map_changeFirst _ (fun n => ?_) t.nodes
    have continues := Tree.continues_withContent now content n
    rw [continues.id, continues.path]
  intro n member
  obtain ⟨m, old, continues⟩ := Tree.exists_continues_of_mem_rewritten member
  rw [continues.id, continues.path, continues.parent, continues.name]
  rcases rooted m old with top | ⟨folder, above, inside, path, proper⟩
  · exact .inl top
  · have listed : (folder.id, folder.path) ∈ t.nodes.map fun n => (n.id, n.path) :=
      List.mem_map.mpr ⟨folder, above, rfl⟩
    rw [← places] at listed
    obtain ⟨later, member', same⟩ := List.mem_map.mp listed
    obtain ⟨named, placed⟩ := Prod.mk.inj same
    exact .inr ⟨later, member', by rw [named, inside], by rw [placed, path], proper⟩

theorem without {t : Tree} (rooted : Rooted t.nodes) (id : String) : Rooted (t.without id).nodes := by
  intro n member
  obtain ⟨old, kept⟩ := Tree.mem_without.mp member
  rcases rooted n old with top | ⟨folder, above, inside, rest⟩
  · exact .inl top
  · have stays : ¬ Tree.Reaches t.nodes id folder.id := fun reaches => kept (.inside reaches old inside)
    exact .inr ⟨folder, Tree.mem_without.mpr ⟨above, stays⟩, inside, rest⟩

theorem turn {h next : History} (rooted : Rooted h.tree.nodes) (turn : h.Turn next) : Rooted next.tree.nodes := by
  cases turn with
  | keep => exact rooted
  | join _ joins => exact rooted.join joins
  | rewrite now id content => exact rooted.rewritten now id content
  | drop _ => exact rooted.without _

/-- The names on the way to a node lead to it and make its path. -/
theorem leads {t : Tree} (rooted : Rooted t.nodes) {n : Node} (member : n ∈ t.nodes) :
    ∃ names, t.Leads names n ∧ (∀ name ∈ names, Path.Proper name) ∧ n.path = Path.ofNames names := by
  -- The path of a folder is shorter than those of the nodes in it, so the way up comes to an end.
  induction long : n.path.toList.length using Nat.strongRecOn generalizing n with
  | ind length ih =>
    rcases rooted n member with ⟨isRoot, path⟩ | ⟨folder, above, inside, path, proper⟩
    · exact ⟨[], .root member isRoot, by simp, path⟩
    · have shorter : folder.path.toList.length < length := by
        rw [← long, path]
        exact Path.length_lt_child proper.nonempty folder.path
      obtain ⟨names, before, propers, made⟩ := ih _ shorter above rfl
      refine ⟨names ++ [n.name], .child before (Tree.mem_children.mpr ⟨member, inside⟩), ?_, ?_⟩
      · intro name listed
        rcases List.mem_append.mp listed with earlier | last
        · exact propers name earlier
        · exact List.mem_singleton.mp last ▸ proper
      · rw [path, made, Path.ofNames_append_singleton]

/-- The names of a path that is looked up lead to the node that is found. -/
theorem leads_of_byPath? {t : Tree} (rooted : Rooted t.nodes) {path : String} {n : Node}
    (found : t.byPath? path = some n) : t.Leads (Path.names path) n := by
  obtain ⟨names, leads, propers, made⟩ := rooted.leads (List.mem_of_find?_eq_some found)
  have same : Path.ofNames names = Path.ofNames (Path.names path) := by
    rw [← made, ← Path.normalize_eq]
    simpa using List.find?_some found
  have parts : ∀ name ∈ names, Path.IsPart name := by
    intro name listed
    refine (Path.Plain.mk (propers name listed) fun inside => ?_).isPart
    have backslash := Path.mem_ofNames_of_mem (fun other listed => (propers other listed).nonempty) listed inside
    rw [same, ← Path.normalize_eq] at backslash
    exact Path.backslash_not_mem_normalize path backslash
  exact Path.ofNames_inj parts (fun name listed => Path.isPart_of_mem_names listed) same ▸ leads

end Rooted

/-- Where ids tell the nodes apart, a walk keeps to the path that its names make. -/
theorem Nested.path_of_leads {t : Tree} (nested : Nested t.nodes) (apart : (t.nodes.map (·.id)).Nodup)
    {names : List String} {n : Node} (leads : t.Leads names n) : n ∈ t.nodes ∧ n.path = Path.ofNames names := by
  induction leads with
  | root member isRoot =>
    obtain ⟨made, rest, begins, _⟩ := nested.root
    have first : rootNode made ∈ t.nodes := begins ▸ List.mem_cons_self
    rw [List.inj_on_of_nodup_map apart member first isRoot]
    exact ⟨first, rfl⟩
  | @child names folder n _ placed ih =>
    obtain ⟨member, inside⟩ := Tree.mem_children.mp placed
    obtain ⟨_, above, order, named, _, path⟩ := nested.placed n member folder.id inside
    have same : above = folder := List.inj_on_of_nodup_map apart (order.subset (by simp)) ih.1 named
    exact ⟨member, by rw [path, same, ih.2, Path.ofNames_append_singleton]⟩

namespace History

theorem Grown.rooted {h : History} (grown : h.Grown) : Rooted h.tree.nodes := by
  induction grown with
  | seeded now => exact (Tree.seeded_joinInTurn now).keeps Rooted.join (.root now)
  | empty now => exact .root now
  | step now request _ ih => exact ih.turn (step_turn _ now request)

/-- What a look-up finds is reached along the names of the path. As long as at most as many nodes were
    made as there are numbers for, a look-up finds the node that these names lead to, and finds none
    exactly if the walk along them stops. -/
theorem Grown.byPath?_iff_leads {h : History} (grown : h.Grown) (path : String) :
    (∀ n, h.tree.byPath? path = some n → h.tree.Leads (Path.names path) n) ∧
      (h.made ≤ Counter.top.toNat →
        (∀ n, h.tree.byPath? path = some n ↔ h.tree.Leads (Path.names path) n) ∧
          (h.tree.byPath? path = none ↔ h.tree.Stops (Path.names path))) := by
  have leads : ∀ n, h.tree.byPath? path = some n → h.tree.Leads (Path.names path) n :=
    fun n found => grown.rooted.leads_of_byPath? found
  refine ⟨leads, fun few => ?_⟩
  have nested := grown.nested few
  have apart := grown.nodesApart few
  have found_iff : ∀ n, h.tree.byPath? path = some n ↔ h.tree.Leads (Path.names path) n := fun n =>
    ⟨leads n, fun walked => grown.charted.byPath?_eq_some_iff.mpr (nested.path_of_leads apart walked)⟩
  refine ⟨found_iff, ?_⟩
  constructor
  · intro nothing
    obtain ⟨made, rest, begins, _⟩ := nested.root
    have first : rootNode made ∈ h.tree.nodes := begins ▸ List.mem_cons_self
    rcases Tree.leads_or_stops first rfl (Path.names path) with ⟨n, walked⟩ | stops
    · simp [(found_iff n).mpr walked] at nothing
    · exact stops
  · rintro ⟨front, name, rest, folder, split, before, none⟩
    refine Option.eq_none_iff_forall_ne_some.mpr fun n found => ?_
    obtain ⟨other, before', m, placed, named⟩ := (split ▸ leads n found).through
    have here := nested.path_of_leads apart before
    have here' := nested.path_of_leads apart before'
    have same : other = folder :=
      List.inj_on_of_nodup_map grown.charted.apart here'.1 here.1 (here'.2.trans here.2.symm)
    exact none m (same ▸ placed) named

/-- A file in a folder below another is found by a winding path and reached by the names that it comes
    to; without the folder between them, the walk stops and nothing is found. -/
theorem Grown.byPath?_iff_leads_winding :
    let h := ((start (.seeded 9)).step 5 (.createFolder "documents" " my notes ")).step 4
      (.createFile "node-1" "todo.txt" "first")
    let winding := " \\Documents/./Scripts//..\\my notes/todo.txt/ "
    h.made ≤ Counter.top.toNat ∧
      (∃ n, h.tree.byPath? winding = some n ∧ n.id = "node-2" ∧
        h.tree.Leads ["Documents", "my notes", "todo.txt"] n) ∧
      h.tree.byPath? "/Documents/todo.txt" = none ∧ h.tree.Stops ["Documents", "todo.txt"] := by
  intro h winding
  have grown : h.Grown := .step 4 _ (.step 5 _ (.seeded 9))
  have few : h.made ≤ Counter.top.toNat := by decide +kernel
  have found : ∃ n ∈ h.tree.nodes, h.tree.byPath? winding = some n ∧ n.id = "node-2" := by decide +kernel
  obtain ⟨n, _, found, numbered⟩ := found
  have nothing : h.tree.byPath? "/Documents/todo.txt" = none := by decide +kernel
  have names : Path.names winding = ["Documents", "my notes", "todo.txt"] := by decide +kernel
  have names' : Path.names "/Documents/todo.txt" = ["Documents", "todo.txt"] := by decide +kernel
  refine ⟨few, ⟨n, found, numbered, ?_⟩, nothing, ?_⟩
  · exact names ▸ (((grown.byPath?_iff_leads winding).2 few).1 n).mp found
  · exact names' ▸ ((grown.byPath?_iff_leads "/Documents/todo.txt").2 few).2.mp nothing

/-- When all numbers were given to nodes, the last one is given again. A file in the last folder then has the
    folder's id and is among its own children: a walk goes on where no path leads. -/
theorem Grown.byPath?_iff_leads_repeated : ∃ h : History, h.Grown ∧ h.made = 18446744073709551616 ∧
    h.tree.nodes.map (fun n => (n.id, n.path)) =
      [("root", "/"), ("node-18446744073709551615", "/x"), ("node-18446744073709551615", "/x/a")] ∧
    h.tree.byPath? "/x/a/a" = none ∧ (∃ n, h.tree.Leads (Path.names "/x/a/a") n) ∧
    ¬ h.tree.Stops (Path.names "/x/a/a") := by
  obtain ⟨before, grown, made, worn⟩ := exists_lastGiven
  let last := "node-18446744073709551615"
  let file := ((wornTree Counter.top).createFolder 0 none "x").1.createFile 0 last "a" ""
  let h := before.step 0 (.createFile last "a" "")
  have tree : h.tree = file.1 := by simp only [h, History.step, afterCreation_tree, worn, file]
  have count : h.made = 18446744073709551616 := by
    have accepted : file.2.isOk = true := by decide +kernel
    simp only [h, History.step, afterCreation_made, worn, made]
    rw [if_pos accepted]
  have names : Path.names "/x/a/a" = ["x", "a", "a"] := by decide +kernel
  refine ⟨h, .step 0 _ grown, count, ?_, ?_, ?_, ?_⟩
  · rw [tree]
    decide +kernel
  · rw [tree]
    decide +kernel
  · obtain ⟨top, placed, isRoot⟩ : ∃ n ∈ file.1.nodes, n.id = rootId := by decide +kernel
    obtain ⟨x, inRoot, named⟩ : ∃ n ∈ file.1.children rootId, n.id = last ∧ n.name = "x" := by decide +kernel
    obtain ⟨a, inLast, named'⟩ : ∃ n ∈ file.1.children last, n.id = last ∧ n.name = "a" := by decide +kernel
    have first : file.1.Leads ["x"] x := named.2 ▸ .child (.root placed isRoot) (isRoot ▸ inRoot)
    have second : file.1.Leads ["x", "a"] a := named'.2 ▸ .child first (named.1 ▸ inLast)
    rw [tree, names]
    exact ⟨a, named'.2 ▸ .child second (named'.1 ▸ inLast)⟩
  · -- On the way there are the root, with the child `x`, and nodes with the last id, with the child `a`.
    have fromRoot : ∃ n ∈ file.1.children rootId, n.name = "x" := by decide +kernel
    have fromLast : ∃ n ∈ file.1.children last, n.name = "a" := by decide +kernel
    have inside : ∀ n ∈ file.1.nodes, n.parent.isSome = true → n.id = last := by decide +kernel
    rw [tree, names]
    rintro ⟨front, name, rest, folder, split, leads, missing⟩
    cases leads with
    | root _ isRoot =>
      obtain ⟨n, placed, named⟩ := fromRoot
      obtain rfl : "x" = name := (List.cons.inj split).1
      exact missing n (isRoot ▸ placed) named
    | @child names above _ _ placed =>
      obtain ⟨member, parent⟩ := Tree.mem_children.mp placed
      obtain ⟨n, placed', named⟩ := fromLast
      have tail := congrArg List.tail split
      rw [List.tail_append_of_ne_nil (by simp)] at tail
      have later : name ∈ ["a", "a"] := by
        change ["a", "a"] = _ at tail
        rw [tail]
        simp
      obtain rfl : name = "a" := by simpa using later
      exact missing n (inside folder member (by simp [parent]) ▸ placed') named

end History

namespace Tree

theorem Reaches.mono {nodes more : List Node} {top id : String} (reaches : Reaches nodes top id)
    (kept : ∀ n ∈ nodes, n ∈ more) : Reaches more top id := by
  induction reaches with
  | here => exact .here
  | inside _ member placed ih => exact .inside ih (kept _ member) placed

theorem delete_of_mem {t : Tree} {d : Node} (member : d ∈ t.nodes) (other : d.id ≠ rootId) :
    t.delete d.id = (t.without d.id, .ok ((t.taken d.id).map (·.id))) := by
  have known : (t.nodes.any fun n => n.id = d.id) = true := List.any_eq_true.mpr ⟨d, member, by simp⟩
  unfold delete
  rw [if_neg other, known]
  rfl

end Tree

section
variable {nodes : List Node} {d : Node} (member : d ∈ nodes) (other : d.id ≠ rootId)
include member other

theorem Rooted.below_root (rooted : Rooted nodes) : d.path ≠ "" ∧ d.path ≠ Path.root := by
  rcases rooted d member with ⟨isRoot, _⟩ | ⟨folder, _, _, path, proper⟩
  · exact absurd isRoot other
  · rw [path]
    exact ⟨Path.child_ne_empty proper.nonempty folder.path, Path.child_ne_root proper.nonempty folder.path⟩

/-- The way up from a path within that of a node leads over the node, also where ids are given twice. -/
theorem Rooted.reaches_of_isWithin (rooted : Rooted nodes) (apart : (nodes.map (·.path)).Nodup) {n : Node}
    (listed : n ∈ nodes) (within : Path.IsWithin d.path n.path) : Tree.Reaches nodes d.id n.id := by
  obtain ⟨some, below⟩ := rooted.below_root member other
  -- Every step up makes the path shorter, and the way passes the node before it comes to the root.
  induction long : n.path.toList.length using Nat.strongRecOn generalizing n with
  | ind length ih =>
    rcases rooted n listed with ⟨_, path⟩ | ⟨folder, above, inside, path, proper⟩
    · exact absurd (path ▸ within) (Path.not_isWithin_root some below)
    · rcases (Path.isWithin_child_iff proper.noSlash some below).mp (path ▸ within) with same | deeper
      · rw [List.inj_on_of_nodup_map apart listed member (path.trans same)]
        exact .here
      · have shorter : folder.path.toList.length < length := by
          rw [← long, path]
          exact Path.length_lt_child proper.nonempty folder.path
        exact .inside (ih _ shorter above deeper rfl) listed inside

/-- Where ids tell the nodes apart, the way up leads over a node only from paths within its own. -/
theorem Nested.isWithin_of_reaches (nested : Nested nodes) (rooted : Rooted nodes) (apart : (nodes.map (·.id)).Nodup)
    {n : Node} (listed : n ∈ nodes) (reaches : Tree.Reaches nodes d.id n.id) : Path.IsWithin d.path n.path := by
  obtain ⟨some, below⟩ := rooted.below_root member other
  generalize numbered : n.id = id at reaches
  induction reaches generalizing n with
  | here =>
    rw [List.inj_on_of_nodup_map apart listed member numbered]
    exact .inl rfl
  | @inside folder m _ listed' placed ih =>
    obtain rfl : n = m := List.inj_on_of_nodup_map apart listed listed' numbered
    obtain ⟨proper, above, order, named, _, path⟩ := nested.placed n listed folder placed
    rw [path, Path.isWithin_child_iff proper.noSlash some below]
    exact .inr (ih (order.subset (by simp)) named)

end

/-- Nodes that came after others, one of them at the top and all of them below it. -/
structure Appended (old added : List Node) (top : Node) : Prop where
  listed : top ∈ added
  below : ∀ n ∈ added, Tree.Reaches (old ++ added) top.id n.id

namespace Appended
variable {old added : List Node} {top : Node}

theorem single (old : List Node) (top : Node) : Appended old [top] top := by
  refine ⟨List.mem_singleton_self top, ?_⟩
  intro n member
  obtain rfl := List.mem_singleton.mp member
  exact .here

theorem join (appended : Appended old added top) {n : Node} {folder : String}
    (reaches : Tree.Reaches (old ++ added) top.id folder) (inside : n.parent = some folder) :
    Appended old (added ++ [n]) top := by
  have kept : ∀ m ∈ old ++ added, m ∈ old ++ (added ++ [n]) := by
    intro m member
    rw [← List.append_assoc]
    exact List.mem_append_left _ member
  refine ⟨List.mem_append_left _ appended.listed, ?_⟩
  intro m member
  rcases List.mem_append.mp member with earlier | last
  · exact (appended.below m earlier).mono kept
  · obtain rfl := List.mem_singleton.mp last
    exact .inside (reaches.mono kept) (by simp) inside

/-- The ways up from the nodes before stay among them. -/
theorem not_reaches (appended : Appended old added top) (nested : Nested old)
    (apart : ((old ++ added).map (·.id)).Nodup) {n : Node} (member : n ∈ old) :
    ¬ Tree.Reaches (old ++ added) top.id n.id := by
  rw [List.map_append] at apart
  have disjoint := List.disjoint_of_nodup_append apart
  have stays {id : String} (reaches : Tree.Reaches (old ++ added) top.id id) : id ∈ added.map (·.id) := by
    induction reaches with
    | here => exact List.mem_map_of_mem appended.listed
    | @inside folder m _ listed placed ih =>
      rcases List.mem_append.mp listed with before | after
      · obtain ⟨_, above, order, named, _⟩ := nested.placed m before folder placed
        have there : folder ∈ old.map (·.id) := named ▸ List.mem_map_of_mem (order.subset (by simp))
        exact absurd ih (disjoint there)
      · exact List.mem_map_of_mem after
  exact fun reaches => disjoint (List.mem_map_of_mem member) (stays reaches)

/-- A deletion of the top leaves the nodes before. -/
theorem nodes_without {t : Tree} (appended : Appended old added top) (nested : Nested old)
    (whole : t.nodes = old ++ added) (apart : (t.nodes.map (·.id)).Nodup) : (t.without top.id).nodes = old := by
  let kept (n : Node) : Bool := !(Tree.withBelow [top.id] [top.id] t.nodes).contains n.id
  have kept_iff (n : Node) : kept n = true ↔ ¬ Tree.Reaches (old ++ added) top.id n.id := by
    simp [kept, Tree.mem_withBelow_iff, whole]
  have stay : old.filter kept = old :=
    List.filter_eq_self.mpr fun n member => (kept_iff n).mpr (appended.not_reaches nested (whole ▸ apart) member)
  have go : added.filter kept = [] :=
    List.filter_eq_nil_iff.mpr fun n member => fun stays => (kept_iff n).mp stays (appended.below n member)
  calc (t.without top.id).nodes = t.nodes.filter kept := rfl
    _ = old.filter kept ++ added.filter kept := by rw [whole, List.filter_append]
    _ = old := by rw [stay, go, List.append_nil]

end Appended

/-- The folder that a request wants to create in, where it names one. -/
def Request.folder? : Request → Option String
  | .createFile folder _ _ => folder
  | .createFolder folder _ => folder
  | _ => none

namespace History

/-- The histories after creations below an id, refused ones included. -/
inductive Filled (top : String) (h : History) : History → Prop
  | start : Filled top h h
  | create {g request folder} (now : UInt64) : Filled top h g → request.folder? = some folder →
      Tree.Reaches g.tree.nodes top folder → Filled top h (g.step now request)

private theorem afterCreation_inside (h : History) (now : UInt64) (folder name : String) (body : String → Body) :
    (h.afterCreation (h.tree.create now folder name body)).tree = h.tree ∨ ∃ n, n.parent = some folder ∧
      (h.afterCreation (h.tree.create now folder name body)).tree = h.tree.withNode n := by
  rcases created : h.tree.create now folder name body with ⟨next, fault | n⟩
  · obtain rfl := Tree.create_eq_self created
    exact .inl rfl
  · obtain ⟨parent, found, _, _, _, rfl, rfl⟩ := Tree.exists_of_create created
    have same : parent.id = folder := by simpa using List.find?_some found
    exact .inr ⟨_, congrArg some same, rfl⟩

/-- A creation adds nothing or a node in the folder that it names. -/
theorem step_inside (h : History) (now : UInt64) {request : Request} {folder : String}
    (inside : request.folder? = some folder) : (h.step now request).tree = h.tree ∨
      ∃ n, n.parent = some folder ∧ (h.step now request).tree = h.tree.withNode n := by
  cases request with
  | createFile parent name content =>
    obtain rfl : parent = some folder := inside
    simp only [step, Tree.createFile]
    exact h.afterCreation_inside now folder name _
  | createFolder parent name =>
    obtain rfl : parent = some folder := inside
    simp only [step, Tree.createFolder]
    exact h.afterCreation_inside now folder name _
  | update id content => cases inside
  | delete id => cases inside

namespace Filled
variable {h g : History} {top : String}

theorem grown (filled : h.Filled top g) (grown : h.Grown) : g.Grown := by
  induction filled with
  | start => exact grown
  | create now _ _ _ ih => exact .step now _ ih

theorem made_le (filled : h.Filled top g) : h.made ≤ g.made := by
  induction filled with
  | start => exact Nat.le_refl _
  | create now _ _ _ ih => exact Nat.le_trans ih (made_le_of_turn (step_turn _ now _))

theorem appended {old : List Node} {d : Node} (filled : h.Filled d.id g) (begins : h.tree.nodes = old ++ [d]) :
    ∃ added, g.tree.nodes = old ++ added ∧ Appended old added d := by
  induction filled with
  | start => exact ⟨[d], begins, .single old d⟩
  | @create g request folder now _ inside reaches ih =>
    obtain ⟨added, whole, appended⟩ := ih
    rcases g.step_inside now inside with same | ⟨n, placed, joined⟩
    · exact ⟨added, by rw [same, whole], appended⟩
    · refine ⟨added ++ [n], ?_, appended.join (whole ▸ reaches) placed⟩
      rw [joined, Tree.withNode, whole, List.append_assoc]

end Filled

/-- A folder that is made and filled, and deleted then, leaves the nodes that were there before. -/
theorem Grown.delete_filled {h last : History} (grown : h.Grown) {now : UInt64} {parent : Option String}
    {name : String} {t : Tree} {d : Node} (made : h.tree.createFolder now parent name = (t, .ok d))
    (filled : (h.step now (.createFolder parent name)).Filled d.id last) (few : last.made ≤ Counter.top.toNat) :
    ∃ next removed, last.tree.delete d.id = (next, .ok removed) ∧ next.nodes = h.tree.nodes := by
  have begun : h.step now (.createFolder parent name) = { h with tree := t, made := h.made + 1 } := by
    simp only [History.step, made, afterCreation]
  obtain ⟨_, _, rfl⟩ := Tree.create_eq_ok made
  have begins : (h.step now (.createFolder parent name)).tree.nodes = h.tree.nodes ++ [d] := by
    rw [begun]
    rfl
  obtain ⟨added, whole, appended⟩ := filled.appended begins
  have more : h.made ≤ last.made := Nat.le_trans (made_le_of_turn (step_turn h now _)) filled.made_le
  have nested := grown.nested (Nat.le_trans more few)
  have apart := (filled.grown (.step now _ grown)).nodesApart few
  have member : d ∈ last.tree.nodes := whole ▸ List.mem_append_right _ appended.listed
  have other : d.id ≠ rootId := by
    intro same
    obtain ⟨began, rest, begins, _⟩ := nested.root
    have first : rootNode began ∈ h.tree.nodes := begins ▸ List.mem_cons_self
    exact appended.not_reaches nested (whole ▸ apart) first (same ▸ .here)
  exact ⟨_, _, Tree.delete_of_mem member other, appended.nodes_without nested whole apart⟩

/-- Whatever was asked of a tree before, every node but the root can be deleted. The ids that the deletion gives, in
    the order of the tree, are those that are reached from the deleted node by going from folders to what is in them,
    and the other nodes stay as they are. All nodes go whose path is that of the deleted node or goes on from it after
    a slash, and no others do as long as at most as many nodes were made as there are numbers for. So then, a folder
    that is made, filled with any creations below it and deleted leaves just the nodes that were there before. -/
theorem Grown.delete_subtree {h : History} (grown : h.Grown) :
    (∀ d ∈ h.tree.nodes, d.id ≠ rootId → ∃ below : Node → Bool,
      (∀ n, below n = true ↔ Tree.Reaches h.tree.nodes d.id n.id) ∧
      h.tree.delete d.id = ({ h.tree with nodes := h.tree.nodes.filter fun n => !below n },
        .ok ((h.tree.nodes.filter below).map (·.id))) ∧
      (∀ n ∈ h.tree.nodes, Path.IsWithin d.path n.path → below n = true) ∧
      (h.made ≤ Counter.top.toNat → ∀ n ∈ h.tree.nodes, below n = true ↔ Path.IsWithin d.path n.path)) ∧
    ∀ now parent name t d, h.tree.createFolder now parent name = (t, .ok d) →
      ∀ last, (h.step now (.createFolder parent name)).Filled d.id last → last.made ≤ Counter.top.toNat →
        ∃ next removed, last.tree.delete d.id = (next, .ok removed) ∧ next.nodes = h.tree.nodes := by
  refine ⟨?_, fun now parent name t d made last filled few => grown.delete_filled made filled few⟩
  intro d member other
  let below (n : Node) : Bool := (Tree.withBelow [d.id] [d.id] h.tree.nodes).contains n.id
  have below_iff (n : Node) : below n = true ↔ Tree.Reaches h.tree.nodes d.id n.id := by
    simp [below, Tree.mem_withBelow_iff]
  have goes : ∀ n ∈ h.tree.nodes, Path.IsWithin d.path n.path → below n = true := fun n listed within =>
    (below_iff n).mpr (grown.rooted.reaches_of_isWithin member other grown.charted.apart listed within)
  refine ⟨below, below_iff, Tree.delete_of_mem member other, goes, ?_⟩
  intro few n listed
  refine ⟨fun gone => ?_, goes n listed⟩
  exact (grown.nested few).isWithin_of_reaches member other grown.rooted (grown.nodesApart few) listed
    ((below_iff n).mp gone)

/-- A folder whose name begins another one's is deleted with the file in it, and the other one stays with its own; a
    folder that is made in the other one, with a file and a second one of its name that is refused, leaves no trace. -/
theorem Grown.delete_subtree_siblings :
    let folders := ((start (.empty 9)).step 5 (.createFolder none "X")).step 6 (.createFolder none "XY")
    let h := (folders.step 6 (.createFile "node-1" "a" "")).step 7 (.createFile "node-2" "b" "")
    let made := h.step 8 (.createFolder "node-2" "X")
    let last := (made.step 8 (.createFile "node-5" "c" "")).step 9 (.createFolder "node-5" "c")
    (∃ next, h.tree.delete "node-1" = (next, .ok ["node-1", "node-3"]) ∧
      next.nodes.map (·.path) = ["/", "/XY", "/XY/b"]) ∧
    ∃ next removed, last.tree.delete "node-5" = (next, .ok removed) ∧ next.nodes = h.tree.nodes := by
  intro folders h made last
  have grown : h.Grown := .step 7 _ (.step 6 _ (.step 6 _ (.step 5 _ (.empty 9))))
  obtain ⟨deletes, refills⟩ := grown.delete_subtree
  refine ⟨?_, ?_⟩
  · obtain ⟨d, member, id, path⟩ : ∃ d ∈ h.tree.nodes, d.id = "node-1" ∧ d.path = "/X" := by decide +kernel
    obtain ⟨below, _, deleted, _, exactly⟩ := deletes d member (id ▸ by decide)
    have within : ∀ n ∈ h.tree.nodes, below n = decide (Path.IsWithin "/X" n.path) := by
      intro n listed
      rw [Bool.eq_iff_iff, exactly (by decide +kernel) n listed, path, decide_eq_true_iff]
    rw [id, List.filter_congr within, List.filter_congr fun n listed => congrArg not (within n listed)] at deleted
    have removed : (h.tree.nodes.filter fun n => decide (Path.IsWithin "/X" n.path)).map (·.id) =
        ["node-1", "node-3"] := by decide +kernel
    rw [removed] at deleted
    exact ⟨_, deleted, by decide +kernel⟩
  · have works : (h.tree.createFolder 8 "node-2" "X").2.isOk = true := by decide +kernel
    rcases created : h.tree.createFolder 8 "node-2" "X" with ⟨t, fault | d⟩
    · simp [created, Except.isOk, Except.toBool] at works
    · have id : d.id = "node-5" := (Tree.create_eq_ok created).1.trans (by decide +kernel)
      have filled : made.Filled d.id last :=
        .create 9 (.create 8 .start rfl (id ▸ .here)) rfl (id ▸ .here)
      exact id ▸ refills 8 _ _ t d created last filled (by decide +kernel)

/-- When all numbers were given to nodes, the last one is given again. A folder that is made then and deleted at
    once takes another one with it that has the same id, though it is not below it. -/
theorem Grown.delete_subtree_repeated : ∃ h : History, h.Grown ∧ h.made = 18446744073709551615 ∧
    let id := "node-18446744073709551615"
    let last := h.step 0 (.createFolder none "y")
    last.tree.nodes.map (fun n => (n.id, n.path)) = [("root", "/"), (id, "/x"), (id, "/y")] ∧
      ¬ Path.IsWithin "/y" "/x" ∧
      ∃ next, last.tree.delete id = (next, .ok [id, id]) ∧ next.nodes.map (·.path) = ["/"] ∧
        h.tree.nodes.map (·.path) = ["/", "/x"] := by
  obtain ⟨h, grown, made, worn⟩ := exists_lastGiven
  let y := ((wornTree Counter.top).createFolder 0 none "x").1.createFolder 0 none "y"
  have tree : (h.step 0 (.createFolder none "y")).tree = y.1 := by
    simp only [History.step, afterCreation_tree, worn, y]
  refine ⟨h, grown, made, ?_⟩
  dsimp only
  rw [tree, worn]
  have paths : y.1.nodes.map (fun n => (n.id, n.path)) =
      [("root", "/"), ("node-18446744073709551615", "/x"), ("node-18446744073709551615", "/y")] := by decide +kernel
  have outside : ¬ Path.IsWithin "/y" "/x" := by decide +kernel
  have deleted : y.1.delete "node-18446744073709551615" =
      ({ y.1 with nodes := [rootNode 0] }, .ok ["node-18446744073709551615", "node-18446744073709551615"]) := by
    decide +kernel
  exact ⟨paths, outside, _, deleted, by decide +kernel, by decide +kernel⟩

end History

end DesktopShell.Files
