import DesktopShell.Proofs.Files.Path

/-!
# How trees grow

The trees that requests lead to from a given one, together with what was deleted
on the way (`History`). Whatever is asked, a history makes one of four turns
(`step_turn`): nothing changes, a node joins the others, the content of a file
changes, or a node goes with all that is below it.

The paths of a tree that grows from the start stay apart and are made from proper
names (`Grown.charted`). A name may be proper and still not plain: nothing keeps a
backslash out of it, which a path is parted at. So a node can be found by its own
path exactly if there is no backslash in this path, and if there is one, no path
leads to the node (`Grown.byPath?_path`).
-/
namespace DesktopShell.Files

/-- What can be asked of a tree. -/
inductive Request where
  | createFile (folder : Option String) (name content : String)
  | createFolder (folder : Option String) (name : String)
  | update (id content : String)
  | delete (id : String)
deriving Repr, DecidableEq

/-- A tree with what was done to it. -/
structure History where
  tree : Tree
  /-- The ids of the nodes that were deleted. -/
  gone : List String
  /-- How many nodes were created. -/
  made : Nat

namespace History

def start (tree : Tree) : History := { tree, gone := [], made := 0 }

def afterCreation (h : History) : Tree × Except Fault Node → History
  | (tree, .ok _) => { h with tree, made := h.made + 1 }
  | (tree, .error _) => { h with tree }

/-- The history after a request, with the tree that the request leaves. -/
def step (h : History) (now : UInt64) : Request → History
  | .createFile folder name content => h.afterCreation (h.tree.createFile now folder name content)
  | .createFolder folder name => h.afterCreation (h.tree.createFolder now folder name)
  | .update id content => { h with tree := (h.tree.update now id content).1 }
  | .delete id =>
    match h.tree.delete id with
    | (tree, .ok removed) => { h with tree, gone := h.gone ++ removed }
    | (tree, .error _) => { h with tree }

/-- The histories of the trees that a desktop can start with. The clock may show any time at any
    request. -/
inductive Grown : History → Prop
  | seeded (now : UInt64) : Grown (start (.seeded now))
  | empty (now : UInt64) : Grown (start (.empty now))
  | step {h} (now : UInt64) (request : Request) : Grown h → Grown (h.step now request)

end History

/-- Two stages of a node: they differ at most in the content of a file and in the time of its change,
    which is not an earlier one in the later stage. -/
structure Node.Continues (m n : Node) : Prop where
  id : n.id = m.id
  name : n.name = m.name
  path : n.path = m.path
  parent : n.parent = m.parent
  isFolder : n.isFolder = m.isFolder
  created : n.created = m.created
  modified : m.modified ≤ n.modified
  folder : m.isFolder = true → n = m

theorem Node.Continues.refl (n : Node) : n.Continues n :=
  ⟨rfl, rfl, rfl, rfl, rfl, rfl, UInt64.le_refl _, fun _ => rfl⟩

theorem Tree.continues_withContent (now : UInt64) (content : String) (n : Node) :
    n.Continues (withContent now content n) := by
  unfold withContent
  cases body : n.body with
  | folder => exact .refl n
  | file old extension =>
    have isFolder : n.isFolder = false := by simp [Node.isFolder, body]
    refine ⟨rfl, rfl, rfl, rfl, ?_, rfl, Std.right_le_max, fun folder => ?_⟩
    · rw [isFolder]
      rfl
    · exact absurd (isFolder.symm.trans folder) (by simp)

/-- A node that can join others: its name is proper, its folder is one of them, and none of them has
    its path. -/
structure Joins (nodes : List Node) (n : Node) : Prop where
  named : Path.Proper n.name
  placed : ∃ folder ∈ nodes, folder.isFolder = true ∧ n.parent = some folder.id ∧
    n.path = Path.child folder.path n.name
  free : n.path ∉ nodes.map (·.path)
  timed : n.created ≤ n.modified

/-- Nodes that can join others one after another. -/
def JoinInTurn : List Node → List Node → Prop
  | _, [] => True
  | nodes, n :: rest => Joins nodes n ∧ JoinInTurn (nodes ++ [n]) rest

theorem JoinInTurn.keeps {kept : List Node → Prop}
    (join : ∀ {nodes n}, kept nodes → Joins nodes n → kept (nodes ++ [n])) {nodes rest : List Node}
    (joins : JoinInTurn nodes rest) (before : kept nodes) : kept (nodes ++ rest) := by
  induction rest generalizing nodes with
  | nil => rwa [List.append_nil]
  | cons n rest ih =>
    have further := ih joins.2 (join before joins.1)
    rwa [List.append_assoc] at further

namespace Tree

/-- The tree with one more node. -/
def withNode (t : Tree) (n : Node) : Tree := { nodes := t.nodes ++ [n], next := Counter.next t.next }

/-- The tree with new content in the first file of an id. -/
def rewritten (t : Tree) (now : UInt64) (id content : String) : Tree :=
  { t with nodes := changeFirst (fun n => n.id = id) (withContent now content) t.nodes }

/-- A node of the rewritten tree is a stage of one that was there. -/
theorem exists_continues_of_mem_rewritten {t : Tree} {now : UInt64} {id content : String} {n : Node}
    (member : n ∈ (t.rewritten now id content).nodes) : ∃ m ∈ t.nodes, m.Continues n := by
  rcases mem_changeFirst member with old | ⟨m, old, -, rfl⟩
  · exact ⟨n, old, .refl n⟩
  · exact ⟨m, old, continues_withContent now content m⟩

/-- The nodes that a deletion takes. -/
def taken (t : Tree) (id : String) : List Node :=
  t.nodes.filter fun n => (withBelow [id] [id] t.nodes).contains n.id

/-- The tree that a deletion leaves. -/
def without (t : Tree) (id : String) : Tree :=
  { t with nodes := t.nodes.filter fun n => !(withBelow [id] [id] t.nodes).contains n.id }

private theorem joins_seed {nodes : List Node} {n : Node} {name : String} (named : Path.Proper name) (folder : Node)
    (member : folder ∈ nodes) (isFolder : folder.isFolder = true) (inside : n.name = name ∧ n.parent = some folder.id)
    (placed : n.path = Path.child folder.path name) (free : n.path ∉ nodes.map (·.path))
    (new : n.modified = n.created) : Joins nodes n := by
  obtain ⟨rfl, parent⟩ := inside
  exact ⟨named, ⟨folder, member, isFolder, parent, placed⟩, free, new ▸ UInt64.le_refl _⟩

/-- The tree that a desktop starts with is the root with seven nodes that joined it. -/
theorem seeded_joinInTurn (now : UInt64) : JoinInTurn [rootNode now] (seeded now).nodes.tail := by
  have system : Path.Proper "System" := by decide
  have library : Path.Proper "Library" := by decide
  have ui : Path.Proper "UI" := by decide
  have components : Path.Proper "Components" := by decide
  have documents : Path.Proper "Documents" := by decide
  have scripts : Path.Proper "Scripts" := by decide
  have script : Path.Proper "hello.fxo" := by decide
  refine ⟨joins_seed system (rootNode now) ?_ ?_ ?_ ?_ ?_ ?_,
    joins_seed library (seedFolder now "system" "System" "/System" rootId) ?_ ?_ ?_ ?_ ?_ ?_,
    joins_seed ui (seedFolder now "library" "Library" "/System/Library" "system") ?_ ?_ ?_ ?_ ?_ ?_,
    joins_seed components (seedFolder now "ui" "UI" "/System/Library/UI" "library") ?_ ?_ ?_ ?_ ?_ ?_,
    joins_seed documents (rootNode now) ?_ ?_ ?_ ?_ ?_ ?_,
    joins_seed scripts (seedFolder now "documents" "Documents" "/Documents" rootId) ?_ ?_ ?_ ?_ ?_ ?_,
    joins_seed script (seedFolder now "scripts" "Scripts" "/Documents/Scripts" "documents") ?_ ?_ ?_ ?_ ?_ ?_, trivial⟩
  all_goals simp [rootNode, seedFolder, Node.isFolder, Path.child, Path.root, rootId]

theorem proper_trim {name : String} (valid : isInvalidName (Text.trim name) = false) :
    Path.Proper (Text.trim name) := by
  simp only [isInvalidName, Bool.or_eq_false_iff, decide_eq_false_iff_not, List.contains_eq_mem] at valid
  obtain ⟨⟨⟨nonempty, noSlash⟩, notDot⟩, notDots⟩ := valid
  exact ⟨Text.trim_trim name, nonempty, noSlash, notDot, notDots⟩

/-- The node that is made next in a folder. -/
def newNode (t : Tree) (now : UInt64) (folder : Node) (name : String) (body : Body) : Node :=
  { id := Counter.label "node" t.next, name, body, path := Path.child folder.path name, parent := folder.id
    created := now, modified := now }

/-- A creation that is not refused adds the node that it gives. -/
theorem exists_of_create {t next : Tree} {now : UInt64} {folder : Option String} {name : String}
    {body : String → Body} {n : Node} (created : t.create now folder name body = (next, .ok n)) :
    ∃ parent, t.byId? (folder.getD rootId) = some parent ∧ parent.isFolder = true ∧
      isInvalidName (Text.trim name) = false ∧ (∀ m ∈ t.nodes, m.path ≠ n.path) ∧
      n = t.newNode now parent (Text.trim name) (body (Text.trim name)) ∧ next = t.withNode n := by
  unfold create at created
  dsimp only at created
  by_cases valid : isInvalidName (Text.trim name) = true
  · simp [valid] at created
  rw [if_neg valid] at created
  cases found : t.byId? (folder.getD rootId) with
  | none => simp [found] at created
  | some parent =>
    rw [found] at created
    dsimp only at created
    by_cases isFolder : parent.isFolder = true
    · by_cases taken : (t.nodes.any fun m => m.path = Path.child parent.path (Text.trim name)) = true
      · simp [isFolder, taken] at created
      · have same : parent.id = folder.getD rootId := by simpa using List.find?_some found
        rw [if_neg (by simp [isFolder]), if_neg taken] at created
        obtain ⟨rfl, made⟩ := Prod.mk.inj created
        obtain rfl := Except.ok.inj made
        refine ⟨parent, rfl, isFolder, Bool.eq_false_iff.mpr valid, ?_, by simp only [newNode, same], rfl⟩
        intro m member equal
        exact taken (List.any_eq_true.mpr ⟨m, member, by simpa using equal⟩)
    · simp [isFolder] at created

theorem create_eq_ok {t next : Tree} {now : UInt64} {folder : Option String} {name : String}
    {body : String → Body} {n : Node} (created : t.create now folder name body = (next, .ok n)) :
    n.id = Counter.label "node" t.next ∧ Joins t.nodes n ∧ next = t.withNode n := by
  obtain ⟨parent, found, isFolder, valid, free, rfl, rfl⟩ := exists_of_create created
  have placed := List.mem_of_find?_eq_some found
  refine ⟨rfl, ⟨proper_trim valid, ⟨parent, placed, isFolder, rfl, rfl⟩, ?_, UInt64.le_refl now⟩, rfl⟩
  intro listed
  obtain ⟨m, member, equal⟩ := List.mem_map.mp listed
  exact free m member equal

/-- A creation that is refused leaves the tree. -/
theorem create_eq_self {t next : Tree} {now : UInt64} {folder : Option String} {name : String}
    {body : String → Body} {fault : Fault} (refused : t.create now folder name body = (next, .error fault)) :
    next = t := by
  unfold create at refused
  dsimp only at refused
  split at refused
  · exact (Prod.mk.inj refused).1.symm
  · split at refused
    · exact (Prod.mk.inj refused).1.symm
    · split at refused
      · exact (Prod.mk.inj refused).1.symm
      · split at refused <;> cases refused
        rfl

theorem update_eq_ok {t next : Tree} {now : UInt64} {id content : String} {n : Node}
    (updated : t.update now id content = (next, .ok n)) : next = t.rewritten now id content := by
  unfold update at updated
  cases found : t.byId? id with
  | none => simp [found] at updated
  | some m =>
    rw [found] at updated
    by_cases isFolder : m.isFolder = true
    · simp [isFolder] at updated
    · simp only [isFolder, Bool.false_eq_true, if_false, Prod.mk.injEq] at updated
      exact updated.1.symm

theorem update_eq_self {t next : Tree} {now : UInt64} {id content : String} {fault : Fault}
    (refused : t.update now id content = (next, .error fault)) : next = t := by
  unfold update at refused
  split at refused
  · exact (Prod.mk.inj refused).1.symm
  · split at refused <;> cases refused
    rfl

theorem delete_eq_ok {t next : Tree} {id : String} {removed : List String}
    (deleted : t.delete id = (next, .ok removed)) :
    id ≠ rootId ∧ next = t.without id ∧ removed = (t.taken id).map (·.id) := by
  unfold delete at deleted
  by_cases root : id = rootId
  · simp [root] at deleted
  by_cases known : (t.nodes.any fun n => n.id = id) = true
  · simp only [root, known, Bool.not_true, Bool.false_eq_true, if_false, Except.ok.injEq, Prod.mk.injEq] at deleted
    exact ⟨root, deleted.1.symm, deleted.2.symm⟩
  · simp [root, known] at deleted

theorem delete_eq_self {t next : Tree} {id : String} {fault : Fault} (refused : t.delete id = (next, .error fault)) :
    next = t := by
  unfold delete at refused
  split at refused
  · exact (Prod.mk.inj refused).1.symm
  · split at refused <;> cases refused
    rfl

end Tree

namespace History

/-- What one request does to a history. -/
inductive Turn (h : History) : History → Prop
  | keep : Turn h h
  | join {n} : n.id = Counter.label "node" h.tree.next → Joins h.tree.nodes n →
      Turn h { h with tree := h.tree.withNode n, made := h.made + 1 }
  | rewrite (now : UInt64) (id content : String) : Turn h { h with tree := h.tree.rewritten now id content }
  | drop {id} : id ≠ rootId →
      Turn h { h with tree := h.tree.without id, gone := h.gone ++ (h.tree.taken id).map (·.id) }

private theorem afterCreation_turn (h : History) (now : UInt64) (folder : Option String) (name : String)
    (body : String → Body) : Turn h (h.afterCreation (h.tree.create now folder name body)) := by
  rcases created : h.tree.create now folder name body with ⟨next, fault | n⟩
  · obtain rfl := Tree.create_eq_self created
    exact .keep
  · obtain ⟨numbered, joins, rfl⟩ := Tree.create_eq_ok created
    exact .join numbered joins

theorem step_turn (h : History) (now : UInt64) (request : Request) : Turn h (h.step now request) := by
  cases request with
  | createFile folder name content =>
    simp only [step, Tree.createFile]
    exact h.afterCreation_turn now folder name _
  | createFolder folder name =>
    simp only [step, Tree.createFolder]
    exact h.afterCreation_turn now folder name _
  | update id content =>
    rw [step]
    rcases updated : h.tree.update now id content with ⟨next, fault | n⟩
    · obtain rfl := Tree.update_eq_self updated
      exact .keep
    · obtain rfl := Tree.update_eq_ok updated
      exact .rewrite now id content
  | delete id =>
    rw [step]
    rcases deleted : h.tree.delete id with ⟨next, fault | removed⟩
    · obtain rfl := Tree.delete_eq_self deleted
      exact .keep
    · obtain ⟨apart, rfl, rfl⟩ := Tree.delete_eq_ok deleted
      exact .drop apart

end History

/-- The nodes of a tree have paths of their own, which are made from proper names. -/
structure Charted (nodes : List Node) : Prop where
  apart : (nodes.map (·.path)).Nodup
  spelled : ∀ n ∈ nodes, ∃ names, (∀ name ∈ names, Path.Proper name) ∧ n.path = Path.ofNames names

namespace Charted
variable {nodes : List Node}

theorem root (now : UInt64) : Charted [rootNode now] := by
  refine ⟨by simp, ?_⟩
  intro n member
  obtain rfl := List.mem_singleton.mp member
  exact ⟨[], by simp, rfl⟩

theorem join {n : Node} (charted : Charted nodes) (joins : Joins nodes n) : Charted (nodes ++ [n]) := by
  refine ⟨?_, ?_⟩
  · rw [List.map_append, List.map_singleton, ← List.concat_eq_append, List.nodup_concat]
    exact ⟨joins.free, charted.apart⟩
  · intro m member
    rcases List.mem_append.mp member with old | new
    · exact charted.spelled m old
    · obtain rfl := List.mem_singleton.mp new
      obtain ⟨folder, old, -, -, path⟩ := joins.placed
      obtain ⟨names, proper, above⟩ := charted.spelled folder old
      refine ⟨names ++ [m.name], ?_, by rw [path, above, Path.ofNames_append_singleton]⟩
      intro name listed
      rcases List.mem_append.mp listed with earlier | last
      · exact proper name earlier
      · exact List.mem_singleton.mp last ▸ joins.named

theorem rewritten {t : Tree} (charted : Charted t.nodes) (now : UInt64) (id content : String) :
    Charted (t.rewritten now id content).nodes := by
  refine ⟨?_, ?_⟩
  · rw [Tree.rewritten, map_changeFirst _ fun n => (Tree.continues_withContent now content n).path]
    exact charted.apart
  · intro n member
    obtain ⟨m, old, continues⟩ := Tree.exists_continues_of_mem_rewritten member
    exact continues.path ▸ charted.spelled m old

theorem sublist {fewer : List Node} (charted : Charted nodes) (part : fewer.Sublist nodes) : Charted fewer :=
  ⟨charted.apart.sublist (part.map _), fun n member => charted.spelled n (part.subset member)⟩

theorem turn {h next : History} (charted : Charted h.tree.nodes) (turn : h.Turn next) :
    Charted next.tree.nodes := by
  cases turn with
  | keep => exact charted
  | join _ joins => exact charted.join joins
  | rewrite now id content => exact charted.rewritten now id content
  | drop _ => exact charted.sublist List.filter_sublist

theorem byPath?_eq_some_iff {t : Tree} (charted : Charted t.nodes) {path : String} {n : Node} :
    t.byPath? path = some n ↔ n ∈ t.nodes ∧ n.path = Path.normalize path :=
  find?_eq_some_iff_key charted.apart

theorem normalize_path_iff (charted : Charted nodes) {n : Node} (member : n ∈ nodes) :
    Path.normalize n.path = n.path ↔ '\\' ∉ n.path.toList := by
  constructor
  · intro stored
    exact stored ▸ Path.backslash_not_mem_normalize n.path
  · intro clean
    obtain ⟨names, proper, path⟩ := charted.spelled n member
    rw [path] at clean ⊢
    refine Path.normalize_ofNames fun name listed => ⟨proper name listed, fun inside => clean ?_⟩
    exact Path.mem_ofNames_of_mem (fun other listed => (proper other listed).nonempty) listed inside

end Charted

namespace History

theorem Grown.charted {h : History} (grown : h.Grown) : Charted h.tree.nodes := by
  induction grown with
  | seeded now => exact (Tree.seeded_joinInTurn now).keeps Charted.join (.root now)
  | empty now => exact .root now
  | step now request _ ih => exact ih.turn (step_turn _ now request)

/-- A node is found by its own path exactly if no backslash is in this path. If one is, the node is
    not found by any path. -/
theorem Grown.byPath?_path {h : History} (grown : h.Grown) {n : Node} (member : n ∈ h.tree.nodes) :
    (h.tree.byPath? n.path = some n ↔ '\\' ∉ n.path.toList) ∧
      ('\\' ∈ n.path.toList → ∀ path, h.tree.byPath? path ≠ some n) := by
  have charted := grown.charted
  constructor
  · rw [charted.byPath?_eq_some_iff, ← charted.normalize_path_iff member]
    exact ⟨fun found => found.2.symm, fun stored => ⟨member, stored.symm⟩⟩
  · intro backslash path found
    obtain ⟨_, same⟩ := charted.byPath?_eq_some_iff.mp found
    exact Path.backslash_not_mem_normalize path (same ▸ backslash)

/-- A file in a folder whose name was given with blanks around it is found by its path. -/
theorem Grown.byPath?_path_inside :
    let h := ((start (.empty 0)).step 5 (.createFolder none " docs ")).step 3
      (.createFile (some "node-1") "a b.txt" "hello")
    ∃ n ∈ h.tree.nodes, n.id = "node-2" ∧ n.path = "/docs/a b.txt" ∧ h.tree.byPath? n.path = some n := by
  intro h
  have grown : h.Grown := .step 3 _ (.step 5 _ (.empty 0))
  have made : ∃ n ∈ h.tree.nodes, n.id = "node-2" ∧ n.path = "/docs/a b.txt" := by decide +kernel
  obtain ⟨n, member, numbered, path⟩ := made
  have clean : '\\' ∉ n.path.toList := by
    rw [path]
    decide +kernel
  exact ⟨n, member, numbered, path, (grown.byPath?_path member).1.mpr clean⟩

/-- A folder with a backslash in its name can be made, but is not found by its path, and it keeps
    its name from being given again. -/
theorem Grown.byPath?_path_backslash :
    let h := (start (.empty 0)).step 1 (.createFolder none "a\\b")
    h.Grown ∧ (∃ n ∈ h.tree.nodes, n.id = "node-1" ∧ h.tree.byPath? n.path ≠ some n) ∧
      (h.tree.createFolder 2 none "a\\b").2.toOption = none := by
  intro h
  exact ⟨.step 1 _ (.empty 0), by decide +kernel, by decide +kernel⟩

end History

end DesktopShell.Files
