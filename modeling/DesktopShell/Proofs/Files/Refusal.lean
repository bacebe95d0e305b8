import DesktopShell.Proofs.Files.Walk

/-!
# What is refused

A request is refused for the first of its reasons that applies (`Tree.Refuses`), and changes nothing
then; otherwise it does just what it asks for (`Grown.fails_iff_refuses`). That a path is taken already is
the same as that its folder has a child of the name. This needs no numbers that tell the nodes apart:
even among nodes of one id, the folder that a look-up of this id finds is the one whose path the
nodes in it go on from (`Housed`).
-/
namespace DesktopShell.Files

/-- Each node is the root, outside of folders, or its path goes on from that of the node which a look-up of its
    folder's id finds. -/
def Housed (t : Tree) : Prop :=
  ∀ n ∈ t.nodes, n.path = Path.root ∧ n.parent = none ∨
    ∃ folder, t.byId? folder.id = some folder ∧ n.parent = some folder.id ∧ n.path = Path.child folder.path n.name ∧
      Path.Proper n.name

namespace Housed
variable {t : Tree}

/-- Where ids tell the nodes apart there is no other folder to be found. -/
theorem of_rooted (rooted : Rooted t.nodes) (apart : (t.nodes.map (·.id)).Nodup) (made : UInt64)
    (first : rootNode made ∈ t.nodes) : Housed t := by
  intro n member
  rcases rooted n member with ⟨isRoot, path⟩ | ⟨folder, above, rest⟩
  · obtain rfl : n = rootNode made := List.inj_on_of_nodup_map apart member first isRoot
    exact .inl ⟨path, rfl⟩
  · exact .inr ⟨folder, (find?_eq_some_iff_key apart).mpr ⟨above, rfl⟩, rest⟩

/-- A node that joins the others is found after them. -/
theorem withNode (housed : Housed t) {parent : Node} {id : String} (found : t.byId? id = some parent) (now : UInt64)
    {name : String} (proper : Path.Proper name) (body : Body) :
    Housed (t.withNode (t.newNode now parent name body)) := by
  have still {key : String} {folder : Node} (before : t.byId? key = some folder) :
      (t.withNode (t.newNode now parent name body)).byId? key = some folder := by
    have front : t.nodes.find? (fun n => n.id = key) = some folder := before
    simp only [Tree.byId?, Tree.withNode, List.find?_append, front, Option.some_or]
  have named : parent.id = id := by simpa using List.find?_some found
  intro n member
  rcases List.mem_append.mp member with old | new
  · rcases housed n old with top | ⟨folder, before, rest⟩
    · exact .inl top
    · exact .inr ⟨folder, still before, rest⟩
  · obtain rfl := List.mem_singleton.mp new
    exact .inr ⟨parent, still (named ▸ found), rfl, rfl, proper⟩

theorem rewritten (housed : Housed t) (now : UInt64) (id content : String) : Housed (t.rewritten now id content) := by
  have continues (n : Node) := Tree.continues_withContent now content n
  have still {folder : Node} (before : t.byId? folder.id = some folder) :
      ∃ later, (t.rewritten now id content).byId? folder.id = some later ∧ folder.Continues later := by
    by_cases own : folder.id = id
    · refine ⟨Tree.withContent now content folder, ?_, continues folder⟩
      have changed : (t.rewritten now id content).byId? id = (t.byId? id).map (Tree.withContent now content) :=
        find?_changeFirst_self (f := Tree.withContent now content) (fun n => by rw [(continues n).id]) t.nodes
      rw [own] at before ⊢
      rw [changed, before, Option.map_some]
    · refine ⟨folder, Eq.trans ?_ before, .refl folder⟩
      refine find?_changeFirst_of_disjoint (fun n here => ?_) (fun n => by rw [(continues n).id]) t.nodes
      exact decide_eq_false (of_decide_eq_true here ▸ Ne.symm own)
  intro n member
  obtain ⟨m, old, later⟩ := Tree.exists_continues_of_mem_rewritten member
  rw [later.path, later.parent, later.name]
  rcases housed m old with top | ⟨folder, before, inside, path, proper⟩
  · exact .inl top
  · obtain ⟨now, found, same⟩ := still before
    exact .inr ⟨now, by rw [same.id, found], by rw [same.id, inside], by rw [same.path, path], proper⟩

/-- With a folder go all nodes of its id, and no folder goes without what is in it. -/
theorem without (housed : Housed t) (id : String) : Housed (t.without id) := by
  intro n member
  obtain ⟨old, kept⟩ := Tree.mem_without.mp member
  rcases housed n old with top | ⟨folder, before, inside, rest⟩
  · exact .inl top
  · have stays : ¬ Tree.Reaches t.nodes id folder.id := fun reaches => kept (.inside reaches old inside)
    refine .inr ⟨folder, Eq.trans ?_ before, inside, rest⟩
    simp only [Tree.byId?, Tree.without, List.find?_filter]
    congr 1
    funext m
    by_cases named : m.id = folder.id
    · simp [named, Tree.mem_withBelow_iff, stays]
    · simp [named]

end Housed

namespace History

private theorem housed_afterCreation {h : History} (housed : Housed h.tree) (now : UInt64) (folder : Option String)
    (name : String) (body : String → Body) : Housed (h.afterCreation (h.tree.create now folder name body)).tree := by
  rcases created : h.tree.create now folder name body with ⟨next, fault | n⟩
  · obtain rfl := Tree.create_eq_self created
    exact housed
  · obtain ⟨parent, found, _, valid, _, rfl, rfl⟩ := Tree.exists_of_create created
    exact housed.withNode found now (Tree.proper_trim valid) _

theorem housed_step {h : History} (housed : Housed h.tree) (now : UInt64) (request : Request) :
    Housed (h.step now request).tree := by
  cases request with
  | createFile folder name content =>
    simp only [step, Tree.createFile]
    exact housed_afterCreation housed now folder name _
  | createFolder folder name =>
    simp only [step, Tree.createFolder]
    exact housed_afterCreation housed now folder name _
  | update id content =>
    rw [step]
    rcases updated : h.tree.update now id content with ⟨next, fault | n⟩
    · obtain rfl := Tree.update_eq_self updated
      exact housed
    · obtain rfl := Tree.update_eq_ok updated
      exact housed.rewritten now id content
  | delete id =>
    rw [step]
    rcases deleted : h.tree.delete id with ⟨next, fault | removed⟩
    · obtain rfl := Tree.delete_eq_self deleted
      exact housed
    · obtain ⟨_, rfl, _⟩ := Tree.delete_eq_ok deleted
      exact housed.without id

theorem Grown.housed {h : History} (grown : h.Grown) : Housed h.tree := by
  have none : 0 ≤ Counter.top.toNat := Nat.zero_le _
  induction grown with
  | seeded now =>
    have ids := (Grown.seeded now).nodesApart none
    exact .of_rooted (Grown.seeded now).rooted ids now (by simp [start, Tree.seeded])
  | empty now =>
    have ids := (Grown.empty now).nodesApart none
    exact .of_rooted (Grown.empty now).rooted ids now (by simp [start, Tree.empty])
  | step now request _ ih => exact housed_step ih now request

end History

/-- A path that goes on from that of a folder is taken just when the folder has a child of the name. -/
theorem Charted.taken_iff {t : Tree} (charted : Charted t.nodes) (housed : Housed t) {id name : String} {parent : Node}
    (found : t.byId? id = some parent) (noSlash : '/' ∉ name.toList) (named : name ≠ "") :
    (∃ n ∈ t.nodes, n.path = Path.child parent.path name) ↔ ∃ n ∈ t.children id, n.name = name := by
  have same : parent.id = id := by simpa using List.find?_some found
  have above := List.mem_of_find?_eq_some found
  have spelled {n : Node} (member : n ∈ t.nodes) : n.path ≠ "" := by
    rcases housed n member with ⟨path, _⟩ | ⟨folder, _, _, path, proper⟩
    · rw [path]
      decide
    · rw [path]
      exact Path.child_ne_empty proper.nonempty folder.path
  constructor
  · rintro ⟨n, member, taken⟩
    rcases housed n member with ⟨path, _⟩ | ⟨folder, before, inside, path, proper⟩
    · exact absurd (taken.symm.trans path) (Path.child_ne_root named parent.path)
    · have listed := List.mem_of_find?_eq_some before
      obtain ⟨place, own⟩ := Path.child_inj (spelled listed) (spelled above) proper.noSlash noSlash
        (path.symm.trans taken)
      obtain rfl : folder = parent := List.inj_on_of_nodup_map charted.apart listed above place
      exact ⟨n, Tree.mem_children.mpr ⟨member, by rw [inside, same]⟩, own⟩
  · rintro ⟨n, child, rfl⟩
    obtain ⟨member, inside⟩ := Tree.mem_children.mp child
    refine ⟨n, member, ?_⟩
    rcases housed n member with ⟨_, outside⟩ | ⟨folder, before, inside', path, _⟩
    · simp [outside] at inside
    · have named : folder.id = id := Option.some.inj (inside'.symm.trans inside)
      obtain rfl : folder = parent := Option.some.inj (before.symm.trans (named ▸ found))
      exact path

/-- No node may be given the name. -/
def Forbidden (name : String) : Prop := name = "" ∨ name = "." ∨ name = ".." ∨ '/' ∈ name.toList

theorem isInvalidName_iff {name : String} : Tree.isInvalidName name = true ↔ Forbidden name := by
  simp only [Tree.isInvalidName, Forbidden, Bool.or_eq_true, decide_eq_true_eq, List.contains_eq_mem]
  tauto

namespace Tree

/-- The first reason against a node of a name in a folder, or in the root if none is given. -/
inductive RefusesNode (t : Tree) (folder : Option String) (name : String) : Fault → Prop
  | forbidden : Forbidden (Text.trim name) → RefusesNode t folder name (.invalidName (Text.trim name))
  | unknown : ¬ Forbidden (Text.trim name) → (∀ n ∈ t.nodes, n.id ≠ folder.getD rootId) →
      RefusesNode t folder name (.notFound (folder.getD rootId))
  | inFile {parent} : ¬ Forbidden (Text.trim name) → t.byId? (folder.getD rootId) = some parent →
      parent.isFolder = false → RefusesNode t folder name (.parentNotFolder (folder.getD rootId))
  | taken {parent n} : ¬ Forbidden (Text.trim name) → t.byId? (folder.getD rootId) = some parent →
      parent.isFolder = true → n ∈ t.children (folder.getD rootId) → n.name = Text.trim name →
      RefusesNode t folder name (.alreadyExists (Path.child parent.path (Text.trim name)))

/-- The first reason against a request. -/
inductive Refuses (t : Tree) : Request → Fault → Prop
  | createFile {folder name content fault} : t.RefusesNode folder name fault →
      Refuses t (.createFile folder name content) fault
  | createFolder {folder name fault} : t.RefusesNode folder name fault → Refuses t (.createFolder folder name) fault
  | updateUnknown {id content} : (∀ n ∈ t.nodes, n.id ≠ id) → Refuses t (.update id content) (.notFound id)
  | updateFolder {id content n} : t.byId? id = some n → n.isFolder = true →
      Refuses t (.update id content) (.notAFile n.path)
  | deleteRoot : Refuses t (.delete rootId) .rootDelete
  | deleteUnknown {id} : id ≠ rootId → (∀ n ∈ t.nodes, n.id ≠ id) → Refuses t (.delete id) (.notFound id)

theorem byId?_eq_none {t : Tree} {id : String} : t.byId? id = none ↔ ∀ n ∈ t.nodes, n.id ≠ id := by
  simp [byId?]

section
variable {t : Tree} {now : UInt64} {folder : Option String} {name : String} {body : String → Body} {fault : Fault}

/-- What the search among the paths finds is what the folder has among its children. -/
theorem any_path_iff (charted : Charted t.nodes) (housed : Housed t) {id : String} {parent : Node}
    (found : t.byId? id = some parent) (allowed : ¬ Forbidden name) :
    (t.nodes.any fun n => n.path = Path.child parent.path name) = true ↔ ∃ n ∈ t.children id, n.name = name := by
  simp only [Forbidden, not_or] at allowed
  rw [← charted.taken_iff housed found allowed.2.2.2 allowed.1]
  simp

theorem refusesNode_of_create (charted : Charted t.nodes) (housed : Housed t)
    (refused : (t.create now folder name body).2 = .error fault) : t.RefusesNode folder name fault := by
  unfold create at refused
  dsimp only at refused
  by_cases forbidden : isInvalidName (Text.trim name) = true
  · rw [if_pos forbidden] at refused
    obtain rfl := Except.error.inj refused
    exact .forbidden (isInvalidName_iff.mp forbidden)
  · rw [if_neg forbidden] at refused
    have allowed : ¬ Forbidden (Text.trim name) := fun other => forbidden (isInvalidName_iff.mpr other)
    cases found : t.byId? (folder.getD rootId) with
    | none =>
      rw [found] at refused
      obtain rfl := Except.error.inj refused
      exact .unknown allowed (byId?_eq_none.mp found)
    | some parent =>
      rw [found] at refused
      dsimp only at refused
      by_cases isFolder : parent.isFolder = true
      · rw [if_neg (by simp [isFolder])] at refused
        by_cases taken : (t.nodes.any fun n => n.path = Path.child parent.path (Text.trim name)) = true
        · rw [if_pos taken] at refused
          obtain rfl := Except.error.inj refused
          obtain ⟨n, child, named⟩ := (any_path_iff charted housed found allowed).mp taken
          exact .taken allowed found isFolder child named
        · rw [if_neg taken] at refused
          cases refused
      · rw [if_pos (by simp [isFolder])] at refused
        obtain rfl := Except.error.inj refused
        exact .inFile allowed found (by simpa using isFolder)

theorem create_of_refusesNode (charted : Charted t.nodes) (housed : Housed t)
    (refuses : t.RefusesNode folder name fault) : (t.create now folder name body).2 = .error fault := by
  have valid (allowed : ¬ Forbidden (Text.trim name)) : ¬ isInvalidName (Text.trim name) = true :=
    fun invalid => allowed (isInvalidName_iff.mp invalid)
  cases refuses with
  | forbidden forbidden => simp [create, isInvalidName_iff.mpr forbidden]
  | unknown allowed absent => simp [create, valid allowed, byId?_eq_none.mpr absent]
  | inFile allowed found isFile => simp [create, valid allowed, found, isFile]
  | @taken parent n allowed found isFolder child named =>
    have taken := (any_path_iff charted housed found allowed).mpr ⟨n, child, named⟩
    simp only [create, valid allowed, found, isFolder, taken]
    rfl

end

theorem update_eq_error {t : Tree} {now : UInt64} {id content : String} {fault : Fault} :
    (t.update now id content).2 = .error fault ↔ t.Refuses (.update id content) fault := by
  constructor
  · intro refused
    unfold update at refused
    cases found : t.byId? id with
    | none =>
      rw [found] at refused
      obtain rfl := Except.error.inj refused
      exact .updateUnknown (byId?_eq_none.mp found)
    | some n =>
      rw [found] at refused
      by_cases isFolder : n.isFolder = true
      · simp only [isFolder, if_true] at refused
        obtain rfl := Except.error.inj refused
        exact .updateFolder found isFolder
      · simp [isFolder] at refused
  · intro refuses
    cases refuses with
    | updateUnknown absent => simp [update, byId?_eq_none.mpr absent]
    | updateFolder found isFolder => simp [update, found, isFolder]

theorem delete_eq_error {t : Tree} {id : String} {fault : Fault} :
    (t.delete id).2 = .error fault ↔ t.Refuses (.delete id) fault := by
  constructor
  · intro refused
    unfold delete at refused
    by_cases root : id = rootId
    · rw [if_pos root] at refused
      obtain rfl := Except.error.inj refused
      exact root ▸ .deleteRoot
    · rw [if_neg root] at refused
      by_cases known : (t.nodes.any fun n => n.id = id) = true
      · simp [known] at refused
      · rw [if_pos (by simp [known])] at refused
        obtain rfl := Except.error.inj refused
        exact .deleteUnknown root (by simpa using known)
  · intro refuses
    cases refuses with
    | deleteRoot => simp [delete]
    | deleteUnknown other absent =>
      have unknown : ¬ (t.nodes.any fun n => n.id = id) = true := by simpa using absent
      simp [delete, other, unknown]

/-- The request is refused with a fault. -/
def Fails (t : Tree) (now : UInt64) (request : Request) (fault : Fault) : Prop :=
  match request with
  | .createFile folder name content => (t.createFile now folder name content).2 = .error fault
  | .createFolder folder name => (t.createFolder now folder name).2 = .error fault
  | .update id content => (t.update now id content).2 = .error fault
  | .delete id => (t.delete id).2 = .error fault

theorem fails_iff {t : Tree} (charted : Charted t.nodes) (housed : Housed t) (now : UInt64) (request : Request)
    (fault : Fault) : t.Fails now request fault ↔ t.Refuses request fault := by
  cases request with
  | createFile folder name content =>
    constructor
    · exact fun refused => .createFile (refusesNode_of_create charted housed refused)
    · rintro (reason | _)
      exact create_of_refusesNode charted housed reason
  | createFolder folder name =>
    constructor
    · exact fun refused => .createFolder (refusesNode_of_create charted housed refused)
    · rintro (_ | reason)
      exact create_of_refusesNode charted housed reason
  | update id content => exact update_eq_error
  | delete id => exact delete_eq_error

/-- A node is added behind the others, in the folder and with the name and the body that were asked for. -/
structure Adds (t : Tree) (folder : Option String) (name : String) (body : String → Body) (next : Tree) (n : Node) :
    Prop where
  joined : next.nodes = t.nodes ++ [n]
  inside : n.parent = some (folder.getD rootId)
  named : n.name = Text.trim name
  made : n.body = body (Text.trim name)

theorem adds_of_create {t next : Tree} {now : UInt64} {folder : Option String} {name : String}
    {body : String → Body} {n : Node} (created : t.create now folder name body = (next, .ok n)) :
    t.Adds folder name body next n := by
  obtain ⟨parent, found, _, _, _, rfl, rfl⟩ := exists_of_create created
  have named : parent.id = folder.getD rootId := by simpa using List.find?_some found
  exact ⟨rfl, congrArg some named, rfl, rfl⟩

/-- A file gets new content where it stands, and what else changes is the time of its last change. -/
def Rewrites (t : Tree) (now : UInt64) (id content : String) (next : Tree) (n : Node) : Prop :=
  ∃ front file back before extension, t.nodes = front ++ file :: back ∧
    next = { t with nodes := front ++ n :: back } ∧ file.id = id ∧ file.body = .file before extension ∧
    n = { file with body := .file content extension, modified := max now file.modified }

theorem rewrites_of_update {t next : Tree} {now : UInt64} {id content : String} {n : Node}
    (updated : t.update now id content = (next, .ok n)) : t.Rewrites now id content next n := by
  have changes := update_eq_ok updated
  unfold update at updated
  cases found : t.byId? id with
  | none => simp [found] at updated
  | some file =>
    rw [found] at updated
    cases body : file.body with
    | folder => simp [Node.isFolder, body] at updated
    | file before extension =>
      obtain ⟨front, back, whole, changed⟩ := exists_changeFirst_of_find? (f := withContent now content) found
      have returned : withContent now content file = n := by
        simp only [Node.isFolder, body] at updated
        exact Except.ok.inj (Prod.mk.inj updated).2
      refine ⟨front, file, back, before, extension, whole, ?_, by simpa using List.find?_some found, body, ?_⟩
      · rw [changes, rewritten, changed, returned]
      · rw [← returned, withContent, body]

end Tree

namespace History

/-- A request that is refused leaves the tree and all that was done to it as it was. -/
theorem step_of_fails {h : History} {now : UInt64} {request : Request} {fault : Fault}
    (fails : h.tree.Fails now request fault) : h.step now request = h := by
  cases request with
  | createFile folder name content =>
    obtain ⟨next, refused⟩ : ∃ next, h.tree.createFile now folder name content = (next, .error fault) :=
      ⟨_, Prod.ext rfl fails⟩
    simp only [step, refused, afterCreation, Tree.create_eq_self refused]
  | createFolder folder name =>
    obtain ⟨next, refused⟩ : ∃ next, h.tree.createFolder now folder name = (next, .error fault) :=
      ⟨_, Prod.ext rfl fails⟩
    simp only [step, refused, afterCreation, Tree.create_eq_self refused]
  | update id content =>
    obtain ⟨next, refused⟩ : ∃ next, h.tree.update now id content = (next, .error fault) :=
      ⟨_, Prod.ext rfl fails⟩
    simp only [step, refused, Tree.update_eq_self refused]
  | delete id =>
    obtain ⟨next, refused⟩ : ∃ next, h.tree.delete id = (next, .error fault) :=
      ⟨_, Prod.ext rfl fails⟩
    simp only [step, refused, Tree.delete_eq_self refused]

/-- Whatever was asked of a tree before, a request is refused with a fault exactly when this is the first reason that
    there is against it: a creation for its name, for a folder that is not there or is a file, or for a path that is
    taken, which is the same as a child of that name in the folder; a change of content for an unknown id or a folder;
    a deletion for the root or an unknown id. What is refused leaves everything as it was. A creation that is granted
    adds the node that it gives, and a change of content that is granted changes the one file and nothing else of it
    than the content and the time. -/
theorem Grown.fails_iff_refuses {h : History} (grown : h.Grown) (now : UInt64) :
    (∀ request fault, h.tree.Fails now request fault ↔ h.tree.Refuses request fault) ∧
      (∀ id parent name, h.tree.byId? id = some parent → ¬ Forbidden name →
        ((∃ n ∈ h.tree.nodes, n.path = Path.child parent.path name) ↔ ∃ n ∈ h.tree.children id, n.name = name)) ∧
      (∀ request fault, h.tree.Fails now request fault → h.step now request = h) ∧
      (∀ folder name content next n, h.tree.createFile now folder name content = (next, .ok n) →
        h.tree.Adds folder name (fun name => .file content (extension? name)) next n) ∧
      (∀ folder name next n, h.tree.createFolder now folder name = (next, .ok n) →
        h.tree.Adds folder name (fun _ => .folder) next n) ∧
      ∀ id content next n, h.tree.update now id content = (next, .ok n) → h.tree.Rewrites now id content next n := by
  refine ⟨Tree.fails_iff grown.charted grown.housed now, ?_, fun _ _ => step_of_fails,
    fun _ _ _ _ _ => Tree.adds_of_create, fun _ _ _ _ => Tree.adds_of_create,
    fun _ _ _ _ => Tree.rewrites_of_update⟩
  intro id parent name found allowed
  simp only [Forbidden, not_or] at allowed
  exact grown.charted.taken_iff grown.housed found allowed.2.2.2 allowed.1

private theorem exists_of_isOk {result : Tree × Except Fault Node} (granted : result.2.isOk = true) :
    ∃ next n, result = (next, .ok n) := by
  rcases result with ⟨next, fault | n⟩
  · cases granted
  · exact ⟨next, n, rfl⟩

/-- A folder of a taken name is refused in the root and added in another folder; a name that is forbidden is the reason
    against a node in a file; and a file gets new content. -/
theorem Grown.fails_iff_refuses_documents :
    let h := (start (.seeded 9)).step 5 (.createFolder none " notes ")
    let twice := Request.createFolder none " Documents "
    h.tree.Refuses twice (.alreadyExists "/Documents") ∧ (∃ n ∈ h.tree.children rootId, n.name = "Documents") ∧
      h.step 4 twice = h ∧ h.tree.Refuses (.createFile "sample-script" " .. " "") (.invalidName "..") ∧
      (∃ next n, h.tree.createFolder 4 "node-1" " Documents " = (next, .ok n) ∧ n.path = "/notes/Documents" ∧
        h.tree.Adds "node-1" " Documents " (fun _ => .folder) next n) ∧
      ∃ next n, h.tree.update 4 "sample-script" "late" = (next, .ok n) ∧
        h.tree.Rewrites 4 "sample-script" "late" next n := by
  intro h twice
  have grown : h.Grown := .step 5 _ (.seeded 9)
  obtain ⟨refuses, taken, unchanged, _, added, rewritten⟩ := grown.fails_iff_refuses 4
  have fails : h.tree.Fails 4 twice (.alreadyExists "/Documents") := by
    show (h.tree.createFolder 4 none " Documents ").2 = _
    decide +kernel
  have forbidden : h.tree.Fails 4 (.createFile "sample-script" " .. " "") (.invalidName "..") := by
    show (h.tree.createFile 4 "sample-script" " .. " "").2 = _
    decide +kernel
  have above : h.tree.byId? rootId = some (rootNode 9) := by decide +kernel
  have allowed : ¬ Forbidden "Documents" := by
    rw [← isInvalidName_iff]
    decide +kernel
  refine ⟨(refuses _ _).mp fails, (taken rootId _ _ above allowed).mp (by decide +kernel), unchanged _ _ fails,
    (refuses _ _).mp forbidden, ?_, ?_⟩
  · obtain ⟨next, n, created⟩ : ∃ next n, h.tree.createFolder 4 "node-1" " Documents " = (next, .ok n) :=
      exists_of_isOk (by decide +kernel)
    have placed : (h.tree.createFolder 4 "node-1" " Documents ").2.toOption.map (·.path) =
        some "/notes/Documents" := by decide +kernel
    rw [created] at placed
    exact ⟨next, n, created, Option.some.inj placed, added _ _ next n created⟩
  · obtain ⟨next, n, updated⟩ : ∃ next n, h.tree.update 4 "sample-script" "late" = (next, .ok n) :=
      exists_of_isOk (by decide +kernel)
    exact ⟨next, n, updated, rewritten _ _ next n updated⟩

end History

end DesktopShell.Files
