import DesktopShell.Proofs.Files.Growth

/-!
# The arrangement of nodes

Whatever is asked of a tree, its nodes stay arranged: the root comes first and is
the only node outside of folders, and every other node comes after its folder,
whose path its own path goes on from (`Grown.arranged`). This needs ids that tell
the nodes apart, which they do as long as the counter that numbers them was not
asked for its largest number twice (`Grown.apart`): the ids that were ever in the
tree, deleted ones included, are then all different. Some requests come to the end of
the counter (`exists_lastGiven`).

A deletion takes the nodes that are reached from the deleted one by going from a
folder to what is in it. The worklist finds exactly these (`mem_withBelow_iff`):
it finds nothing else, and at its end no node that is left over is in anything
that was found.
-/
namespace DesktopShell.Files.Tree

/-- An id that is reached from the top by going from folders to what is in them. -/
inductive Reaches (nodes : List Node) (top : String) : String → Prop
  | here : Reaches nodes top top
  | inside {folder n} : Reaches nodes top folder → n ∈ nodes → n.parent = some folder → Reaches nodes top n.id

theorem mem_idsIn {folder id : String} {nodes : List Node} :
    id ∈ idsIn folder nodes ↔ ∃ n ∈ nodes, n.parent = some folder ∧ n.id = id := by
  simp [idsIn, and_assoc]

theorem mem_besides {folder : String} {nodes : List Node} {n : Node} :
    n ∈ besides folder nodes ↔ n ∈ nodes ∧ n.parent ≠ some folder := by
  simp [besides]

theorem reaches_of_mem_withBelow {all : List Node} {top : String} {found waiting : List String}
    {nodes : List Node} (within : ∀ n ∈ nodes, n ∈ all) (foundBelow : ∀ id ∈ found, Reaches all top id)
    (waitingBelow : ∀ id ∈ waiting, Reaches all top id) {id : String}
    (member : id ∈ withBelow found waiting nodes) : Reaches all top id := by
  induction found, waiting, nodes using withBelow.induct with
  | case1 found nodes =>
    rw [withBelow] at member
    exact foundBelow id member
  | case2 found folder waiting nodes insides ih =>
    have insideBelow : ∀ id ∈ insides, Reaches all top id := by
      intro id listed
      obtain ⟨n, old, placed, rfl⟩ := mem_idsIn.mp listed
      exact .inside (waitingBelow folder (by simp)) (within n old) placed
    rw [withBelow] at member
    refine ih ?_ ?_ ?_ member
    · exact fun n left => within n (mem_besides.mp left).1
    · intro id either
      exact (List.mem_append.mp either).elim (insideBelow id) (foundBelow id)
    · intro id either
      exact (List.mem_append.mp either).elim (insideBelow id) fun later => waitingBelow id (by simp [later])

theorem mem_withBelow_of_mem {found waiting : List String} {nodes : List Node} {id : String}
    (member : id ∈ found) : id ∈ withBelow found waiting nodes := by
  induction found, waiting, nodes using withBelow.induct with
  | case1 found nodes => rwa [withBelow]
  | case2 found folder waiting nodes insides ih =>
    rw [withBelow]
    exact ih (List.mem_append_right insides member)

/-- How a search stands in the middle: a node that is not left is found, and a node that is left in
    something found has its turn to come. -/
structure Searching (all : List Node) (found waiting : List String) (nodes : List Node) : Prop where
  left : ∀ n ∈ all, n ∈ nodes ∨ n.id ∈ found
  turn : ∀ n ∈ nodes, ∀ folder ∈ found, n.parent = some folder → folder ∈ waiting

theorem Searching.next {all nodes : List Node} {found waiting : List String} {folder : String}
    (searching : Searching all found (folder :: waiting) nodes) :
    Searching all (idsIn folder nodes ++ found) (idsIn folder nodes ++ waiting) (besides folder nodes) := by
  constructor
  · intro n member
    rcases searching.left n member with still | done
    · by_cases inside : n.parent = some folder
      · exact .inr (List.mem_append_left _ (mem_idsIn.mpr ⟨n, still, inside, rfl⟩))
      · exact .inl (mem_besides.mpr ⟨still, inside⟩)
    · exact .inr (List.mem_append_right _ done)
  · intro n left other known placed
    obtain ⟨still, outside⟩ := mem_besides.mp left
    rcases List.mem_append.mp known with new | old
    · exact List.mem_append_left _ new
    · rcases List.mem_cons.mp (searching.turn n still other old placed) with rfl | later
      · exact absurd placed outside
      · exact List.mem_append_right _ later

theorem Searching.closed {all nodes : List Node} {found waiting : List String}
    (searching : Searching all found waiting nodes) {n : Node} (member : n ∈ all) {folder : String}
    (placed : n.parent = some folder) (known : folder ∈ withBelow found waiting nodes) :
    n.id ∈ withBelow found waiting nodes := by
  induction found, waiting, nodes using withBelow.induct with
  | case1 found nodes =>
    rw [withBelow] at known ⊢
    rcases searching.left n member with left | done
    · exact absurd (searching.turn n left folder known placed) (by simp)
    · exact done
  | case2 found other waiting nodes insides ih =>
    rw [withBelow] at known ⊢
    exact ih searching.next known

/-- The worklist finds what is below its top, and nothing else. -/
theorem mem_withBelow_iff {nodes : List Node} {top id : String} :
    id ∈ withBelow [top] [top] nodes ↔ Reaches nodes top id := by
  constructor
  · have start : ∀ id ∈ [top], Reaches nodes top id := fun id same => List.mem_singleton.mp same ▸ .here
    exact reaches_of_mem_withBelow (fun _ member => member) start start
  · intro below
    have searching : Searching nodes [top] [top] nodes := ⟨fun n member => .inl member, fun _ _ _ known _ => known⟩
    induction below with
    | here => exact mem_withBelow_of_mem (by simp)
    | inside _ member placed ih => exact searching.closed member placed ih

end DesktopShell.Files.Tree

namespace DesktopShell.Files

namespace History

/-- The ids that are in the tree or were deleted from it. -/
def ids (h : History) : List String := h.gone ++ h.tree.nodes.map (·.id)

/-- The ids that a history has seen are different, and those made from numbers are made from smaller
    numbers than the next one. -/
structure Numbered (h : History) : Prop where
  next : h.tree.next.toNat = h.made + 1
  apart : h.ids.Nodup
  below : ∀ k, Counter.label "node" k ∈ h.ids → k < h.tree.next

theorem Numbered.issued {h : History} (numbered : h.Numbered) : Counter.Issued "node" h.tree.next h.ids :=
  ⟨numbered.apart, numbered.below⟩

theorem Numbered.fresh {h : History} (numbered : h.Numbered) : Counter.label "node" h.tree.next ∉ h.ids :=
  numbered.issued.fresh

/-- A change of content leaves the ids. -/
theorem ids_rewritten (h : History) (now : UInt64) (id content : String) :
    ids { h with tree := h.tree.rewritten now id content } = h.ids := by
  rw [ids, ids, Tree.rewritten, map_changeFirst _ fun n => (Tree.continues_withContent now content n).id]

/-- A deletion moves ids from the tree to those that are gone. -/
theorem ids_without (h : History) (id : String) :
    (ids { h with tree := h.tree.without id, gone := h.gone ++ (h.tree.taken id).map (·.id) }).Perm h.ids := by
  simp only [ids]
  rw [List.append_assoc, ← List.map_append]
  exact ((List.filter_append_perm _ h.tree.nodes).map _).append_left h.gone

theorem Numbered.join {h : History} (numbered : h.Numbered) (few : h.made + 1 < Counter.top.toNat) {n : Node}
    (label : n.id = Counter.label "node" h.tree.next) :
    Numbered { h with tree := h.tree.withNode n, made := h.made + 1 } := by
  have unsaturated : h.tree.next ≠ Counter.top := by
    intro same
    have last := congrArg UInt64.toNat same
    have next := numbered.next
    omega
  have next := Counter.next_toNat unsaturated
  have seen : ids { h with tree := h.tree.withNode n, made := h.made + 1 } =
      h.ids ++ [Counter.label "node" h.tree.next] := by
    simp [ids, Tree.withNode, label]
  have issued := numbered.issued.push unsaturated
  rw [← seen] at issued
  refine ⟨?_, issued.apart, issued.behind⟩
  change (Counter.next h.tree.next).toNat = h.made + 1 + 1
  rw [next, numbered.next]

theorem Numbered.turn {h next : History} (numbered : h.Numbered) (turn : h.Turn next)
    (few : next.made < Counter.top.toNat) : next.Numbered := by
  cases turn with
  | keep => exact numbered
  | join label joins => exact numbered.join few label
  | rewrite now id content =>
    have same := h.ids_rewritten now id content
    exact ⟨numbered.next, same ▸ numbered.apart, same ▸ numbered.below⟩
  | @drop id _ =>
    have seen := h.ids_without id
    exact ⟨numbered.next, seen.nodup_iff.mpr numbered.apart, fun k used => numbered.below k (seen.mem_iff.mp used)⟩

theorem made_le_of_turn {h next : History} (turn : h.Turn next) : h.made ≤ next.made := by
  cases turn with
  | keep | rewrite | drop => exact Nat.le_refl _
  | join => exact Nat.le_succ _

/-- No number makes one of the ids that a tree starts with: they begin with other letters. -/
private theorem label_ne_of_head {id : String} (other : id.toList.head? ≠ some 'n') (k : UInt64) :
    Counter.label "node" k ≠ id := by
  rintro rfl
  exact other (by simp [Counter.label])

private theorem numbered_start {t : Tree} (first : t.next = 1) (apart : (t.nodes.map (·.id)).Nodup)
    (others : ∀ id ∈ t.nodes.map (·.id), id.toList.head? ≠ some 'n') : (start t).Numbered := by
  refine ⟨by simp [start, first], apart, ?_⟩
  intro k used
  exact absurd rfl (label_ne_of_head (others _ used) k)

theorem Grown.numbered {h : History} (grown : h.Grown) (few : h.made < Counter.top.toNat) : h.Numbered := by
  induction grown with
  | seeded now =>
    have ids : (Tree.seeded now).nodes.map (·.id) =
        ["root", "system", "library", "ui", "components", "documents", "scripts", "sample-script"] := rfl
    exact numbered_start rfl (ids ▸ by decide) (ids ▸ by decide)
  | empty now =>
    have ids : (Tree.empty now).nodes.map (·.id) = ["root"] := rfl
    exact numbered_start rfl (ids ▸ by decide) (ids ▸ by decide)
  | @step h now request _ ih =>
    have turn := h.step_turn now request
    have before := ih (Nat.lt_of_le_of_lt (made_le_of_turn turn) few)
    exact before.turn turn few

/-- No id is given twice as long as at most as many nodes were made as there are numbers for, the last number
    included. -/
theorem Grown.apart {h : History} (grown : h.Grown) (few : h.made ≤ Counter.top.toNat) : h.ids.Nodup := by
  have none : 0 < Counter.top.toNat := by decide
  induction grown with
  | seeded now => exact ((Grown.seeded now).numbered none).apart
  | empty now => exact ((Grown.empty now).numbered none).apart
  | @step h now request grown ih =>
    have turn := h.step_turn now request
    have before := ih (Nat.le_trans (made_le_of_turn turn) few)
    revert few
    generalize h.step now request = next at turn
    intro few
    cases turn with
    | keep => exact before
    | @join n label joins =>
      have seen : ids { h with tree := h.tree.withNode n, made := h.made + 1 } =
          h.ids ++ [Counter.label "node" h.tree.next] := by
        simp [ids, Tree.withNode, label]
      rw [seen, ← List.concat_eq_append, List.nodup_concat]
      exact ⟨(grown.numbered few).fresh, before⟩
    | rewrite now id content => exact h.ids_rewritten now id content ▸ before
    | @drop id _ => exact (h.ids_without id).nodup_iff.mpr before

theorem Grown.nodesApart {h : History} (grown : h.Grown) (few : h.made ≤ Counter.top.toNat) :
    (h.tree.nodes.map (·.id)).Nodup :=
  (grown.apart few).of_append_right

theorem afterCreation_tree (h : History) (result : Tree × Except Fault Node) :
    (h.afterCreation result).tree = result.1 := by
  rcases result with ⟨tree, _ | _⟩ <;> rfl

theorem afterCreation_made (h : History) (result : Tree × Except Fault Node) :
    (h.afterCreation result).made = if result.2.isOk then h.made + 1 else h.made := by
  rcases result with ⟨tree, _ | _⟩ <;> rfl

/-- Just the root is left, and a number is the next. -/
def wornTree (next : UInt64) : Tree := { nodes := [rootNode 0], next }

/-- A folder that is made and deleted leaves nothing but a number that is used up. -/
private theorem wear {h : History} {n : UInt64} (worn : h.tree = wornTree n) :
    let later := (h.step 0 (.createFolder none "a")).step 0 (.delete (Counter.label "node" n))
    later.tree = wornTree (Counter.next n) ∧ later.made = h.made + 1 := by
  have unlike : Counter.label "node" n ≠ rootId := label_ne_of_head (by decide) n
  have trimmed : Text.trim "a" = "a" := by decide +kernel
  have free : ¬ Path.root = Path.child Path.root "a" := by decide +kernel
  obtain ⟨d, folder⟩ : ∃ d, d = (wornTree n).newNode 0 (rootNode 0) "a" .folder := ⟨_, rfl⟩
  have created : (wornTree n).createFolder 0 none "a" = ((wornTree n).withNode d, .ok d) := by
    simp [folder, wornTree, Tree.createFolder, Tree.create, trimmed, Tree.isInvalidName, Tree.byId?, rootNode,
      seedFolder, Node.isFolder, free, Tree.newNode, Tree.withNode]
  have deleted : ((wornTree n).withNode d).delete d.id = (wornTree (Counter.next n), .ok [d.id]) := by
    have alone : Tree.withBelow [d.id] [d.id] ((wornTree n).withNode d).nodes = [d.id] := by
      simp [folder, Tree.withBelow, Tree.idsIn, Tree.besides, rootNode, seedFolder, Tree.newNode, Tree.withNode,
        wornTree, unlike.symm]
    simp only [Tree.delete, alone]
    simp [folder, wornTree, Tree.withNode, Tree.newNode, rootNode, seedFolder, unlike, unlike.symm]
  have numbered : d.id = Counter.label "node" n := by rw [folder]; rfl
  rw [numbered] at deleted
  simp [step, worn, created, afterCreation, deleted]

/-- Every number is the next one after some requests. -/
private theorem exists_worn (count : Nat) (few : count < Counter.top.toNat) :
    ∃ (h : History) (n : UInt64), h.Grown ∧ h.made = count ∧ h.tree = wornTree n ∧ n.toNat = count + 1 := by
  induction count with
  | zero => exact ⟨start (.empty 0), 1, .empty 0, rfl, rfl, rfl⟩
  | succ count ih =>
    obtain ⟨h, n, grown, made, worn, number⟩ := ih (Nat.lt_of_succ_lt few)
    obtain ⟨later, more⟩ := wear worn
    have below : n ≠ Counter.top := by
      intro same
      rw [← number, same] at few
      exact Nat.lt_irrefl _ few
    exact ⟨_, Counter.next n, .step 0 _ (.step 0 _ grown), by rw [more, made], later,
      by rw [Counter.next_toNat below, number]⟩

/-- All numbers can be given to nodes, the last one to a folder that stands alone in the root. -/
theorem exists_lastGiven : ∃ h : History, h.Grown ∧ h.made = 18446744073709551615 ∧
    h.tree = ((wornTree Counter.top).createFolder 0 none "x").1 := by
  obtain ⟨h, n, grown, made, worn, number⟩ := exists_worn 18446744073709551614 (by decide)
  obtain rfl : n = Counter.top := UInt64.toNat_inj.mp number
  refine ⟨h.step 0 (.createFolder none "x"), .step 0 _ grown, ?_, ?_⟩
  · have accepted : ((wornTree Counter.top).createFolder 0 none "x").2.isOk = true := by decide +kernel
    simp only [step, afterCreation_made, worn, made]
    rw [if_pos accepted]
  · simp only [step, afterCreation_tree, worn]

end History

/-- The root comes first and is the only node outside of folders. Each other node has a proper name
    and stands after its folder, whose path it goes on from. No node was changed before it was made. -/
structure Nested (nodes : List Node) : Prop where
  root : ∃ made rest, nodes = rootNode made :: rest ∧ ∀ n ∈ rest, n.parent.isSome = true
  placed : ∀ n ∈ nodes, ∀ id, n.parent = some id → Path.Proper n.name ∧
    ∃ folder, [folder, n].Sublist nodes ∧ folder.id = id ∧ folder.isFolder = true ∧
      n.path = Path.child folder.path n.name
  timed : ∀ n ∈ nodes, n.created ≤ n.modified

namespace Nested
variable {nodes : List Node}

theorem first (now : UInt64) : Nested [rootNode now] := by
  refine ⟨⟨now, [], rfl, by simp⟩, ?_, ?_⟩
  · intro n member id inside
    obtain rfl := List.mem_singleton.mp member
    simp [rootNode, seedFolder] at inside
  · intro n member
    obtain rfl := List.mem_singleton.mp member
    exact UInt64.le_refl _

theorem join {n : Node} (nested : Nested nodes) (joins : Joins nodes n) : Nested (nodes ++ [n]) := by
  obtain ⟨folder, old, isFolder, inside, path⟩ := joins.placed
  refine ⟨?_, ?_, ?_⟩
  · obtain ⟨made, rest, begins, others⟩ := nested.root
    refine ⟨made, rest ++ [n], by rw [begins, List.cons_append], ?_⟩
    intro m member
    rcases List.mem_append.mp member with earlier | last
    · exact others m earlier
    · rw [List.mem_singleton.mp last, inside]
      rfl
  · intro m member id parent
    rcases List.mem_append.mp member with earlier | last
    · obtain ⟨proper, above, order, rest⟩ := nested.placed m earlier id parent
      exact ⟨proper, above, order.trans (List.sublist_append_left nodes [n]), rest⟩
    · obtain rfl := List.mem_singleton.mp last
      have order : [folder, m].Sublist (nodes ++ [m]) :=
        (List.singleton_sublist.mpr old).append (List.Sublist.refl [m])
      exact ⟨joins.named, folder, order, Option.some.inj (inside.symm.trans parent), isFolder, path⟩
  · intro m member
    rcases List.mem_append.mp member with earlier | last
    · exact nested.timed m earlier
    · exact List.mem_singleton.mp last ▸ joins.timed

/-- Later stages of nodes are nested as the nodes were. -/
theorem map {later : Node → Node} (nested : Nested nodes) (continues : ∀ n : Node, n.Continues (later n)) :
    Nested (nodes.map later) := by
  refine ⟨?_, ?_, ?_⟩
  · obtain ⟨made, rest, begins, others⟩ := nested.root
    have same : later (rootNode made) = rootNode made := (continues _).folder rfl
    refine ⟨made, rest.map later, by rw [begins, List.map_cons, same], ?_⟩
    intro m member
    obtain ⟨n, old, rfl⟩ := List.mem_map.mp member
    rw [(continues n).parent]
    exact others n old
  · intro m member id parent
    obtain ⟨n, old, rfl⟩ := List.mem_map.mp member
    rw [(continues n).parent] at parent
    obtain ⟨proper, folder, order, named, isFolder, path⟩ := nested.placed n old id parent
    rw [(continues n).name, (continues n).path]
    refine ⟨proper, later folder, order.map later, ?_, ?_, ?_⟩
    · rw [(continues folder).id, named]
    · rw [(continues folder).isFolder, isFolder]
    · rw [(continues folder).path, path]
  · intro m member
    obtain ⟨n, old, rfl⟩ := List.mem_map.mp member
    rw [(continues n).created]
    exact UInt64.le_trans (nested.timed n old) (continues n).modified

theorem rewritten {t : Tree} (nested : Nested t.nodes) (apart : (t.nodes.map (·.id)).Nodup) (now : UInt64)
    (id content : String) : Nested (t.rewritten now id content).nodes := by
  rw [Tree.rewritten, changeFirst_eq_map apart]
  refine nested.map fun n => ?_
  by_cases named : n.id = id
  · rw [if_pos named]
    exact Tree.continues_withContent now content n
  · rw [if_neg named]
    exact .refl n

/-- Nothing has the root in it. -/
theorem eq_root_of_reaches (nested : Nested nodes) (apart : (nodes.map (·.id)).Nodup) {top : String}
    (reaches : Tree.Reaches nodes top rootId) : top = rootId := by
  generalize target : rootId = id at reaches
  cases reaches with
  | here => rfl
  | @inside folder n _ member placed =>
    obtain ⟨made, rest, begins, _⟩ := nested.root
    have listed : rootNode made ∈ nodes := begins ▸ List.mem_cons_self
    have same : n = rootNode made := List.inj_on_of_nodup_map apart member listed target.symm
    rw [same] at placed
    simp [rootNode, seedFolder] at placed

/-- Nodes stay nested when some go, if the root stays and no folder goes without what is in it. -/
theorem filter {stays : Node → Bool} (nested : Nested nodes) (root : ∀ made, stays (rootNode made) = true)
    (along : ∀ n ∈ nodes, ∀ folder ∈ nodes, n.parent = some folder.id → stays n = true → stays folder = true) :
    Nested (nodes.filter stays) := by
  refine ⟨?_, ?_, ?_⟩
  · obtain ⟨made, rest, begins, others⟩ := nested.root
    refine ⟨made, rest.filter stays, by rw [begins, List.filter_cons_of_pos (root made)], ?_⟩
    exact fun n member => others n (List.mem_of_mem_filter member)
  · intro n member id parent
    obtain ⟨old, kept⟩ := List.mem_filter.mp member
    obtain ⟨proper, folder, order, named, rest⟩ := nested.placed n old id parent
    have folderKept : stays folder = true :=
      along n old folder (order.subset (by simp)) (parent.trans (congrArg some named.symm)) kept
    have order' : [folder, n].Sublist (nodes.filter stays) := by
      have both := order.filter stays
      rwa [List.filter_cons_of_pos folderKept, List.filter_cons_of_pos kept, List.filter_nil] at both
    exact ⟨proper, folder, order', named, rest⟩
  · exact fun n member => nested.timed n (List.mem_of_mem_filter member)

theorem without {t : Tree} (nested : Nested t.nodes) (apart : (t.nodes.map (·.id)).Nodup) {id : String}
    (other : id ≠ rootId) : Nested (t.without id).nodes := by
  have stays_iff (n : Node) :
      (!(Tree.withBelow [id] [id] t.nodes).contains n.id) = true ↔ ¬ Tree.Reaches t.nodes id n.id := by
    simp [Tree.mem_withBelow_iff]
  refine nested.filter ?_ ?_
  · intro made
    rw [stays_iff]
    exact fun reaches => other (nested.eq_root_of_reaches apart reaches)
  · intro n member folder _ inside kept
    rw [stays_iff] at kept ⊢
    exact fun reaches => kept (.inside reaches member inside)

theorem turn {h next : History} (nested : Nested h.tree.nodes) (apart : (h.tree.nodes.map (·.id)).Nodup)
    (turn : h.Turn next) : Nested next.tree.nodes := by
  cases turn with
  | keep => exact nested
  | join _ joins => exact nested.join joins
  | rewrite now id content => exact nested.rewritten apart now id content
  | drop other => exact nested.without apart other

end Nested

/-- The content of a file. -/
def Node.content? (n : Node) : Option String :=
  match n.body with
  | .folder => none
  | .file content _ => some content

theorem Node.isSome_content? (n : Node) : n.content?.isSome = !n.isFolder := by
  unfold content? isFolder
  cases n.body <;> rfl

/-- The nodes of a tree are nested, and told apart by their ids and by their paths. The files are what
    has content. -/
structure Tree.Arranged (t : Tree) : Prop extends Nested t.nodes where
  ids : (t.nodes.map (·.id)).Nodup
  paths : (t.nodes.map (·.path)).Nodup
  contents : ∀ n ∈ t.nodes, n.content?.isSome = !n.isFolder

namespace History

theorem Grown.nested {h : History} (grown : h.Grown) (few : h.made ≤ Counter.top.toNat) :
    Nested h.tree.nodes := by
  induction grown with
  | seeded now => exact (Tree.seeded_joinInTurn now).keeps Nested.join (.first now)
  | empty now => exact .first now
  | @step h now request grown ih =>
    have turn := h.step_turn now request
    have before := Nat.le_trans (made_le_of_turn turn) few
    exact (ih before).turn (grown.nodesApart before) turn

/-- Whatever is asked of a tree, and whatever the clock shows meanwhile, the tree is arranged as long
    as fewer nodes were made than there are numbers for. No id is in it twice, or in it again after it
    was deleted, and one that is given to a new node was never there before. -/
theorem Grown.arranged {h : History} (grown : h.Grown) (few : h.made < Counter.top.toNat) :
    h.tree.Arranged ∧ (h.gone ++ h.tree.nodes.map (·.id)).Nodup ∧
      ∀ now folder name body next n, h.tree.create now folder name body = (next, .ok n) →
        n.id ∉ h.gone ++ h.tree.nodes.map (·.id) := by
  have numbered := grown.numbered few
  have nested := grown.nested (Nat.le_of_lt few)
  refine ⟨⟨nested, grown.nodesApart (Nat.le_of_lt few), grown.charted.apart, ?_⟩, numbered.apart, ?_⟩
  · exact fun n _ => n.isSome_content?
  · intro now folder name body next n created
    rw [(Tree.create_eq_ok created).1]
    exact numbered.fresh

/-- A folder is deleted with the file in it, which was changed while the clock went back; a file of
    the same name gets another id. -/
theorem Grown.arranged_again :
    let made := ((start (.seeded 9)).step 5 (.createFolder "documents" " notes ")).step 4
      (.createFile "node-1" "todo.txt" "first")
    let changed := made.step 2 (.update "node-2" "second")
    let h := (changed.step 1 (.delete "node-1")).step 8 (.createFile none "todo.txt" "")
    h.made = 3 ∧ h.gone = ["node-1", "node-2"] ∧ changed.tree.Arranged ∧ h.tree.Arranged ∧
      (h.gone ++ h.tree.nodes.map (·.id)).Nodup := by
  intro made changed h
  have grownChanged : changed.Grown := .step 2 _ (.step 4 _ (.step 5 _ (.seeded 9)))
  have grown : h.Grown := .step 8 _ (.step 1 _ grownChanged)
  have some : h.made = 3 := by decide +kernel
  have arranged := grown.arranged (by rw [some]; decide)
  exact ⟨some, by decide +kernel, (grownChanged.arranged (by decide +kernel)).1, arranged.1, arranged.2.1⟩

end History

end DesktopShell.Files
