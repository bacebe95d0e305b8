import DesktopShell.Sequence
import DesktopShell.Text

/-!
# The tree of files

Folders and files in the order in which they were made. Each node but the root
knows its folder, and its path is its folder's path with its own name. A path may be
written with either slash, with dots, and from anywhere; all such paths mean the place
seen from the root. What a change refuses is a `Files.Fault`. Every change gives the
tree after it beside its answer, also when it is refused.
-/
namespace DesktopShell.Path

def root : String := "/"

/-- A character between the names of a path. -/
def isSeparator (c : Char) : Bool := c == '/' || c == '\\'

/-- The way back to the root after one more part: a dot stays, two dots go back, and a name is
    the first on the way back from the place that it leads to. -/
def enter (back : List (List Char)) (part : List Char) : List (List Char) :=
  if part = [] ∨ part = ['.'] then back
  else if part = ['.', '.'] then back.tail
  else part :: back

/-- The names on the way from the root to the place that a path means. -/
def segments (path : List Char) : List (List Char) :=
  ((Text.parts isSeparator (Text.trimmed path)).foldl enter []).reverse

def names (path : String) : List String := (segments path.toList).map String.ofList

/-- The path of a child from the path of its folder. -/
def child (parent name : String) : String :=
  if parent = root then root ++ name else parent ++ "/" ++ name

/-- The stored form of a path. -/
def normalize (path : String) : String := (names path).foldl child root

end DesktopShell.Path

namespace DesktopShell.Files

/-- What a node is. -/
inductive Body where
  | folder
  | file (content : String) (extension : Option String)
deriving Repr, DecidableEq

structure Node where
  id : String
  name : String
  body : Body
  path : String
  /-- The id of the folder that the node is in; the root is in none. -/
  parent : Option String
  created : UInt64
  modified : UInt64
deriving Repr, DecidableEq

def Node.isFolder (n : Node) : Bool := n.body = .folder

/-- What follows the last point of a file name; a name that is a single point has nothing. -/
def extension? (name : String) : Option String :=
  let cs := name.toList
  let tail := (cs.reverse.takeWhile fun c => c != '.').reverse
  if tail.length = cs.length ∨ cs = ['.'] then none else some (String.ofList tail)

/-- Why a change is refused. -/
inductive Fault where
  | notFound (id : String)
  | parentNotFolder (id : String)
  | alreadyExists (path : String)
  | invalidName (name : String)
  | notAFile (path : String)
  | rootDelete
deriving Repr, DecidableEq

def Fault.message : Fault → String
  | .notFound id => "no such node `" ++ id ++ "`"
  | .parentNotFolder id => "parent `" ++ id ++ "` is not a folder"
  | .alreadyExists path => path ++ ": File exists"
  | .invalidName name => "invalid name `" ++ name ++ "`"
  | .notAFile path => path ++ ": Is a directory"
  | .rootDelete => "cannot delete the file system root"

/-- A tree of nodes in the order in which they were made. -/
structure Tree where
  nodes : List Node
  next : UInt64
deriving Repr, DecidableEq

def rootId : String := "root"

/-- A folder that comes with a tree. -/
def seedFolder (now : UInt64) (id name path : String) (parent : Option String) : Node :=
  { id, name, body := .folder, path, parent, created := now, modified := now }

def rootNode (now : UInt64) : Node := seedFolder now rootId Path.root Path.root none

def sampleScript : String :=
  Text.unlines
    ["// Sample Fluxo Script",
     "console.log:(\"Hello from Fluxo!\")",
     "",
     "// Window manipulation example",
     "local win = window(\"win-1\")",
     "win.move:(100, 100)",
     "win.resize:(800, 600)"]

namespace Tree

def empty (now : UInt64) : Tree := { nodes := [rootNode now], next := 1 }

/-- The tree that a desktop starts with. -/
def seeded (now : UInt64) : Tree :=
  { nodes :=
      [rootNode now,
       seedFolder now "system" "System" "/System" rootId,
       seedFolder now "library" "Library" "/System/Library" "system",
       seedFolder now "ui" "UI" "/System/Library/UI" "library",
       seedFolder now "components" "Components" "/System/Library/UI/Components" "ui",
       seedFolder now "documents" "Documents" "/Documents" rootId,
       seedFolder now "scripts" "Scripts" "/Documents/Scripts" "documents",
       { id := "sample-script"
         name := "hello.fxo"
         body := .file sampleScript "fxo"
         path := "/Documents/Scripts/hello.fxo"
         parent := "scripts"
         created := now
         modified := now }]
    next := 1 }

def byId? (t : Tree) (id : String) : Option Node := t.nodes.find? fun n => n.id = id

/-- The node at the place that a path means. -/
def byPath? (t : Tree) (path : String) : Option Node :=
  t.nodes.find? fun n => n.path = Path.normalize path

def children (t : Tree) (id : String) : List Node := t.nodes.filter fun n => n.parent = some id

def isInvalidName (name : String) : Bool :=
  name = "" || name.toList.contains '/' || name = "." || name = ".."

/-- Makes a node in a folder, the root if none is given. The name is trimmed, and `body` says what
    the node is from its name. -/
def create (t : Tree) (now : UInt64) (folder : Option String) (name : String)
    (body : String → Body) : Tree × Except Fault Node :=
  let name := Text.trim name
  if isInvalidName name then (t, .error (.invalidName name))
  else
    let parentId := folder.getD rootId
    match t.byId? parentId with
    | none => (t, .error (.notFound parentId))
    | some parent =>
      if !parent.isFolder then (t, .error (.parentNotFolder parentId))
      else
        let path := Path.child parent.path name
        if t.nodes.any fun n => n.path = path then (t, .error (.alreadyExists path))
        else
          let node : Node :=
            { id := Counter.label "node" t.next
              name
              body := body name
              path
              parent := parentId
              created := now
              modified := now }
          ({ nodes := t.nodes ++ [node], next := Counter.next t.next }, .ok node)

def createFile (t : Tree) (now : UInt64) (folder : Option String) (name content : String) :
    Tree × Except Fault Node :=
  t.create now folder name fun name => .file content (extension? name)

def createFolder (t : Tree) (now : UInt64) (folder : Option String) (name : String) :
    Tree × Except Fault Node :=
  t.create now folder name fun _ => .folder

/-- A file with new content; the time of its last change never goes back. -/
def withContent (now : UInt64) (content : String) (n : Node) : Node :=
  match n.body with
  | .folder => n
  | .file _ extension =>
    { n with body := .file content extension, modified := max now n.modified }

def update (t : Tree) (now : UInt64) (id content : String) : Tree × Except Fault Node :=
  match t.byId? id with
  | none => (t, .error (.notFound id))
  | some n =>
    if n.isFolder then (t, .error (.notAFile n.path))
    else
      let nodes := changeFirst (fun m => m.id = id) (withContent now content) t.nodes
      ({ t with nodes }, .ok (withContent now content n))

/-- The ids of the nodes that are directly in a folder. -/
def idsIn (folder : String) (nodes : List Node) : List String :=
  (nodes.filter fun n => n.parent = some folder).map (·.id)

/-- The nodes that are not directly in a folder. -/
def besides (folder : String) (nodes : List Node) : List Node :=
  nodes.filter fun n => !decide (n.parent = some folder)

theorem length_idsIn_besides (folder : String) (nodes : List Node) :
    (idsIn folder nodes).length + (besides folder nodes).length = nodes.length := by
  induction nodes with
  | nil => rfl
  | cons n rest ih =>
    by_cases inside : n.parent = some folder
    · simp [idsIn, besides, inside] at ih ⊢
      omega
    · simp [idsIn, besides, inside] at ih ⊢
      omega

/-- The ids in `found`, and the ids of all that is below the ids in `waiting` among nodes that are
    not found yet. -/
def withBelow (found : List String) : List String → List Node → List String
  | [], _ => found
  | folder :: waiting, nodes =>
    let inside := idsIn folder nodes
    withBelow (inside ++ found) (inside ++ waiting) (besides folder nodes)
termination_by waiting nodes => 2 * nodes.length + waiting.length
decreasing_by
  have split := length_idsIn_besides folder nodes
  simp only [List.length_append, List.length_cons]
  omega

/-- Deletes a node with everything in it, and gives the ids of what is gone. -/
def delete (t : Tree) (id : String) : Tree × Except Fault (List String) :=
  if id = rootId then (t, .error .rootDelete)
  else if !(t.nodes.any fun n => n.id = id) then (t, .error (.notFound id))
  else
    let doomed := withBelow [id] [id] t.nodes
    ({ t with nodes := t.nodes.filter fun n => !doomed.contains n.id },
      .ok ((t.nodes.filter fun n => doomed.contains n.id).map (·.id)))

end Tree

end DesktopShell.Files
