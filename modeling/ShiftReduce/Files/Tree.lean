import ShiftReduce.Files.Failure

/-!
# File trees

A *file tree* is what a directory holds: files and directories by their paths.
A directory on the way to an entry need not be an entry itself.

A path is walked name by name from the directory of the tree.  The empty name
and `.` stay where they are, and `..` goes up.  Nothing may follow a file, not
even an empty name, so a path to a file does not end with a slash.  What lies
above the tree is known to be directories and nothing more.  A path that starts
with a slash starts up there.
-/

namespace ShiftReduce

/-- What a path of a file tree leads to. -/
inductive FileNode where
  | file (bytes : ByteArray)
  | directory

/-- The entries of a directory tree by their paths, name by name. -/
structure FileTree where
  entries : List (List String × FileNode)

/-- Where a walk is. -/
inductive Place where
  /-- In a directory above the tree. -/
  | above
  /-- At the end of a path of the tree. -/
  | inside (path : List String)

/-- The names of a path, the empty ones included. -/
def pathNames (path : String) : List String := (path.toList.splitOn '/').map String.ofList

/-- The longest name that a file system takes, in bytes. -/
def maxNameSize : Nat := 255

namespace FileTree

/-- The file tree with the given entries. -/
def ofList (entries : List (String × FileNode)) : FileTree :=
  ⟨entries.map fun entry => ((pathNames entry.1).filter fun name => !name.isEmpty, entry.2)⟩

/-- The node at a path of the tree. -/
def node? (tree : FileTree) (path : List String) : Option FileNode :=
  match tree.entries.lookup path with
  | some node => some node
  | none => if tree.entries.any fun entry => path.isPrefixOf entry.1 then some .directory else none

/-- The bytes of the file at a place, if it is a file. -/
def fileAt? (tree : FileTree) : Place → Option ByteArray
  | .above => none
  | .inside path =>
    match tree.node? path with
    | some (.file bytes) => some bytes
    | _ => none

/-- The place of a name in the directory at a place. -/
def child? (tree : FileTree) (name : String) : Place → Option Place
  | .above => none
  | .inside path => (tree.node? (path ++ [name])).map fun _ => .inside (path ++ [name])

/-- Walks on from a place. -/
def walk (tree : FileTree) : List String → Place → Except ReadFailure Place
  | [], place => .ok place
  | name :: rest, place =>
    if (tree.fileAt? place).isSome then .error .notADirectory
    else if name = "" ∨ name = "." then tree.walk rest place
    else if name = ".." then tree.walk rest (parent place)
    else if maxNameSize < name.utf8ByteSize then .error .nameTooLong
    else
      match tree.child? name place with
      | some next => tree.walk rest next
      | none => .error .notFound
where
  /-- The directory that holds a place. -/
  parent : Place → Place
    | .above | .inside [] => .above
    | .inside path => .inside path.dropLast

/-- The text of the file that a path leads to. -/
def read (tree : FileTree) (path : String) : Except ReadFailure String :=
  if '\u0000' ∈ path.toList then .error .nulInPath
  else if path = "" then .error .notFound
  else do
    let start := if path.toList.head? = some '/' then Place.above else .inside []
    let place ← tree.walk (pathNames path) start
    match tree.fileAt? place with
    | none => .error .isADirectory
    | some bytes =>
      match String.fromUTF8? bytes with
      | none => .error .notUtf8
      | some text => .ok text

end FileTree

end ShiftReduce
