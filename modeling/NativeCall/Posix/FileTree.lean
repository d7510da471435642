import NativeCall.Posix.Errno

/-!
Files and directories by path. A path is followed name by name from a directory; what is not a
directory cannot be gone through.
-/

set_option autoImplicit false
set_option relaxedAutoImplicit false

namespace NativeCall.Posix

/-- A file with its bytes, or a directory with its entries in the order in which they are read. -/
inductive FileTree where
  | file (content : List UInt8)
  | directory (entries : List (String × FileTree))

namespace FileTree

def longestName : Nat := 255

def longestPath : Nat := 4095

def lookup (name : String) (entries : List (String × FileTree)) : Except Errno FileTree :=
  if longestName < name.utf8ByteSize then .error .nameTooLong
  else
    match entries.lookup name with
    | some node => .ok node
    | none => .error .noEntry

/-- Follows names from a node. The nodes above it are kept, the nearest first, for the name of the
parent; the parent of the topmost directory is that directory. -/
def walk (above : List FileTree) (here : FileTree) : List String → Except Errno FileTree
  | [] => .ok here
  | name :: names =>
    match here with
    | file _ => .error .notDirectory
    | directory entries =>
      if name = "" ∨ name = "." then walk above here names
      else if name = ".." then
        match above with
        | [] => walk [] here names
        | parent :: above => walk above parent names
      else
        match lookup name entries with
        | .ok node => walk (here :: above) node names
        | .error e => .error e

/-- What a path leads to from the working directory. The empty path leads nowhere, and a path that
begins with a slash starts at the top of the tree, above the working directory. -/
def resolve (working : FileTree) (path : String) : Except Errno FileTree :=
  let top := directory [("", working)]
  if path = "" then .error .noEntry
  else if longestPath < path.utf8ByteSize then .error .nameTooLong
  else
    match path.splitOn "/" with
    | "" :: names => walk [] top names
    | names => walk [top] working names

def read (working : FileTree) (path : String) : Except Errno (List UInt8) := do
  match ← resolve working path with
  | file content => return content
  | directory _ => throw .isDirectory

def names (working : FileTree) (path : String) : Except Errno (List String) := do
  match ← resolve working path with
  | file _ => throw .notDirectory
  | directory entries => return "." :: ".." :: entries.map Prod.fst

def nested (node : FileTree) : List String → FileTree
  | [] => node
  | name :: names => directory [(name, nested node names)]

mutual

/-- Puts a node at a path of names. Directories on the way are made if need be, and what is there
already stays. -/
def insert (node : FileTree) : List String → FileTree → FileTree
  | [], here => here
  | _ :: _, file content => file content
  | name :: names, directory entries => directory (insertAt node name names entries)

def insertAt (node : FileTree) (name : String) (names : List String) :
    List (String × FileTree) → List (String × FileTree)
  | [] => [(name, nested node names)]
  | (n, here) :: entries =>
    if n = name then (n, insert node names here) :: entries
    else (n, here) :: insertAt node name names entries

end

def ofPaths (directories files : List String) : FileTree :=
  let names (path : String) := (path.splitOn "/").filter (· ≠ "")
  let withDirectories := directories.foldl
    (fun tree path => insert (directory []) (names path) tree) (directory [])
  files.foldl (fun tree path => insert (file []) (names path) tree) withDirectories

end FileTree

end NativeCall.Posix
