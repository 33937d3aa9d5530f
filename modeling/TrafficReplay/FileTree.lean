/-
# File trees

A tree of directories and files as a value. Paths are resolved the way an operating system does:
relative to the working directory or from the root, `.` and `..` included, and every component that
is passed through has to be a directory. A file may fail when it is opened or while it is read, and
a directory when its names are listed. A tree does not change; writing gives a new tree, so whoever
has opened a file keeps the contents that it had then.

There are no links in a tree, every directory can be passed through, and a file that can be opened
for writing takes all that is written to it. Only devices refuse some of it.
-/
import TrafficReplay.Fault
import TrafficReplay.Text.Pieces
import TrafficReplay.Text.Utf8

namespace TrafficReplay

/-- Files with a behaviour of their own. -/
inductive Device
  /-- Empty to readers; swallows what is written. -/
  | null
  /-- Has room for nothing. -/
  | full
  /-- The standard output of the program that opens it. -/
  | standardOutput
  /-- The standard error of the program that opens it. -/
  | standardError
  deriving Repr, DecidableEq

/-- A file, a device, or a directory with its entries. -/
inductive Node
  | file (contents : Bytes)
  /-- A file that cannot be opened. -/
  | locked (fault : Fault)
  /-- A file that cannot be read beyond these bytes. A program that unpacks them has not handed on
  `withheld` of those that it gets when it meets the fault. -/
  | damaged (contents : Bytes) (fault : Fault) (withheld : Nat)
  | device (device : Device)
  | directory (entries : List (String × Node))
  /-- A directory whose names cannot be listed, though each of them leads to its entry. -/
  | unlisted (entries : List (String × Node)) (fault : Fault)
  deriving Repr

namespace Node

def isDirectory : Node → Bool
  | directory _ | unlisted _ _ => true
  | _ => false

def entries : Node → List (String × Node)
  | directory entries | unlisted entries _ => entries
  | _ => []

/-- The node as a directory with these entries; it is listed unless it could not be before. -/
def withEntries (entries : List (String × Node)) : Node → Node
  | unlisted _ fault => unlisted entries fault
  | _ => directory entries

/-- The names in a directory, in ascending order of their bytes. -/
def names : Node → Except Fault (List String)
  | unlisted _ fault => .error fault
  | node => .ok ((node.entries.map (·.1)).mergeSort (fun a b => a ≤ b))

def child? (node : Node) (name : String) : Option Node :=
  (node.entries.find? (·.1 == name)).map (·.2)

def find? (node : Node) : List String → Option Node
  | [] => some node
  | name :: names => (node.child? name).bind (·.find? names)

/-- Replaces the entry of that name, or adds it at the end. -/
def put (name : String) (new : Node) : List (String × Node) → List (String × Node)
  | [] => [(name, new)]
  | entry :: entries =>
    if entry.1 = name then (name, new) :: entries else entry :: put name new entries

/-- Places `new` at the end of a row of names; directories that are missing on the way are created,
and what stands in the way is replaced. -/
def insert (new : Node) : List String → Node → Node
  | [], _ => new
  | name :: names, node =>
    node.withEntries
      (put name (insert new names ((node.child? name).getD (directory []))) node.entries)

/-- Takes away what stands at the end of a row of names. -/
def remove : List String → Node → Node
  | [], node => node
  | [name], node => node.withEntries (node.entries.filter (·.1 != name))
  | name :: names, node =>
    match node.child? name with
    | none => node
    | some child => node.withEntries (put name (remove names child) node.entries)

mutual

def height : Node → Nat
  | directory entries | unlisted entries _ => heightOfEntries entries + 1
  | _ => 0

/-- The greatest height among the entries of a directory. -/
def heightOfEntries : List (String × Node) → Nat
  | [] => 0
  | (_, node) :: entries => max node.height (heightOfEntries entries)

end

end Node

/-- All files that a program can see, and the names that lead from the root to its working
directory. -/
structure FileTree where
  root : Node
  home : List String
  deriving Repr

namespace FileTree

def place (tree : FileTree) (names : List String) (node : Node) : FileTree :=
  { tree with root := Node.insert node names tree.root }

/-- The components of a path: what stands between its slashes. -/
def components (path : String) : List String :=
  (pieces (· = '/') path.toList).map String.ofList

/-- Whether the component stays where it is: an empty one or a single dot. -/
def staysPut (component : String) : Bool :=
  component = "" || component = "."

/-- The longest name, in bytes, that a directory can hold. -/
def longestName : Nat := 255

/-- The length, in bytes, from which on a path is refused. -/
def longestPath : Nat := 4096

/-- Follows components from the directory at `here`, a row of names from the root. -/
def follow (tree : FileTree) (here : List String) : List String → Except Fault (List String)
  | [] => .ok here
  | component :: rest =>
    match tree.root.find? here with
    | none => .error .notFound
    | some node =>
      if !node.isDirectory then .error .notDirectory
      else if staysPut component then tree.follow here rest
      else if component = ".." then tree.follow here.dropLast rest
      else if longestName < component.utf8ByteSize then .error .nameTooLong
      else if (tree.root.find? (here ++ [component])).isSome then
        tree.follow (here ++ [component]) rest
      else .error .notFound

/-- Where the path starts: at the root or in the working directory. -/
def startOf (tree : FileTree) (path : String) : List String :=
  if path.toList.head? = some '/' then [] else tree.home

/-- What rules a path out before any directory is looked at. -/
def refusal? (path : String) : Option Fault :=
  if path.toList.contains (Char.ofNat 0) then some .nulInName
  else if path = "" then some .notFound
  else if longestPath ≤ path.utf8ByteSize then some .nameTooLong
  else none

/-- The row of names from the root that a path stands for. -/
def locate (tree : FileTree) (path : String) : Except Fault (List String) :=
  match refusal? path with
  | some fault => .error fault
  | none => tree.follow (tree.startOf path) (components path)

def lookup (tree : FileTree) (path : String) : Except Fault Node := do
  let names ← tree.locate path
  match tree.root.find? names with
  | some node => .ok node
  | none => .error .notFound

def contains (tree : FileTree) (path : String) : Bool :=
  match tree.lookup path with
  | .ok _ => true
  | .error _ => false

def isDirectory (tree : FileTree) (path : String) : Bool :=
  match tree.lookup path with
  | .ok node => node.isDirectory
  | .error _ => false

def namesIn (tree : FileTree) (path : String) : Except Fault (List String) := do
  (← tree.lookup path).names

/-- The names on the way of a path without those that stay put. -/
def plainNames (path : String) : List String :=
  (components path).filter fun component => !staysPut component

/-- Creates the directories of a row of names from `here` on, as far as nothing else stands in the
way. -/
def makeDirectories (tree : FileTree) (here : List String) : List String → FileTree
  | [] => tree
  | name :: names =>
    match tree.follow here [name] with
    | .ok there => tree.makeDirectories there names
    | .error .notFound =>
      if (tree.root.find? here).isSome then
        (tree.place (here ++ [name]) (.directory [])).makeDirectories (here ++ [name]) names
      else tree
    | .error _ => tree

/-- Creates the directory that a path names, and its parents. -/
def makeDirectory (tree : FileTree) (path : String) : FileTree :=
  tree.makeDirectories (tree.startOf path) (plainNames path)

/-- Creates or replaces the file that a path names, and its parents where they are missing. -/
def write (tree : FileTree) (path : String) (contents : Bytes) : FileTree :=
  tree.place (tree.startOf path ++ plainNames path) (.file contents)

def remove (tree : FileTree) (path : String) : FileTree :=
  match tree.locate path with
  | .ok names => { tree with root := Node.remove names tree.root }
  | .error _ => tree

/-- A file opened for writing: a place in the tree, or a device. -/
inductive Sink
  | file (names : List String)
  | device (device : Device)
  deriving Repr, DecidableEq

/-- Opens a file for writing: one that exists is emptied, one that does not is created, and a path
that ends like a directory is refused. -/
def openForWriting (tree : FileTree) (path : String) : Except Fault (Sink × FileTree) :=
  match refusal? path with
  | some fault => .error fault
  | none => do
    let parts := components path
    let names := (parts.reverse.dropWhile (· = "")).reverse
    let parent ← tree.follow (tree.startOf path) (names.dropLast ++ ["."])
    let name := names.getLastD ""
    if parts.getLast? = some "" ∨ staysPut name ∨ name = ".." then .error .isDirectory
    else match tree.follow parent [name] with
      | .error .notFound => .ok (.file (parent ++ [name]), tree.place (parent ++ [name]) (.file []))
      | .error fault => .error fault
      | .ok names =>
        match tree.root.find? names with
        | some (.device device) => .ok (.device device, tree)
        | some (.locked fault) => .error fault
        | some (.directory _) | some (.unlisted _ _) => .error .isDirectory
        | _ => .ok (.file names, tree.place names (.file []))

def Sink.append (sink : Sink) (bytes : Bytes) (tree : FileTree) : FileTree :=
  match sink with
  | .device _ => tree
  | .file names =>
    match tree.root.find? names with
    | some (.file contents) => tree.place names (.file (contents ++ bytes))
    | _ => tree

def contents? (tree : FileTree) (path : String) : Option Bytes :=
  match tree.lookup path with
  | .ok (.file contents) => some contents
  | _ => none

end FileTree

end TrafficReplay
