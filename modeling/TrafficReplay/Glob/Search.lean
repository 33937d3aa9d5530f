/-
# Files that match a pattern

A search walks the tree component by component. A component without wildcards is looked up, any
other one is compared with every name of a directory in ascending order, and `**` is compared with
nothing but goes down into every directory. Names with a leading dot match like all others, but `.`
and `..` match only a component that starts with a dot. `Glob.search` lists what it finds in the
order of the walk: the paths that match, each one spelled the way the pattern leads to it, and the
directories in its way whose names it cannot list. A directory is listed as a whole or not at all.
-/
import TrafficReplay.FileTree
import TrafficReplay.Glob.Pattern

namespace TrafficReplay.Glob

/-- One component of a pattern. -/
structure Component where
  tokens : List Token
  deriving Repr, DecidableEq

namespace Component

def isRecursive (component : Component) : Bool :=
  component.tokens.contains .anyDirectories

/-- Whether the component stands for the name. -/
def accepts (component : Component) (name : String) : Bool :=
  Glob.accepts component.tokens name.toList

/-- The one name that a component without wildcards stands for. -/
def literal? (component : Component) : Option String :=
  (Glob.literal? component.tokens).map String.ofList

/-- Whether the component is open to `.` and `..`: those need a leading dot in the pattern. -/
def admitsDots (component : Component) : Bool :=
  component.tokens.head? = some (.char '.')

end Component

/-- A pattern made ready for the walk: where it starts, its components, and whether it asks for
directories. -/
structure Query where
  scope : String
  components : List Component
  directoriesOnly : Bool
  deriving Repr, DecidableEq

/-- Drops every component of that kind which directly follows another one. -/
def mergeRecursive : List Component → List Component
  | first :: second :: rest =>
    if first.isRecursive ∧ second.isRecursive then mergeRecursive (second :: rest)
    else first :: mergeRecursive (second :: rest)
  | components => components

/-- The texts of a pattern's components: a slash at the end starts no further one. -/
def componentTexts (pattern : List Char) : List (List Char) :=
  let texts := pieces (· = '/') pattern
  if texts.getLast? = some [] then texts.dropLast else texts

/-- Reads a pattern: first as a whole, so that an error in it is told by its place in the whole,
then component by component. -/
def Query.ofPattern (pattern : String) : Except PatternError Query := do
  let text := pattern.toList
  discard <| parse text
  let absolute := text.head? = some '/'
  let relative := if absolute then text.drop 1 else text
  let components ← (componentTexts relative).mapM fun text => return (⟨← parse text⟩ : Component)
  return {
    scope := if absolute then "/" else "."
    components := mergeRecursive (if relative = [] then [⟨[]⟩] else components)
    directoriesOnly := text.getLast? = some '/' }

/-- Whether the path is spelled with single dots alone, which is the working directory. -/
def isHere (path : String) : Bool :=
  (FileTree.components path).all (· = ".")

/-- The path of an entry of a directory: entries of the working directory are spelled without it. -/
def entryPath (directory name : String) : String :=
  if isHere directory then name else joined directory name
where
  /-- The path with a name behind it, one slash between them. -/
  joined (directory name : String) : String :=
    if directory.endsWith "/" then directory ++ name else directory ++ "/" ++ name

/-- The path of `.` or `..` in a directory, spelled out even for the working directory. -/
def dotPath (directory dots : String) : String :=
  entryPath.joined directory dots

/-- What a search comes upon. -/
inductive Finding
  /-- A path that matches. -/
  | path (path : String)
  /-- A directory whose names would have to be compared, and why they cannot be listed. -/
  | unlisted (path : String) (fault : Fault)
  deriving Repr, DecidableEq

/-- The path itself as an answer, unless the query asks for directories and it is none. -/
def answer (tree : FileTree) (query : Query) (path : String) : List Finding :=
  if query.directoriesOnly && !tree.isDirectory path then [] else [.path path]

mutual

/-- Searches the directory at `path` for what the components stand for. `depth` bounds how far down
`**` goes. -/
def descend (tree : FileTree) (query : Query) (depth : Nat) (path : String) :
    List Component → List Finding
  | [] => []
  | component :: rest =>
    match component.literal? with
    | some name =>
      let next := entryPath path name
      let found := if name = "." ∨ name = ".." then tree.isDirectory path else tree.contains next
      if found then proceed tree query next rest else []
    | none =>
      if tree.isDirectory path then
        match tree.namesIn path with
        | .error fault => [.unlisted path fault]
        | .ok names =>
          let dots := if component.admitsDots then ["..", "."].filter component.accepts else []
          dots.flatMap (fun name => proceed tree query (dotPath path name) rest) ++
            names.flatMap fun name =>
              visit tree query depth (entryPath path name) name component rest
      else []
termination_by components => (components.length, depth, 1)

/-- Goes on from a path that a component has led to: it is an answer if no component is left. -/
def proceed (tree : FileTree) (query : Query) (path : String) : List Component → List Finding
  | [] => answer tree query path
  | component :: rest => descend tree query tree.root.height path (component :: rest)
termination_by components => (components.length, tree.root.height, 2)

/-- Compares a directory's entry with a component. Below `**` the entry is compared with the next
component, and if it is a directory the same is done one level further down. -/
def visit (tree : FileTree) (query : Query) (depth : Nat) (path name : String)
    (component : Component)
    (rest : List Component) : List Finding :=
  if component.isRecursive then
    let here :=
      match rest with
      | [] => if tree.isDirectory path then [.path path] else []
      | next :: others => if next.accepts name then proceed tree query path others else []
    let below :=
      match depth with
      | 0 => []
      | depth + 1 =>
        if tree.isDirectory path then descend tree query depth path (component :: rest) else []
    here ++ below
  else if component.accepts name then proceed tree query path rest
  else []
termination_by (rest.length + 1, depth, 0)

end

/-- What the walk for a query finds, in its order. -/
def Query.run (query : Query) (tree : FileTree) : List Finding :=
  descend tree query tree.root.height query.scope query.components

/-- What the walk for a pattern finds, in its order. -/
def search (tree : FileTree) (pattern : String) : Except PatternError (List Finding) :=
  (Query.ofPattern pattern).map (·.run tree)

end TrafficReplay.Glob
