/-
# Variables from a file

A program takes settings from variables of its environment, and from a file that gives values to
variables the environment does not have. Each line of the file holds a name, an equals sign and a
value, perhaps behind the word `export`; a value may be quoted, and a quoted one may go over several
lines. Behind a dollar sign stands the name of a variable whose value is put in its place. The first
line that breaks these rules ends the reading.
-/
import TrafficReplay.FileTree
import TrafficReplay.Text.Alphanumeric
import TrafficReplay.Text.Blank

namespace TrafficReplay.CommandLine

abbrev Variables := List (String × String)

namespace Variables

def get? (environment : Variables) (name : String) : Option String :=
  (environment.find? (·.1 = name)).map (·.2)

def setDefault (environment : Variables) (name value : String) : Variables :=
  if (environment.get? name).isSome then environment else environment ++ [(name, value)]

end Variables

namespace EnvironmentFile

/-- Where a reader that looks for the end of an entry is. -/
inductive Scan
  | plain
  | afterBlank
  | escaped
  | singleQuoted
  | singleQuotedEscaped
  | doubleQuoted
  | doubleQuotedEscaped
  deriving Repr, DecidableEq

namespace Scan

def outside (blankCounts : Bool) (c : Char) : Scan :=
  if c = '\\' then escaped
  else if c = '"' then doubleQuoted
  else if c = '\'' then singleQuoted
  else if blankCounts && Text.isBlank c && c ≠ '\n' && c ≠ '\r' then afterBlank
  else plain

/-- The place behind a character. -/
def next (c : Char) : Scan → Scan
  | plain => outside true c
  | afterBlank => outside false c
  | escaped => plain
  | singleQuoted =>
    if c = '\\' then singleQuotedEscaped else if c = '\'' then plain else singleQuoted
  | singleQuotedEscaped => singleQuoted
  | doubleQuoted =>
    if c = '\\' then doubleQuotedEscaped else if c = '"' then plain else doubleQuoted
  | doubleQuotedEscaped => doubleQuoted

/-- The place behind a line, and the part of the line in front of a comment, if one starts in it. -/
def line : Scan → List Char → Scan × Option (List Char)
  | scan, [] => (scan, none)
  | scan, c :: rest =>
    if scan = afterBlank ∧ c = '#' then (scan, some [])
    else
      let (scan, kept) := line (next c scan) rest
      (scan, kept.map (c :: ·))

end Scan

def withoutBreak (line : List Char) : List Char :=
  match line.reverse with
  | '\n' :: '\r' :: rest => rest.reverse
  | '\n' :: rest => rest.reverse
  | _ => line

/-- The entries of a file, from its lines; `none` stands for what cannot be read, after which
nothing is. `begun` is what an entry holds that has not ended yet. -/
def entriesAfter (begun : List Char) (scan : Scan) :
    List (Option (List Char)) → List (Option (List Char))
  | [] => if scan = .plain then [] else [none]
  | none :: _ => [none]
  | some line :: lines =>
    let whole := begun ++ line
    if (Text.trimStart whole).head? = some '#' then entriesAfter [] .plain lines
    else match scan.line line with
      | (_, some kept) => some (begun ++ kept) :: entriesAfter [] .plain lines
      | (.plain, none) => some (withoutBreak whole) :: entriesAfter [] .plain lines
      | (scan, none) => entriesAfter whole scan lines

def linesOf (contents : Bytes) : List Bytes :=
  let texts := pieces (· = 0x0A) contents
  (texts.dropLast.map (·.concat 0x0A)) ++ (texts.getLast?.filter (· ≠ [])).toList

/-- The mark that a file may start with and that is no part of its text. -/
def byteOrderMark : Bytes := [0xEF, 0xBB, 0xBF]

def entries (contents : Bytes) : List (Option (List Char)) :=
  let text := if byteOrderMark.isPrefixOf contents then contents.drop 3 else contents
  entriesAfter [] .plain ((linesOf text).map fun line => (Utf8.decode? line).map String.toList)

/-- What a value holds that is being read. -/
structure Value where
  /-- What was read, last character first. -/
  text : List Char
  /-- The name behind a dollar sign, last character first. -/
  name : List Char

/-- Where a reader of a value is. -/
inductive Place
  | plain
  | singleQuoted
  | doubleQuoted
  deriving Repr, DecidableEq

/-- What a reader of a value looks for besides: nothing, what a backslash protects, a name behind a
dollar sign, such a name within braces, or the end of the line. -/
inductive Search
  | nothing
  | protectedChar
  | name
  | bracedName
  | lineEnd
  deriving Repr, DecidableEq

/-- The value with that of the variable named at its end. -/
def Value.substitute (lookup : String → String) (value : Value) : Value :=
  ⟨(lookup (String.ofList value.name.reverse)).toList.reverse ++ value.text, []⟩

def Value.push (value : Value) (c : Char) : Value :=
  { value with text := c :: value.text }

/-- What a backslash and the character behind it stand for. -/
def protectedChar? (c : Char) : Option Char :=
  if c = 'n' then some '\n'
  else if c = '\\' ∨ c = '\'' ∨ c = '"' ∨ c = '$' ∨ c = ' ' then some c
  else none

/-- Reads a value to its end; `lookup` gives the values of variables. -/
def readValue (lookup : String → String) (value : Value) :
    Place → Search → List Char → Option (List Char)
  | place, search, [] =>
    if place ≠ .plain ∨ search = .bracedName then none
    else some (value.substitute lookup).text.reverse
  | place, .lineEnd, c :: rest =>
    if c = ' ' ∨ c = '\t' then readValue lookup value place .lineEnd rest
    else if c = '#' then some (value.substitute lookup).text.reverse
    else none
  | place, .protectedChar, c :: rest =>
    match protectedChar? c with
    | some d => readValue lookup (value.push d) place .nothing rest
    | none => none
  | .singleQuoted, search, c :: rest =>
    if c = '\'' then readValue lookup value .plain search rest
    else readValue lookup (value.push c) .singleQuoted search rest
  | place, .name, c :: rest =>
    if Text.isAlphanumeric c then
      readValue lookup { value with name := c :: value.name } place .name rest
    else if c = '{' ∧ value.name = [] then readValue lookup value place .bracedName rest
    else if c = '$' then readValue lookup (value.substitute lookup) place .name rest
    else readValue lookup ((value.substitute lookup).push c) place .nothing rest
  | place, .bracedName, c :: rest =>
    if Text.isAlphanumeric c then
      readValue lookup { value with name := c :: value.name } place .bracedName rest
    else if c = '}' then readValue lookup (value.substitute lookup) place .nothing rest
    else readValue lookup { value with name := c :: value.name } place .bracedName rest
  | .doubleQuoted, .nothing, c :: rest =>
    if c = '$' then readValue lookup value .doubleQuoted .name rest
    else if c = '"' then readValue lookup value .plain .nothing rest
    else if c = '\\' then readValue lookup value .doubleQuoted .protectedChar rest
    else readValue lookup (value.push c) .doubleQuoted .nothing rest
  | .plain, .nothing, c :: rest =>
    if c = '$' then readValue lookup value .plain .name rest
    else if c = '\'' then readValue lookup value .singleQuoted .nothing rest
    else if c = '"' then readValue lookup value .doubleQuoted .nothing rest
    else if c = '\\' then readValue lookup value .plain .protectedChar rest
    else if c = ' ' ∨ c = '\t' then readValue lookup value .plain .lineEnd rest
    else readValue lookup (value.push c) .plain .nothing rest

def startsName (c : Char) : Bool :=
  c.isAlpha || c = '_'

def continuesName (c : Char) : Bool :=
  c.isAlphanum || c = '_' || c = '.'

def readName (text : List Char) : Option (String × List Char) :=
  if text.head?.any startsName then
    some (String.ofList (text.takeWhile continuesName), text.dropWhile continuesName)
  else none

def skipEquals (text : List Char) : Option (List Char) :=
  match Text.trimStart text with
  | '=' :: rest => some (Text.trimStart rest)
  | _ => none

/-- Reads name and equals sign, perhaps behind the word `export`, which can be a name itself. -/
def readHead (text : List Char) : Option (String × List Char) := do
  let (name, rest) ← readName text
  match skipEquals rest with
  | some value => return (name, value)
  | none =>
    if name = "export" then
      let (name, rest) ← readName (Text.trimStart rest)
      return (name, ← skipEquals rest)
    else failure

/-- What an entry comes to: nothing, or a variable and its value. -/
abbrev Assignment := Option (String × String)

def readEntry (lookup : String → String) (entry : List Char) : Option Assignment :=
  let text := Text.trimStart (Text.trimEnd entry)
  if text = [] ∨ text.head? = some '#' then some none
  else do
    let (name, rest) ← readHead text
    if rest = [] ∨ rest.head? = some '#' then return some (name, "")
    else return some (name, String.ofList (← readValue lookup ⟨[], []⟩ .plain .nothing rest))

/-- The value that a dollar sign and the name stand for: that of the environment, or else the one
that the file gave before, or else nothing. -/
def valueOf (environment given : Variables) (name : String) : String :=
  ((environment.get? name).or (given.get? name)).getD ""

/-- Sets variables entry by entry; `given` holds what the file gave before, the latest first. -/
def assign (environment given : Variables) : List (Option (List Char)) → Variables
  | [] => environment
  | none :: _ => environment
  | some entry :: entries =>
    match readEntry (valueOf environment given) entry with
    | none => environment
    | some none => assign environment given entries
    | some (some (name, value)) =>
      assign (environment.setDefault name value) ((name, value) :: given) entries

def fileName : String := ".env"

/-- What can be read of the file, which is looked for in the working directory and then in the
directories above. A line that a fault interrupts is lost. -/
def find? (tree : FileTree) (home : List String) : Option Bytes :=
  match tree.root.find? (home ++ [fileName]) with
  | some (.file contents) => some contents
  | some (.damaged contents _ _) => some (contents.reverse.dropWhile (· ≠ 0x0A)).reverse
  | some (.locked _) => some []
  | _ =>
    if _h : home = [] then none else find? tree home.dropLast
termination_by home.length
decreasing_by
  have := List.length_pos_iff.2 _h
  simp only [List.length_dropLast]
  omega

/-- The variables of the environment, and those that the file adds. -/
def load (tree : FileTree) (environment : Variables) : Variables :=
  match find? tree tree.home with
  | some contents => assign environment [] (entries contents)
  | none => environment

end EnvironmentFile

end TrafficReplay.CommandLine
