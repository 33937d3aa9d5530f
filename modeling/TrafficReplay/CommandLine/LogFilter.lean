/-
# Log filters

Which events a program shows on its terminal. A filter is a row of directives between commas. A
directive is a level; or it names a part of the program, perhaps with a field in brackets that
events of that part have, and perhaps with a level behind an equals sign. Of the directives that
concern an event the most telling one decides about it (`Directive.tellsMore`): the one with the
longest name, of those the one that asks for a field, and of equals the last. A filter that breaks
these rules counts for nothing, and the default takes its place.
-/
import TrafficReplay.CommandLine.ValuePattern
import TrafficReplay.Decimal.Reading
import TrafficReplay.Log
import TrafficReplay.Text.Alphanumeric
import TrafficReplay.Text.Blank
import TrafficReplay.Text.Pieces

namespace TrafficReplay.CommandLine

/-- A field that a directive asks for. -/
structure FieldTest where
  name : String
  /-- Whether the directive asks for a value, too. -/
  hasValue : Bool
  deriving Repr, DecidableEq

/-- How much is shown of the events that the directive concerns. -/
structure Directive where
  /-- What the origin of the events starts with; without it the directive is about all origins. -/
  origin : Option String
  /-- Whether it names a stretch of work that the events belong to. -/
  namesWork : Bool
  /-- The field that the events have. -/
  field : Option FieldTest
  /-- The greatest verbosity that is shown; zero shows nothing. -/
  verbosity : Nat
  deriving Repr, DecidableEq

/-- What decides which events are shown. -/
abbrev LogFilter := List Directive

namespace Directive

/-- The directive about all events that shows them up to a verbosity. -/
def ofVerbosity (verbosity : Nat) : Directive :=
  ⟨none, false, none, verbosity⟩

def levelNames : List String :=
  ["off", "error", "warn", "info", "debug", "trace"]

def everything : Nat := Level.trace.verbosity

/-- The number that a row of digits spells, perhaps behind a plus sign. -/
def number? (word : List Char) : Option Nat :=
  let digits := match word with
    | '+' :: digits => digits
    | digits => digits
  if digits ≠ [] ∧ digits.all Char.isDigit then some (Decimal.valueOfDigits digits) else none

/-- The verbosity that a number or a word stands for, the word in capital letters or small ones. -/
def verbosity? (word : List Char) : Option Nat :=
  match number? word with
  | some number => if number ≤ everything then some number else none
  | none => levelNames.findIdx? (· = String.ofList (word.map Char.toLower))

/-- The verbosity at the end of a directive, which shows everything where nothing stands. -/
def limit? (word : List Char) : Option Nat :=
  if word = [] then some everything else verbosity? word

def startsName (c : Char) : Bool :=
  Text.isAlphanumeric c || c = '-' || c = ':' || c = '_'

/-- Reads what stands between braces: the name of a field, perhaps with an equals sign and a value,
which is a number or a pattern. -/
def field? (text : List Char) : Option FieldTest :=
  match pieces (· = '=') text with
  | [name] => if name = [] then none else some ⟨String.ofList name, false⟩
  | name :: value :: _ =>
    if (Decimal.float? (String.ofList value)).isSome || ValuePattern.isPattern value then
      some ⟨String.ofList name, true⟩
    else none
  | [] => none

/-- The directive with what stands behind its brackets, `start` characters in: nothing, or an equals
sign and perhaps a level, which goes on to the end of `text`. -/
def withLimit? (directive : Directive) (text behind : List Char) (start : Nat) : Option Directive :=
  match behind with
  | [] => some directive
  | '=' :: _ => (limit? (text.drop (start + 1))).map fun verbosity => { directive with verbosity }
  | _ => none

/-- Reads the brackets of a directive, of which `inner` is what stands behind the first, `start`
characters in. In the brackets stands the name of a stretch of work, a field in braces, or both. -/
def inBrackets? (origin : Option String) (text inner : List Char) (start : Nat) :
    Option Directive :=
  let part (first length : Nat) : List Char := (text.drop first).take length
  let work := inner.takeWhile fun c => c ≠ ']' && c ≠ '{'
  let stop := start + work.length
  match inner.drop work.length with
  | ']' :: behind => withLimit? ⟨origin, true, none, everything⟩ text behind (stop + 1)
  | '{' :: braces =>
    let name := braces.takeWhile (· ≠ '}')
    match braces.drop name.length, field? (part (stop + 1) name.length) with
    | '}' :: ']' :: behind, some field =>
      withLimit? ⟨origin, work ≠ [], some field, everything⟩ text behind (stop + name.length + 3)
    | _, _ => none
  | _ => none

/-- Reads a directive. The places where its parts begin and end are counted without the blanks
around it; yet the parts are cut out of the text with its blanks, and the last one goes on to its
very end. -/
def ofText? (text : List Char) : Option Directive :=
  let inner := Text.trim text
  let name := inner.takeWhile fun c => c ≠ '=' && c ≠ '['
  let origin := if name = [] then none else some (String.ofList (text.take name.length))
  if !name.head?.all startsName then none
  else match inner.drop name.length with
    | [] =>
      if name = [] then none
      else match verbosity? text with
        | some verbosity => some (ofVerbosity verbosity)
        | none => some ⟨some (String.ofList text), false, none, everything⟩
    | '[' :: rest => inBrackets? origin text rest (name.length + 1)
    | rest =>
      if name = [] then none
      else withLimit? ⟨origin, false, none, everything⟩ text rest name.length

/-- Whether the directive is about the event. One that names a stretch of work or a value is about
none, since no event here belongs to such a stretch. -/
def concerns (directive : Directive) (event : Event) : Bool :=
  !directive.namesWork &&
    directive.origin.all (fun origin => origin.toList.isPrefixOf event.origin.toList) &&
    directive.field.all fun field => !field.hasValue && event.hasField field.name

/-- What tells apart directives about one event: how long the name is, and which field is asked for.
-/
def weight (directive : Directive) : Nat × Nat × String :=
  (directive.origin.elim 0 fun origin => origin.length + 1, directive.field.elim 0 fun _ => 1,
    directive.field.elim "" (·.name))

/-- Whether the directive has a longer name than another one; or one as long and a field where the
other has none; or both fields and its own comes later in the alphabet. -/
def tellsMore (directive other : Directive) : Bool :=
  let (name, field, fieldName) := directive.weight
  let (otherName, otherField, otherFieldName) := other.weight
  otherName < name ||
    (otherName = name && (otherField < field || (otherField = field && otherFieldName < fieldName)))

/-- The one of two directives that decides: the later one, unless the earlier one tells more. -/
def decisive (earlier : Option Directive) (later : Directive) : Option Directive :=
  match earlier with
  | some earlier => some (if earlier.tellsMore later then earlier else later)
  | none => some later

end Directive

namespace LogFilter

/-- Reads a filter. -/
def ofText? (text : String) : Option LogFilter :=
  (runs (· = ',') text.toList).mapM Directive.ofText?

/-- The filter that shows progress and everything more important. -/
def standard : LogFilter :=
  [Directive.ofVerbosity Level.info.verbosity]

def variableName : String := "RUST_LOG"

/-- The filter that a variable of the environment gives. -/
def ofVariable (value : Option String) : LogFilter :=
  (value.bind ofText?).getD standard

def directiveFor (filter : LogFilter) (event : Event) : Option Directive :=
  (filter.filter (·.concerns event)).foldl Directive.decisive none

/-- Whether the event is shown. -/
def shows (filter : LogFilter) (event : Event) : Bool :=
  match filter.directiveFor event with
  | some directive => event.level.verbosity ≤ directive.verbosity
  | none => false

end LogFilter

end TrafficReplay.CommandLine
