/-
# Arguments

The words behind the name of a program. A program has options, with a value or without one, each
with a name and perhaps a letter: `--name value`, `--name=value`, `-l value`, `-lvalue`, `-l=value`.
The words are read in order, and the first one that breaks the rules is the one that is complained
about, unless a request for help comes before it. An option that is not given may have its value
from a variable of the environment.
-/
import TrafficReplay.CommandLine.EnvironmentFile
import TrafficReplay.Text.Quoted

namespace TrafficReplay.CommandLine

/-- An option of a program. -/
structure Choice where
  name : String
  letter : Option Char
  /-- Whether a value follows; if not, the option is given or it is not. -/
  takesValue : Bool
  /-- Whether the option can have that value. -/
  accepts : String → Bool
  /-- The variable that stands in for the option where it is not given. -/
  standIn : Option String
  purpose : String

/-- A program as its command line sees it. -/
structure Command where
  name : String
  purpose : String
  choices : List Choice
  /-- The version that the program tells, if it tells one. -/
  version : Option String

/-- Why a command line is refused. -/
inductive UsageError
  /-- No option has that name or letter. -/
  | unknownOption (word : String)
  /-- The word belongs to no option. -/
  | unexpectedWord (word : String)
  /-- An option is given twice. -/
  | repeatedOption (name : String)
  /-- An option is given without its value. -/
  | missingValue (name : String)
  /-- An option that takes no value is given one. -/
  | unwantedValue (name : String)
  /-- An option cannot have that value. -/
  | invalidValue (name value : String)
  /-- An option that is needed is not given. -/
  | missingOption (name : String)
  deriving Repr, DecidableEq

/-- The wording of a refusal. -/
def UsageError.message : UsageError → String
  | unknownOption word => "unknown option " ++ word
  | unexpectedWord word => "unexpected argument " ++ word
  | repeatedOption name => "option --" ++ name ++ " is given more than once"
  | missingValue name => "option --" ++ name ++ " needs a value"
  | unwantedValue name => "option --" ++ name ++ " takes no value"
  | invalidValue name value => "option --" ++ name ++ " cannot be " ++ Text.quoted value
  | missingOption name => "option --" ++ name ++ " is needed"

abbrev Given := List (String × String)

/-- What a command line asks for. -/
inductive Request
  | help
  | version
  | run (given : Given)
  deriving Repr, DecidableEq

/-- What one word of a command line is. -/
inductive Word
  /-- The end of the options. -/
  | ending
  | help
  | version
  /-- An option together with its value. -/
  | option (choice : Choice) (value : String)
  /-- An option whose value is the next word. -/
  | awaiting (choice : Choice)
  | refused (e : UsageError)

/-- The value of an option without one, when it is given. -/
def isGiven : String := "true"

/-- The value of an option without one, when it is not given. -/
def isNotGiven : String := "false"

namespace Word

/-- A word that starts with two dashes, from the name and what follows an equals sign. -/
def ofName (command : Command) (name : String) (value : Option String) : Word :=
  match command.choices.find? (·.name = name) with
  | some choice =>
    match choice.takesValue, value with
    | true, some value => option choice value
    | true, none => awaiting choice
    | false, some _ => refused (.unwantedValue name)
    | false, none => option choice isGiven
  | none =>
    let answer : Option Word :=
      if name = "help" then some help
      else if name = "version" ∧ command.version.isSome then some version
      else none
    match answer, value with
    | some answer, none => answer
    | some _, some _ => refused (.unwantedValue name)
    | none, _ => refused (.unknownOption ("--" ++ name))

/-- A word that starts with one dash, from the letter behind it and the rest. -/
def ofLetter (command : Command) (letter : Char) (rest : List Char) : Word :=
  match command.choices.find? (·.letter = some letter) with
  | some choice =>
    match choice.takesValue, rest with
    | true, [] => awaiting choice
    | true, '=' :: value => option choice (String.ofList value)
    | true, value => option choice (String.ofList value)
    | false, [] => option choice isGiven
    | false, _ => refused (.unwantedValue choice.name)
  | none =>
    if letter = 'h' then help
    else if letter = 'V' ∧ command.version.isSome then version
    else refused (.unknownOption (String.ofList ['-', letter]))

/-- What a word is. A single dash is a word like any other. -/
def ofText (command : Command) (text : String) : Word :=
  match text.toList with
  | ['-', '-'] => ending
  | '-' :: '-' :: rest =>
    let name := rest.takeWhile (· ≠ '=')
    let value := ((rest.drop name.length).tail?).map String.ofList
    ofName command (String.ofList name) value
  | '-' :: letter :: rest => ofLetter command letter rest
  | _ => refused (.unexpectedWord text)

end Word

/-- Whether the word can be the value of the option in front of it. -/
def isValue (word : String) : Bool :=
  word = "-" || word.toList.head? ≠ some '-'

namespace Given

def get? (given : Given) (name : String) : Option String :=
  (given.find? (·.1 = name)).map (·.2)

/-- Adds an option, once and with a value that it can have. -/
def add (given : Given) (choice : Choice) (value : String) : Except UsageError Given :=
  if (given.get? choice.name).isSome then .error (.repeatedOption choice.name)
  else if choice.accepts value then .ok (given ++ [(choice.name, value)])
  else .error (.invalidValue choice.name value)

end Given

namespace Command

def helpLine (choice : Choice) : String :=
  let letter := match choice.letter with
    | some letter => String.ofList ['-', letter, ',', ' ']
    | none => "    "
  "  " ++ letter ++ "--" ++ choice.name ++ (if choice.takesValue then " <VALUE>" else "") ++ "  " ++
    choice.purpose ++ "\n"

def help (command : Command) : String :=
  command.purpose ++ "\n\nUsage: " ++ command.name ++ " [OPTIONS]\n\nOptions:\n" ++
    String.join (command.choices.map helpLine)

/-- What the program says to those who ask for its version. -/
def versionLine (command : Command) : String :=
  command.name ++ " " ++ command.version.getD "" ++ "\n"

/-- Reads words in order; `given` holds the options in front of them. -/
def readAfter (command : Command) (given : Given) : List String → Except UsageError Request
  | [] => .ok (.run given)
  | word :: words =>
    match Word.ofText command word, words with
    | .ending, [] => .ok (.run given)
    | .ending, next :: _ => .error (.unexpectedWord next)
    | .help, _ => .ok .help
    | .version, _ => .ok .version
    | .refused e, _ => .error e
    | .option choice value, words =>
      match given.add choice value with
      | .ok given => command.readAfter given words
      | .error e => .error e
    | .awaiting choice, [] => .error (.missingValue choice.name)
    | .awaiting choice, value :: words =>
      if isValue value then
        match given.add choice value with
        | .ok given => command.readAfter given words
        | .error e => .error e
      else .error (.missingValue choice.name)

/-- Adds the value that a variable gives to an option that is not given. -/
def complete (environment : Variables) (given : Given) (choice : Choice) :
    Except UsageError Given :=
  match given.get? choice.name, choice.standIn.bind environment.get? with
  | none, some value => given.add choice value
  | _, _ => .ok given

/-- Reads the words of a command line, and the variables that stand in for options. -/
def read (command : Command) (environment : Variables) (words : List String) :
    Except UsageError Request := do
  match ← command.readAfter [] words with
  | .run given => return .run (← command.choices.foldlM (complete environment) given)
  | request => return request

end Command

end TrafficReplay.CommandLine
