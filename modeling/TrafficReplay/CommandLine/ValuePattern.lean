/-
# Patterns of values

A log filter can compare the value of a field with a pattern, a regular expression. No value is ever
compared here, but a filter with a text that is no pattern counts for nothing, so
`ValuePattern.isPattern` tells the two apart. It reads a text character by character and keeps what
decides whether the next one is allowed: the groups that are open, and where in the pattern it is.
-/
namespace TrafficReplay.CommandLine.ValuePattern

/-- Where a reader of a pattern is. -/
inductive Place
  /-- In a row of items; `repeatable` says whether one stands in front, so that it can be repeated.
  -/
  | row (repeatable : Bool)
  /-- Behind a backslash, in so many classes. -/
  | escape (classes : Nat)
  /-- In a character's code, with so many digits to come. -/
  | code (classes digits : Nat)
  /-- In front of the letter of a property of characters. -/
  | property (classes : Nat)
  /-- Behind an opening parenthesis. -/
  | group
  /-- Behind the question mark that tells the kind of a group. -/
  | groupKind
  /-- In front of the bracket of a group's name. -/
  | groupMark
  /-- In a group's name. -/
  | groupName (begun : Bool)
  /-- In the flags of a group. -/
  | groupFlags (negated : Bool)
  /-- Behind the opening bracket of a class, perhaps negated already. -/
  | classStart (classes : Nat) (negated : Bool)
  /-- In a class, behind a character or something else. -/
  | inClass (classes : Nat) (low : Option Char)
  /-- In a class, behind a character and a dash. -/
  | range (classes : Nat) (low : Option Char)

/-- What a reader of a pattern keeps. -/
structure Reader where
  /-- How many groups are open. -/
  groups : Nat
  place : Place

def isHexDigit (c : Char) : Bool :=
  c.isDigit || ('a' ≤ c && c ≤ 'f') || ('A' ≤ c && c ≤ 'F')

/-- Letters that say something behind a backslash: kinds of characters, control characters, and the
ends of the text. -/
def escapeLetters : List Char :=
  ['d', 's', 'w', 'D', 'S', 'W', 'a', 'f', 't', 'n', 'r', 'v', 'A', 'z']

def propertyLetters : List Char :=
  ['C', 'L', 'M', 'N', 'P', 'S', 'Z']

def flagLetters : List Char :=
  ['i', 'm', 's', 'U', 'u', 'R', 'x']

def isProtectable (c : Char) : Bool :=
  c.toNat < 0x80 && !c.isAlphanum && c ≠ '<' && c ≠ '>'

/-- The place behind an item, which is in so many classes. -/
def Place.behind (classes : Nat) (c : Option Char) : Place :=
  if classes = 0 then .row true else .inClass classes c

/-- The place behind a character that follows a backslash. -/
def Place.afterEscape? (classes : Nat) (c : Char) : Option Place :=
  if c ∈ escapeLetters then some (behind classes none)
  else if c = 'x' then some (code classes 2)
  else if c = 'u' then some (code classes 4)
  else if c = 'U' then some (code classes 8)
  else if c = 'p' ∨ c = 'P' then some (property classes)
  else if isProtectable c then some (behind classes (some c))
  else none

def Place.afterClassChar (classes : Nat) (low : Option Char) (c : Char) : Place :=
  if c = ']' then behind (classes - 1) none
  else if c = '[' then classStart (classes + 1) false
  else if c = '\\' then escape classes
  else if c = '-' then range classes low
  else inClass classes (some c)

/-- Reads one character of a row of items, with so many groups open. -/
def Reader.readItem? (groups : Nat) (repeatable : Bool) (c : Char) : Option Reader :=
  if c = '\\' then some ⟨groups, .escape 0⟩
  else if c = '(' then some ⟨groups, .group⟩
  else if c = ')' then if groups = 0 then none else some ⟨groups - 1, .row true⟩
  else if c = '[' then some ⟨groups, .classStart 1 false⟩
  else if c = '*' ∨ c = '+' ∨ c = '?' then if repeatable then some ⟨groups, .row true⟩ else none
  else if c = '{' then none
  else some ⟨groups, .row (c ≠ '|')⟩

/-- Reads one character, if a pattern can go on with it. -/
def Reader.read? (reader : Reader) (c : Char) : Option Reader :=
  let goTo (place : Place) : Option Reader := some { reader with place }
  match reader.place with
  | .row repeatable => readItem? reader.groups repeatable c
  | .escape classes => (Place.afterEscape? classes c).bind goTo
  | .code classes digits =>
    if !isHexDigit c then none
    else goTo (if digits ≤ 1 then .behind classes none else .code classes (digits - 1))
  | .property classes => if c ∈ propertyLetters then goTo (.behind classes none) else none
  | .group =>
    if c = '?' then goTo .groupKind
    else readItem? (reader.groups + 1) false c
  | .groupKind =>
    if c = 'P' then goTo .groupMark
    else if c = '<' then goTo (.groupName false)
    else if c = ':' then some ⟨reader.groups + 1, .row false⟩
    else if c = '-' then goTo (.groupFlags true)
    else if c ∈ flagLetters then goTo (.groupFlags false)
    else none
  | .groupMark => if c = '<' then goTo (.groupName false) else none
  | .groupName begun =>
    if c.isAlpha || c = '_' || (begun && c.isDigit) then goTo (.groupName true)
    else if begun && c = '>' then some ⟨reader.groups + 1, .row false⟩
    else none
  | .groupFlags negated =>
    if c ∈ flagLetters then goTo (.groupFlags negated)
    else if c = '-' then if negated then none else goTo (.groupFlags true)
    else if c = ':' then some ⟨reader.groups + 1, .row false⟩
    else if c = ')' then goTo (.row false)
    else none
  | .classStart classes negated =>
    if c = '^' ∧ !negated then goTo (.classStart classes true)
    else if c = ']' ∨ c = '-' then goTo (.inClass classes (some c))
    else goTo (.afterClassChar classes none c)
  | .inClass classes low => goTo (.afterClassChar classes low c)
  | .range classes low =>
    if c = ']' ∨ c = '-' ∨ c = '[' ∨ c = '\\' then goTo (.afterClassChar classes none c)
    else if low.any (c < ·) then none
    else goTo (.inClass classes none)

/-- Whether the text is a pattern. -/
def isPattern (text : List Char) : Bool :=
  match text.foldlM Reader.read? ⟨0, .row false⟩ with
  | some ⟨0, .row _⟩ => true
  | _ => false

end TrafficReplay.CommandLine.ValuePattern
