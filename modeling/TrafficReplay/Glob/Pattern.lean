/-
# Wildcard patterns

A pattern names files: `?` stands for one character, `*` for any number of them, `[a-z]` and
`[!a-z]` for one character in or outside of a list, and `**` as a whole path component for any
number of directories. `Glob.parse` reads a pattern and tells where and why it is not one;
`Glob.accepts` compares the tokens of one component with one file name.
-/
namespace TrafficReplay.Glob

/-- First and last character of a range; a single character is a range of one. -/
abbrev Range := Char × Char

/-- One element of a pattern. -/
inductive Token
  /-- The character itself. -/
  | char (c : Char)
  /-- Any one character. -/
  | anyChar
  /-- Any number of characters. -/
  | anySequence
  /-- Any number of directories. -/
  | anyDirectories
  /-- One character in one of the ranges. -/
  | anyWithin (ranges : List Range)
  /-- One character outside of all the ranges. -/
  | anyExcept (ranges : List Range)
  deriving Repr, DecidableEq

/-- Why a text is no pattern. -/
inductive Flaw
  /-- A bracket that nothing closes, or with nothing inside. -/
  | invalidRange
  /-- Three or more stars in a row. -/
  | tooManyStars
  /-- Two stars that share their component with something else. -/
  | starsNotAlone
  deriving Repr, DecidableEq

/-- The wording of a flaw. -/
def Flaw.message : Flaw → String
  | invalidRange => "invalid range pattern"
  | tooManyStars => "wildcards are either regular `*` or recursive `**`"
  | starsNotAlone => "recursive wildcards must form a single path component"

/-- A flaw and where it is, in characters from the start. -/
structure PatternError where
  position : Nat
  flaw : Flaw
  deriving Repr, DecidableEq

/-- The wording of an error in a pattern. -/
def PatternError.message (e : PatternError) : String :=
  "Pattern syntax error near position " ++ toString e.position ++ ": " ++ e.flaw.message

/-- The ranges that the inside of a bracket lists: `a-z`, or single characters. -/
def rangesOf : List Char → List Range
  | first :: '-' :: last :: rest => (first, last) :: rangesOf rest
  | c :: rest => (c, c) :: rangesOf rest
  | [] => []

/-- What stands before the first closing bracket and what stands after it. -/
def untilClosed : List Char → Option (List Char × List Char)
  | [] => none
  | c :: rest =>
    if c = ']' then some ([], rest)
    else (untilClosed rest).map fun (inside, after) => (c :: inside, after)

theorem length_untilClosed_lt {text inside after : List Char}
    (h : untilClosed text = some (inside, after)) : after.length < text.length := by
  induction text generalizing inside with
  | nil => simp [untilClosed] at h
  | cons c rest ih =>
    rw [untilClosed] at h
    split at h
    · simp only [Option.some.injEq, Prod.mk.injEq] at h
      simp [h.2]
    · obtain ⟨⟨inside', after'⟩, hr, he⟩ := Option.map_eq_some_iff.1 h
      simp only [Prod.mk.injEq] at he
      exact Nat.lt_succ_of_lt (ih (he.2 ▸ hr))

/-- The token of a bracket, from what follows the bracket, and the rest of the pattern. The first
listed character is listed even if it is a closing bracket. -/
def bracket? : List Char → Option (Token × List Char)
  | '!' :: first :: rest =>
    (untilClosed rest).map fun (inside, after) => (.anyExcept (rangesOf (first :: inside)), after)
  | first :: rest =>
    if first = '!' then none
    else (untilClosed rest).map fun (inside, after) =>
      (.anyWithin (rangesOf (first :: inside)), after)
  | [] => none

theorem length_bracket_lt {text after : List Char} {token : Token}
    (h : bracket? text = some (token, after)) : after.length < text.length := by
  unfold bracket? at h
  split at h
  · obtain ⟨⟨_, _⟩, hr, he⟩ := Option.map_eq_some_iff.1 h
    simp only [Prod.mk.injEq] at he
    have := length_untilClosed_lt (he.2 ▸ hr)
    simp only [List.length_cons]
    omega
  · split at h
    · simp at h
    · obtain ⟨⟨_, _⟩, hr, he⟩ := Option.map_eq_some_iff.1 h
      simp only [Prod.mk.injEq] at he
      have := length_untilClosed_lt (he.2 ▸ hr)
      simp only [List.length_cons]
      omega
  · simp at h

/-- The tokens of a text that stands at `position` behind the character `previous`. -/
def parseAt (position : Nat) (previous : Option Char) : List Char → Except PatternError (List Token)
  | [] => .ok []
  | '?' :: rest => do
    return .anyChar :: (← parseAt (position + 1) (some '?') rest)
  | '*' :: rest => do
    let more := (rest.takeWhile (· = '*')).length
    if more = 0 then
      return .anySequence :: (← parseAt (position + 1) (some '*') rest)
    else if 1 < more then
      throw ⟨position + 2, .tooManyStars⟩
    else if previous.any (· ≠ '/') then
      throw ⟨position - 1, .starsNotAlone⟩
    else match h : rest.dropWhile (· = '*') with
      | [] => return [.anyDirectories]
      | c :: after =>
        if c = '/' then return .anyDirectories :: (← parseAt (position + 3) (some '/') after)
        else throw ⟨position + 2, .starsNotAlone⟩
  | '[' :: rest =>
    match h : bracket? rest with
    | none => throw ⟨position, .invalidRange⟩
    | some (token, after) => do
      return token :: (← parseAt (position + 1 + (rest.length - after.length)) (some ']') after)
  | c :: rest => do
    return .char c :: (← parseAt (position + 1) (some c) rest)
termination_by text => text.length
decreasing_by
  all_goals simp only [List.length_cons]
  · omega
  · omega
  · have := (List.dropWhile_sublist (fun c => decide (c = '*')) (l := rest)).length_le
    rw [h] at this
    simp only [List.length_cons] at this
    omega
  · have := length_bracket_lt h
    omega
  · omega

/-- Reads a pattern. -/
def parse (text : List Char) : Except PatternError (List Token) :=
  parseAt 0 none text

def inRanges (ranges : List Range) (c : Char) : Bool :=
  ranges.any fun range => range.1 ≤ c && c ≤ range.2

def Token.admits (c : Char) : Token → Bool
  | char d => c = d
  | anyWithin ranges => inRanges ranges c
  | anyExcept ranges => !inRanges ranges c
  | anyChar | anySequence | anyDirectories => true

/-- What is left of a name behind each of its beginnings, the name itself first. -/
def endings : List Char → List (List Char)
  | [] => [[]]
  | c :: name => (c :: name) :: endings name

/-- What can be left of a name behind one more token, from what can be left in front of it. All of
these are endings of one name, the longest first. -/
def advance (left : List (List Char)) (token : Token) : List (List Char) :=
  match token, left with
  | .anySequence, longest :: _ | .anyDirectories, longest :: _ => endings longest
  | token, left => left.filterMap fun
    | c :: name => if token.admits c then some name else none
    | [] => none

/-- Whether the tokens of one component stand for the file name: nothing can be left of it. -/
def accepts (tokens : List Token) (name : List Char) : Bool :=
  (tokens.foldl advance [name]).contains []

def literal? : List Token → Option (List Char)
  | [] => some []
  | .char c :: tokens => (literal? tokens).map (c :: ·)
  | _ :: _ => none

end TrafficReplay.Glob
