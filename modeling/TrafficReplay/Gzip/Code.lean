/-
# Prefix codes

Compressed data spell symbols in a code in which no code word begins another, so that a tree of bits
tells where each word ends. A code is given by the lengths of its words alone: words of one length
are consecutive numbers in the order of their symbols, and shorter words come first.
-/
import TrafficReplay.Gzip.Decoder

namespace TrafficReplay.Gzip

/-- A tree of code words below some bits: nothing there, a symbol, or more bits. -/
inductive CodeTree
  | dead
  | leaf (symbol : Nat)
  | fork (zero one : CodeTree)
  deriving Repr, DecidableEq

namespace CodeTree

/-- Adds a word; its bits are given from the first one on. -/
def insert (symbol : Nat) : List Bool → CodeTree → CodeTree
  | [], _ => leaf symbol
  | false :: bits, fork zero one => fork (insert symbol bits zero) one
  | true :: bits, fork zero one => fork zero (insert symbol bits one)
  | false :: bits, _ => fork (insert symbol bits dead) dead
  | true :: bits, _ => fork dead (insert symbol bits dead)

/-- Reads the rest of a word. Bits that begin no word are found corrupt at once. -/
def read : CodeTree → Decoder Nat
  | dead => Decoder.reject
  | leaf symbol => pure symbol
  | fork zero one => do
    if ← Decoder.bit then one.read else zero.read

theorem shrinking_read (tree : CodeTree) : tree.read.Shrinking := by
  induction tree with
  | dead => exact .reject
  | leaf symbol => exact .pure symbol
  | fork zero one ihz iho =>
    refine .bind .bit fun b => ?_
    cases b
    · simpa using ihz
    · simpa using iho

end CodeTree

/-- A code: the words that begin with either bit. Every word has a bit at least. -/
structure Code where
  zero : CodeTree
  one : CodeTree
  deriving Repr, DecidableEq

namespace Code

def insert (code : Code) (symbol : Nat) : List Bool → Code
  | [] => code
  | false :: bits => { code with zero := code.zero.insert symbol bits }
  | true :: bits => { code with one := code.one.insert symbol bits }

def word (length value : Nat) : List Bool :=
  (List.range length).map fun i => value.testBit (length - 1 - i)

def longest : Nat := 15

def symbolsOf (lengths : List Nat) (length : Nat) : List Nat :=
  (lengths.zipIdx.filter fun entry => entry.1 = length).map (·.2)

/-- Adds the words of one length, the first of which is `2 * value`; what is behind the last one is
kept for the next length. -/
def addWords (lengths : List Nat) (state : Code × Nat) (length : Nat) : Code × Nat :=
  (symbolsOf lengths length).foldl
    (fun state symbol => (state.1.insert symbol (word length state.2), state.2 + 1))
    (state.1, 2 * state.2)

/-- The code of a list of lengths, zero for a symbol without a word. -/
def ofLengths (lengths : List Nat) : Code :=
  (((List.range longest).map (· + 1)).foldl (addWords lengths) (⟨.dead, .dead⟩, 0)).1

/-- How much of all bits the words use up, in units of the longest words. -/
def usage (lengths : List Nat) : Nat :=
  lengths.foldl
    (fun total length => if length = 0 then total else total + 1 <<< (longest - length)) 0

def isComplete (lengths : List Nat) : Bool :=
  usage lengths = 1 <<< longest

def isSingle (lengths : List Nat) : Bool :=
  let words := lengths.filter (· ≠ 0)
  words = [] || words = [1]

/-- Reads a symbol. -/
def read (code : Code) : Decoder Nat := do
  if ← Decoder.bit then code.one.read else code.zero.read

/-- A symbol takes a bit at least. -/
theorem size_lt_of_read {code : Code} {cursor rest : Cursor} {symbol : Nat}
    (h : code.read cursor = .found symbol rest) : rest.size < cursor.size := by
  simp only [read, Bind.bind] at h
  split at h
  · next b middle hb =>
    have hbit := Cursor.size_of_bit? (Decoder.bit_eq_found hb)
    cases b
    · have := code.zero.shrinking_read (by simpa using h)
      omega
    · have := code.one.shrinking_read (by simpa using h)
      omega
  · cases h
  · cases h

theorem shrinking_read (code : Code) : code.read.Shrinking :=
  fun _ _ _ h => Nat.le_of_lt (size_lt_of_read h)

end Code

end TrafficReplay.Gzip
