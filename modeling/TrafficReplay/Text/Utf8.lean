/-
# UTF-8

Captures hold arbitrary bytes, and ids and log lines are text. `Utf8.decodeLossy` reads bytes as
text and puts one U+FFFD in place of each maximal part that no character starts with, as the Unicode
standard recommends; `Utf8.decode?` refuses such bytes; `Utf8.encode` is the way back.
-/
namespace TrafficReplay

/-- A string of bytes, as files and captures hold them. -/
abbrev Bytes := List UInt8

namespace Utf8

/-- What the first byte of a longer character announces: the value bits it gives, how many
continuation bytes follow, and the range that the first of them lies in. -/
structure Lead where
  bits : Nat
  owed : Nat
  low : UInt8
  high : UInt8

/-- The lead bytes of characters beyond ASCII. The narrower ranges rule out overlong forms,
surrogates and values beyond U+10FFFF. -/
def lead? (b : UInt8) : Option Lead :=
  if 0xC2 ≤ b ∧ b ≤ 0xDF then some ⟨b.toNat % 32, 1, 0x80, 0xBF⟩
  else if b = 0xE0 then some ⟨0, 2, 0xA0, 0xBF⟩
  else if b = 0xED then some ⟨13, 2, 0x80, 0x9F⟩
  else if 0xE1 ≤ b ∧ b ≤ 0xEF then some ⟨b.toNat % 16, 2, 0x80, 0xBF⟩
  else if b = 0xF0 then some ⟨0, 3, 0x90, 0xBF⟩
  else if 0xF1 ≤ b ∧ b ≤ 0xF3 then some ⟨b.toNat % 8, 3, 0x80, 0xBF⟩
  else if b = 0xF4 then some ⟨4, 3, 0x80, 0x8F⟩
  else none

/-- Reads the continuation bytes still owed, the first one within `low` and `high`; stops in front
of the first byte that does not continue the character. -/
def continuation (owed bits : Nat) (low high : UInt8) (text : Bytes) : Option Nat × Bytes :=
  match owed, text with
  | 0, text => (some bits, text)
  | _ + 1, [] => (none, [])
  | owed + 1, b :: text =>
    if low ≤ b ∧ b ≤ high then continuation owed (bits * 64 + b.toNat % 64) 0x80 0xBF text
    else (none, b :: text)

/-- The character that starts with byte `b`, or `none` for bytes that start no character, and what
follows. -/
def readChar (b : UInt8) (text : Bytes) : Option Char × Bytes :=
  if b < 0x80 then (some (Char.ofNat b.toNat), text)
  else match lead? b with
    | none => (none, text)
    | some lead =>
      let (value, rest) := continuation lead.owed lead.bits lead.low lead.high text
      (value.map Char.ofNat, rest)

theorem length_continuation_le (owed bits : Nat) (low high : UInt8) (text : Bytes) :
    (continuation owed bits low high text).2.length ≤ text.length := by
  induction owed generalizing bits low high text with
  | zero => simp [continuation]
  | succ owed ih =>
    cases text with
    | nil => simp [continuation]
    | cons b text =>
      rw [continuation]
      split
      · exact Nat.le_succ_of_le (ih _ _ _ _)
      · simp

theorem length_readChar_le (b : UInt8) (text : Bytes) :
    (readChar b text).2.length ≤ text.length := by
  unfold readChar
  split
  · simp
  · split
    · simp
    · exact length_continuation_le _ _ _ _ _

/-- The characters of a text, `none` for each maximal part that starts no character, in front of
which stands `done`, last one first. -/
def readCharsAfter (done : List (Option Char)) : Bytes → List (Option Char)
  | [] => done.reverse
  | b :: text =>
    let next := readChar b text
    readCharsAfter (next.1 :: done) next.2
termination_by text => text.length
decreasing_by exact Nat.lt_succ_of_le (length_readChar_le b text)

/-- The characters of a text, `none` for each maximal part that starts no character. -/
def readChars (text : Bytes) : List (Option Char) :=
  readCharsAfter [] text

/-- U+FFFD, which stands for bytes that are no character. -/
def replacement : Char := Char.ofNat 0xFFFD

/-- Reads any bytes as text, with one replacement character for each maximal part that starts no
character. -/
def decodeLossy (text : Bytes) : String :=
  String.ofList ((readChars text).map (·.getD replacement))

def decode? (text : Bytes) : Option String :=
  ((readChars text).mapM id).map String.ofList

def encode (text : String) : Bytes :=
  text.toList.flatMap String.utf8EncodeChar

end Utf8

end TrafficReplay
