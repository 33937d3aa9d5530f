/-
# Blanks

The characters that Unicode counts as white space.
-/
import TrafficReplay.Text.Ranges

namespace TrafficReplay.Text

def blanks : Ranges :=
  [(0x09, 0x0D), (0x20, 0x20), (0x85, 0x85), (0xA0, 0xA0), (0x1680, 0x1680), (0x2000, 0x200A),
   (0x2028, 0x2029),
    (0x202F, 0x202F), (0x205F, 0x205F), (0x3000, 0x3000)]

theorem isAscending_blanks : blanks.isAscending = true := by decide

def isBlank (c : Char) : Bool :=
  blanks.contains c

def trimStart (text : List Char) : List Char :=
  text.dropWhile isBlank

def trimEnd (text : List Char) : List Char :=
  (text.reverse.dropWhile isBlank).reverse

def trim (text : List Char) : List Char :=
  trimEnd (trimStart text)

end TrafficReplay.Text
