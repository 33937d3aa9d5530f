/-
# Quoted paths

Messages show a path in double quotes. Inside, quotes, backslashes and the usual blanks are escaped
by a backslash, every other character that would not be seen is shown by its code, and the rest
stands as it is.
-/
import TrafficReplay.Text.Printable

namespace TrafficReplay.Text

/-- A backslash, a letter, and the character's code in hexadecimal within braces. -/
def codeEscape (c : Char) : List Char :=
  '\\' :: 'u' :: '{' :: Nat.toDigits 16 c.toNat ++ ['}']

/-- How one character of a path is shown between the quotes. -/
def quoteChar (c : Char) : List Char :=
  if c = '"' then ['\\', '"']
  else if c = '\\' then ['\\', '\\']
  else if c = '\t' then ['\\', 't']
  else if c = '\r' then ['\\', 'r']
  else if c = '\n' then ['\\', 'n']
  else if c = Char.ofNat 0 then ['\\', '0']
  else if isShownByCode c then codeEscape c
  else [c]

/-- A path as messages show it. -/
def quoted (path : String) : String :=
  String.ofList ('"' :: path.toList.flatMap quoteChar ++ ['"'])

end TrafficReplay.Text
