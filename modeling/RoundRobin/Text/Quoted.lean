import RoundRobin.Text.Invisible

/-!
# Quoted text

A text between double quotes in which nothing is lost to the eye: quotes and backslashes are
escaped, the four common controls have short forms, and every other invisible character is written
by its code point. A single quote stands for itself.
-/

namespace RoundRobin.Text

/-- Lower-case hexadecimal digits of `n`, without leading zeros. -/
def hex (n : Nat) : List Char := Nat.toDigits 16 n

/-- How `c` is written between double quotes. -/
def escape (c : Char) : List Char :=
  if c = '"' then ['\\', '"']
  else if c = '\\' then ['\\', '\\']
  else if c = '\n' then ['\\', 'n']
  else if c = '\r' then ['\\', 'r']
  else if c = '\t' then ['\\', 't']
  else if c = '\x00' then ['\\', '0']
  else if isInvisible c then ['\\', 'u', '\x7b'] ++ hex c.toNat ++ ['\x7d']
  else [c]

/-- The quoted form of a text. -/
def quoted (s : String) : String :=
  String.ofList ('"' :: s.toList.flatMap escape ++ ['"'])

end RoundRobin.Text
