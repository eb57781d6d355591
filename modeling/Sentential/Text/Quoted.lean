import Sentential.Text.Visibility

/-! # Quoted text

A text between double quotes in which every character can be told: a quote and a backslash follow a
backslash, the common controls have escapes of their own, and any other character that is not visible
is written as its code point in hexadecimal.
-/

namespace Sentential.Text

def escapeChar (c : Char) : String :=
  if c = '"' then "\\\""
  else if c = '\\' then "\\\\"
  else if c = '\t' then "\\t"
  else if c = '\n' then "\\n"
  else if c = '\r' then "\\r"
  else if c = '\x00' then "\\0"
  else if isVisible c then String.singleton c
  else "\\u\x7b" ++ String.ofList (Nat.toDigits 16 c.toNat) ++ "\x7d"

def quoted (text : String) : String :=
  "\"" ++ String.join (text.toList.map escapeChar) ++ "\""

end Sentential.Text
