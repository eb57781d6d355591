/-! # JSON

Values of the JSON data format without numbers and `null`, and their text spread over lines: every
member of an array or object stands on a line of its own, two spaces further in than the brackets around
it.
-/

namespace Sentential

inductive Json where
  | bool (value : Bool)
  | string (text : String)
  | array (items : List Json)
  /-- Keys with their values, in the order in which they are written. -/
  | object (fields : List (String × Json))
  deriving Repr, Inhabited

namespace Json

def controlDigits (c : Char) : String :=
  String.ofList (List.leftpad 4 '0' (Nat.toDigits 16 c.toNat))

/-- A character inside a string. Controls and the two characters that would end the string or start
    an escape are escaped; every other character stands for itself. -/
def escapeChar (c : Char) : String :=
  if c = '"' then "\\\""
  else if c = '\\' then "\\\\"
  else if c = '\n' then "\\n"
  else if c = '\t' then "\\t"
  else if c = '\r' then "\\r"
  else if c = '\x08' then "\\b"
  else if c = '\x0c' then "\\f"
  else if c.toNat < 0x20 then "\\u" ++ controlDigits c
  else String.singleton c

def quote (text : String) : String :=
  "\"" ++ String.join (text.toList.map escapeChar) ++ "\""

/-- The start of a line that is `level` steps in. -/
def lineStart (level : Nat) : String :=
  String.ofList ('\n' :: List.replicate (2 * level) ' ')

/-- Lines between brackets, separated by commas; the brackets are `level` steps in. -/
def block (opening closing : String) (level : Nat) : List String → String
  | [] => opening ++ closing
  | first :: rest =>
    opening ++ lineStart (level + 1) ++ first ++
      String.join (rest.map fun line => "," ++ lineStart (level + 1) ++ line) ++
      lineStart level ++ closing

mutual

/-- The text of a value whose first line is `level` steps in. -/
def pretty (level : Nat) : Json → String
  | .bool true => "true"
  | .bool false => "false"
  | .string text => quote text
  | .array items => block "[" "]" level (prettyItems (level + 1) items)
  | .object fields => block "\x7b" "\x7d" level (prettyFields (level + 1) fields)

def prettyItems (level : Nat) : List Json → List String
  | [] => []
  | item :: rest => pretty level item :: prettyItems level rest

def prettyFields (level : Nat) : List (String × Json) → List String
  | [] => []
  | (key, value) :: rest => (quote key ++ ": " ++ pretty level value) :: prettyFields level rest

end

end Json

end Sentential
