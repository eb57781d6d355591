import Sentential.Text.LowerCase
import Sentential.Text.Quoted
import Sentential.Text.WhiteSpace

/-! # Bindings

A binding is written as a name and a truth value with an equals sign between them. The name ends at
the first equals sign; white space around the name and around the value does not count, nor does the
letter case of the value.
-/

namespace Sentential.CommandLine

inductive BindingError where
  /-- There is no equals sign in the text. -/
  | noValue (text : String)
  /-- The value, without white space around it and in lower case, is not a truth value. -/
  | notBoolean (value : String)
  deriving DecidableEq, Repr, Inhabited

def BindingError.reason : BindingError → String
  | .noValue text => "expected NAME=BOOL, found " ++ Text.quoted text
  | .notBoolean value => "not a boolean: " ++ Text.quoted value

/-- The ways to write a truth value in lower case. -/
def booleanWords : List (String × Bool) :=
  [("1", true), ("t", true), ("true", true), ("0", false), ("f", false), ("false", false)]

def parseBoolean (text : String) : Except BindingError Bool :=
  let word := Text.lowerCase (Text.trim text)
  match booleanWords.lookup word with
  | some value => .ok value
  | none => .error (.notBoolean word)

def parseBinding (text : String) : Except BindingError (String × Bool) :=
  let name := text.toList.takeWhile fun c => c != '='
  match text.toList.dropWhile fun c => c != '=' with
  | [] => .error (.noValue text)
  | _ :: value => do
    let value ← parseBoolean (String.ofList value)
    return (Text.trim (String.ofList name), value)

end Sentential.CommandLine
