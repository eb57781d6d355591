import Sentential.CommandLine.Argument
import Sentential.CommandLine.Binding
import Sentential.Text.Terminal

/-! # Outcomes

How a run of the command ends: with a text on the standard output, with a message about the formula,
or with a message about the arguments.
-/

namespace Sentential.CommandLine

inductive UsageError where
  | missingValue
  | invalidValue (value : String) (error : BindingError)
  | unexpectedValue (opt : Opt) (value : String)
  | repeated (opt : Opt)
  /-- Two options exclude each other; the first is the one that came first. -/
  | conflict (first second : Opt)
  | noFormula
  deriving DecidableEq, Repr, Inhabited

namespace UsageError

/-- A value is shown without terminal controls. -/
def message : UsageError → String
  | .missingValue => "error: a value is required for '" ++ Opt.assign.shown ++ "' but none was supplied"
  | .invalidValue value error =>
    "error: invalid value '" ++ Text.plain value ++ "' for '" ++ Opt.assign.shown ++ "': " ++ error.reason
  | .unexpectedValue opt value =>
    "error: unexpected value '" ++ Text.plain value ++ "' for '" ++ opt.shown
      ++ "' found; no more were expected"
  | .repeated opt => "error: the argument '" ++ opt.shown ++ "' cannot be used multiple times"
  | .conflict first second =>
    "error: the argument '" ++ first.shown ++ "' cannot be used with '" ++ second.shown ++ "'"
  | .noFormula => "error: the following required arguments were not provided:"

/-- The first line of the message: a value may bring line breaks of its own, which are a line feed
    or a carriage return with a line feed. -/
def headline (error : UsageError) : String :=
  let line := error.message.toList.takeWhile fun c => c != '\n'
  String.ofList (if line.getLast? = some '\r' then line.dropLast else line)

end UsageError

inductive Outcome where
  | answer (text : String)
  /-- The formula could not be read. -/
  | rejected (message : String)
  | usage (error : UsageError)
  deriving DecidableEq, Repr, Inhabited

namespace Outcome

def status : Outcome → Nat
  | .answer _ => 0
  | .rejected _ => 1
  | .usage _ => 2

def stdout : Outcome → String
  | .answer text => text
  | .rejected _ | .usage _ => ""

/-- What a run writes to the standard error output. Of a usage error this is only the first line: the
    lines behind it, which name the usage and give hints, are left out. -/
def stderr : Outcome → String
  | .answer _ => ""
  | .rejected message => message
  | .usage error => error.headline ++ "\n"

end Outcome

end Sentential.CommandLine
