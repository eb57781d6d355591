import Sentential.CommandLine.Outcome

/-! # Requests

The arguments are read from left to right. Options come first; the first argument that is not made of
options begins the formula, and so does whatever follows a `--`. From there on every argument is a word
of the formula. The run ends at the first error, and at a request for help or for the version. The
value of an `--assign` that is an argument of its own counts only once the next argument is known not
to be a flag with a value.
-/

namespace Sentential.CommandLine

inductive Setting where
  | binding (name : String) (value : Bool)
  | table
  | json
  deriving DecidableEq, Repr, Inhabited

namespace Setting

def opt : Setting → Opt
  | .binding _ _ => .assign
  | .table => .table
  | .json => .json

def binding? : Setting → Option (String × Bool)
  | .binding name value => some (name, value)
  | .table | .json => none

end Setting

structure Request where
  settings : List Setting
  words : List String
  deriving DecidableEq, Repr, Inhabited

def helpText : String :=
  "Parses a propositional formula, evaluates it or prints its truth table\n\n" ++
  "Usage: proptable [OPTIONS] <formula>...\n\n" ++
  "Arguments:\n" ++
  "  <formula>...  The formula, e.g. 'a and (b -> c)'. Words are joined with single spaces.\n\n" ++
  "Options:\n" ++
  "  -a, --assign <NAME=BOOL>  Binds a variable for evaluation. Unbound variables are false.\n" ++
  "  -t, --table               Prints the truth table instead of a single evaluation (at most 4 variables).\n" ++
  "      --json                Prints the result as JSON.\n" ++
  "  -h, --help                Print help\n" ++
  "  -V, --version             Print version\n"

def versionText : String := "proptable 0.1.0\n"

def Setting.ofValue (value : String) : Except Outcome Setting :=
  match parseBinding value with
  | .ok (name, value) => .ok (.binding name value)
  | .error error => .error (.usage (.invalidValue value error))

def addOnce (settings : List Setting) (setting : Setting) : Except Outcome (List Setting) :=
  if settings.contains setting then
    .error (.usage (.repeated setting.opt))
  else
    .ok (settings ++ [setting])

/-- What an `--assign` leaves open until the next argument has been looked at. -/
inductive Pending where
  | nothing
  | awaiting
  /-- Its value was an argument of its own. -/
  | held (value : String)
  deriving DecidableEq, Repr, Inhabited

/-- Settles what is open: a value that was held makes a setting, and one that has not come is missing. -/
def Pending.settle (settings : List Setting) : Pending → Except Outcome (List Setting)
  | .nothing => .ok settings
  | .awaiting => .error (.usage .missingValue)
  | .held value => do
    let setting ← Setting.ofValue value
    return settings ++ [setting]

def applyUses (settings : List Setting) : List Use → Except Outcome (List Setting × Pending)
  | [] => .ok (settings, .nothing)
  | .assign none :: _ => .ok (settings, .awaiting)
  | .assign (some value) :: rest => do
    let setting ← Setting.ofValue value
    applyUses (settings ++ [setting]) rest
  | .table :: rest => do
    let settings ← addOnce settings .table
    applyUses settings rest
  | .json :: rest => do
    let settings ← addOnce settings .json
    applyUses settings rest
  | .help :: _ => .error (.answer helpText)
  | .version :: _ => .error (.answer versionText)

/-- Reads arguments after some settings. A value in excess is refused before anything that is open is
    settled; any other argument comes after it. -/
def scanArguments (settings : List Setting) (pending : Pending) :
    List String → Except Outcome Request
  | [] => do
    let settings ← pending.settle settings
    return ⟨settings, []⟩
  | argument :: rest =>
    match Argument.ofText argument with
    | .excess opt value => .error (.usage (.unexpectedValue opt value))
    | .options uses => do
      let settings ← pending.settle settings
      let (settings, pending) ← applyUses settings uses
      scanArguments settings pending rest
    | .separator => do
      let settings ← pending.settle settings
      return ⟨settings, rest⟩
    | .word =>
      match pending with
      | .awaiting => scanArguments settings (.held argument) rest
      | pending => do
        let settings ← pending.settle settings
        return ⟨settings, argument :: rest⟩

namespace Request

def bindings (request : Request) : List (String × Bool) :=
  request.settings.filterMap Setting.binding?

def formula (request : Request) : String :=
  " ".intercalate request.words

def check (request : Request) : Except Outcome Request :=
  let opts := request.settings.map Setting.opt
  if opts.contains .table && opts.contains .assign then
    match opts.find? fun opt => opt == .table || opt == .assign with
    | some .table => .error (.usage (.conflict .table .assign))
    | _ => .error (.usage (.conflict .assign .table))
  else if request.words.isEmpty then
    .error (.usage .noFormula)
  else
    .ok request

def ofArguments (arguments : List String) : Except Outcome Request := do
  let request ← scanArguments [] .nothing arguments
  request.check

end Request

end Sentential.CommandLine
