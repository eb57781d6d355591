/-! # Arguments

How a single argument reads before the first word of the formula. An argument is an option only if
all of it is: a long name that is spelled out, with or without a value behind an equals sign, or a
dash and nothing but letters of options. In such a cluster the letter of an option that takes a value
ends it, and what is left of the cluster is the value.
-/

namespace Sentential.CommandLine

inductive Opt where
  | assign
  | table
  | json
  | help
  | version
  deriving DecidableEq, Repr, Inhabited

/-- An option as it is used. Only `--assign` takes a value, which may be part of the same argument. -/
inductive Use where
  | assign (value? : Option String)
  | table
  | json
  | help
  | version
  deriving DecidableEq, Repr, Inhabited

namespace Opt

def all : List Opt := [.assign, .table, .json, .help, .version]

def longName : Opt → String
  | .assign => "assign"
  | .table => "table"
  | .json => "json"
  | .help => "help"
  | .version => "version"

def letter? : Opt → Option Char
  | .assign => some 'a'
  | .table => some 't'
  | .json => none
  | .help => some 'h'
  | .version => some 'V'

def shown : Opt → String
  | .assign => "--assign <NAME=BOOL>"
  | opt => "--" ++ opt.longName

def ofLongName? (name : String) : Option Opt :=
  all.find? fun opt => opt.longName == name

def ofLetter? (letter : Char) : Option Opt :=
  all.find? fun opt => opt.letter? == some letter

def use : Opt → Use
  | .assign => .assign none
  | .table => .table
  | .json => .json
  | .help => .help
  | .version => .version

end Opt

/-- The uses of a cluster, without the dash. Nothing if any of its characters is not the letter of an
    option. -/
def cluster? : List Char → Option (List Use)
  | [] => some []
  | letter :: rest => do
    let opt ← Opt.ofLetter? letter
    let uses ← cluster? rest
    if opt = .assign then
      return [.assign (if rest.isEmpty then none else some (String.ofList rest))]
    else
      return opt.use :: uses

inductive Argument where
  /-- The `--` that ends the options. -/
  | separator
  | options (uses : List Use)
  /-- An option that takes no value, with a value. -/
  | excess (opt : Opt) (value : String)
  /-- Anything else. -/
  | word
  deriving DecidableEq, Repr, Inhabited

namespace Argument

/-- What a long argument is, given without the dashes. -/
def ofLong (text : List Char) : Argument :=
  match Opt.ofLongName? (String.ofList (text.takeWhile fun c => c != '=')) with
  | none => .word
  | some opt =>
    match opt, text.dropWhile fun c => c != '=' with
    | opt, [] => .options [opt.use]
    | .assign, _ :: value => .options [.assign (some (String.ofList value))]
    | opt, _ :: value => .excess opt (String.ofList value)

def ofText (text : String) : Argument :=
  match text.toList with
  | ['-', '-'] => .separator
  | '-' :: '-' :: long => ofLong long
  | '-' :: letter :: rest =>
    match cluster? (letter :: rest) with
    | some uses => .options uses
    | none => .word
  | _ => .word

end Argument

end Sentential.CommandLine
