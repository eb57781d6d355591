/-! # Text without terminal controls

A text may hold characters that direct a terminal and are not shown: single controls, and control
sequences, which start with an escape character. `plain` is what is left of a text without them.

A sequence ends with its final character, with a cancelling control, or with the escape character of
the next sequence. Tabs, line feeds, form feeds and carriage returns lay text out and are kept, except
inside strings. One that stands inside a sequence makes the text behind it shown as well, up to the
next control, and the sequence goes on from there. Characters outside ASCII do not end a sequence; but
inside a string the byte `0x9c` does, also as a part of the UTF-8 form of a character.
-/

namespace Sentential.Text

/-- Where a control sequence stands. -/
inductive ControlState where
  | ground
  | escape
  | intermediate
  | parameters
  | deviceStart
  | deviceParameters
  | deviceIntermediate
  /-- Inside a string that the string terminator ends. -/
  | string
  /-- Inside a system command, which a bell ends. -/
  | command
  deriving DecidableEq, Repr, Inhabited

namespace ControlState

def afterEscape (byte : Nat) : ControlState :=
  if 0x20 ≤ byte ∧ byte ≤ 0x2f then .intermediate
  else if byte = 0x50 then .deviceStart
  else if byte = 0x58 ∨ byte = 0x5e ∨ byte = 0x5f then .string
  else if byte = 0x5b then .parameters
  else if byte = 0x5d then .command
  else if 0x30 ≤ byte ∧ byte ≤ 0x7e then .ground
  else .escape

/-- The state behind one more byte of the header of a device control string. `parameter` tells which
    bytes go on with its parameters. -/
def afterHeader (state : ControlState) (parameter : Nat → Bool) (byte : Nat) : ControlState :=
  if 0x20 ≤ byte ∧ byte ≤ 0x2f then .deviceIntermediate
  else if parameter byte then .deviceParameters
  else if 0x30 ≤ byte ∧ byte ≤ 0x7e then .string
  else state

def next (state : ControlState) (byte : Nat) : ControlState :=
  if byte = 0x18 ∨ byte = 0x1a then .ground
  else if byte = 0x1b then .escape
  else match state with
    | .ground => .ground
    | .escape => afterEscape byte
    | .intermediate => if 0x30 ≤ byte ∧ byte ≤ 0x7e then .ground else .intermediate
    | .parameters => if 0x40 ≤ byte ∧ byte ≤ 0x7e then .ground else .parameters
    | .deviceStart => afterHeader .deviceStart (fun byte => 0x30 ≤ byte && byte ≤ 0x3f) byte
    | .deviceParameters => afterHeader .deviceParameters (fun byte => 0x30 ≤ byte && byte ≤ 0x3b) byte
    | .deviceIntermediate => afterHeader .deviceIntermediate (fun _ => false) byte
    | .string => if byte = 0x9c then .ground else .string
    | .command => if byte = 0x07 then .ground else .command

/-- The state behind a character, which is read byte by byte. -/
def read (state : ControlState) (c : Char) : ControlState :=
  (String.utf8EncodeChar c).foldl (fun state byte => state.next byte.toNat) state

def keepsLayout : ControlState → Bool
  | .ground | .escape | .intermediate | .parameters => true
  | .deviceStart | .deviceParameters | .deviceIntermediate | .string | .command => false

end ControlState

def isLayout (c : Char) : Bool :=
  c = '\t' || c = '\n' || c = '\x0c' || c = '\r'

def isShown (c : Char) : Bool :=
  isLayout c || (0x20 ≤ c.toNat && c != '\x7f')

/-- What is left of characters in a state. With `showing` the text is shown up to the next control,
    although the state may be that of a sequence. -/
def plainFrom (state : ControlState) (showing : Bool) : List Char → List Char
  | [] => []
  | c :: rest =>
    if isShown c && (showing || state == .ground) || isLayout c && state.keepsLayout then
      c :: plainFrom (if c.toNat < 0x80 then state else .ground) true rest
    else
      plainFrom (state.read c) false rest

/-- What is left of a text without the controls and control sequences of a terminal. -/
def plain (text : String) : String :=
  String.ofList (plainFrom .ground false text.toList)

end Sentential.Text
