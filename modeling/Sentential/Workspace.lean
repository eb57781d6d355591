import Sentential.Formula.Eval
import Sentential.Formula.Nodes
import Sentential.Named
import Sentential.TruthTable

/-! # Workspaces

A workspace holds formulas in named slots, and bindings for the names of atoms. Commands fill slots,
change bindings and ask about the formulas; a formula is never changed once it is in a slot.
-/

namespace Sentential

structure Workspace where
  slots : Named Formula
  bindings : Named Bool

inductive Command where
  | parse (slot text : String)
  | reparse (slot : String)
  | bind (name : String) (value : Bool)
  | unbind (name : String)
  | eval (slot : String)
  | node (slot : String) (index : Nat)
  | symbols (slot : String)
  | table (slot : String)
  | compare (slot other : String)
  deriving Repr, Inhabited

inductive Reply where
  | parsed (formula : Formula)
  | rejected (error : ParseError)
  | bindings (bindings : Named Bool)
  | truth (value : Bool)
  | node (node? : Option Node)
  | symbols (names : List String)
  | text (text : String)
  | emptySlot

namespace Workspace

def empty : Workspace := ⟨.empty, .empty⟩

/-- Reads a text into a slot; if it is not a formula the slot keeps what it holds. -/
def parseInto (workspace : Workspace) (slot text : String) : Workspace × Reply :=
  match Formula.parse text with
  | .ok formula => ({ workspace with slots := workspace.slots.put slot formula }, .parsed formula)
  | .error error => (workspace, .rejected error)

def ask (workspace : Workspace) (slot : String) (reply : Formula → Reply) : Reply :=
  match workspace.slots.get? slot with
  | some formula => reply formula
  | none => .emptySlot

def step (workspace : Workspace) : Command → Workspace × Reply
  | .parse slot text => workspace.parseInto slot text
  | .reparse slot =>
    match workspace.slots.get? slot with
    | some formula => workspace.parseInto slot formula.linearForm
    | none => (workspace, .emptySlot)
  | .bind name value =>
    let bindings := workspace.bindings.put name value
    ({ workspace with bindings }, .bindings bindings)
  | .unbind name =>
    let bindings := workspace.bindings.erase name
    ({ workspace with bindings }, .bindings bindings)
  | .eval slot =>
    (workspace, workspace.ask slot fun formula => .truth (formula.eval workspace.bindings.get?))
  | .node slot index => (workspace, workspace.ask slot fun formula => .node formula.nodes[index]?)
  | .symbols slot => (workspace, workspace.ask slot fun formula => .symbols formula.symbols)
  | .table slot =>
    (workspace, workspace.ask slot fun formula => .text (TruthTable.ofFormula formula).display)
  | .compare slot other =>
    (workspace, workspace.ask slot fun formula => workspace.ask other fun formula' =>
      .truth (formula == formula'))

def run (workspace : Workspace) : List Command → List Reply
  | [] => []
  | command :: rest =>
    let (workspace, reply) := workspace.step command
    reply :: run workspace rest

end Workspace

end Sentential
