import Freshness.Toml.Written

/-!
# Documents

A document is a sequence of lines.  A header opens a table, and the assignments after it belong to
that table; those before the first header belong to the document itself.
-/

namespace Freshness.Toml

inductive Statement
  | assignment (path : KeyPath) (value : Value)
  | header (path : KeyPath)
  | elementHeader (path : KeyPath)

def readAssignment : Reader Statement := fun text => do
  let (path, rest) ← KeyPath.read text
  let (value, rest) ← Value.read (skipBlanks (← expect '=' rest))
  return (.assignment path value, rest)

/-- Reads what a line says; a blank line or a comment says nothing. -/
def readStatement : Reader (Option Statement) := fun text =>
  match skipBlanks text with
  | '[' :: '[' :: rest => do
    let (path, rest) ← KeyPath.read rest
    return (some (.elementHeader path), ← expect ']' rest >>= expect ']')
  | '[' :: rest => do
    let (path, rest) ← KeyPath.read rest
    return (some (.header path), ← expect ']' rest)
  | [] => some (none, [])
  | '#' :: rest => some (none, '#' :: rest)
  | '\n' :: rest => some (none, '\n' :: rest)
  | '\r' :: rest => some (none, '\r' :: rest)
  | text => (readAssignment text).map (Prod.map some id)

inductive Fault
  /-- A line, counted from one, says nothing that can be read. -/
  | unreadable (line : Nat)
  /-- A key or a table is defined twice, or something closed is added to. -/
  | redefined (path : KeyPath)
  deriving DecidableEq, Repr

def Fault.message : Fault → String
  | unreadable line => "cannot read line " ++ toString line
  | redefined path => "cannot define '" ++ ".".intercalate path.names ++ "' again"

/-- Reads what a line says and the end of the line. -/
def readLine : Reader (Option Statement) := fun text => do
  let (said, rest) ← readStatement text
  return (said, ← endLine? rest)

/-- The statements of a text whose first line has the given number. -/
def readStatements (number : Nat) (text : List Char) : Except Fault (List Statement) :=
  if text.isEmpty then .ok []
  else
    match readLine text with
    | some (said, rest) =>
      if _h : rest.length < text.length then
        (readStatements (number + (text.count '\n' - rest.count '\n')) rest).map (said.toList ++ ·)
      else .error (.unreadable number)
    | none => .error (.unreadable number)
termination_by text.length

/-- A document under construction: its entries so far and the path of the table that assignments
go to. -/
structure Draft where
  entries : Table
  current : List String

def Draft.add (draft : Draft) : Statement → Except Fault Draft
  | .assignment path value =>
    match draft.entries.descend (·.assign path value) draft.current with
    | some entries => .ok { draft with entries }
    | none => .error (.redefined path)
  | .header path =>
    match draft.entries.openTable path with
    | some entries => .ok ⟨entries, path.names⟩
    | none => .error (.redefined path)
  | .elementHeader path =>
    match draft.entries.appendTable path with
    | some entries => .ok ⟨entries, path.names⟩
    | none => .error (.redefined path)

/-- The text without the byte-order mark that may stand at its start. -/
def dropByteOrderMark : List Char → List Char
  | '\uFEFF' :: rest => rest
  | text => text

def read (text : String) : Except Fault Table := do
  let statements ← readStatements 1 (dropByteOrderMark text.toList)
  let draft ← statements.foldlM Draft.add ⟨[], []⟩
  return draft.entries

end Freshness.Toml
