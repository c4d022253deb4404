import Freshness.Toml.Document

/-!
# Settings

Two things can be set: the version that the client runs, as `current_version` of the section
`client`, and whether prereleases count as updates, as `include_prereleases` of the section
`behavior`.  All else in a document is ignored, as long as the document can be read.  What is not
set keeps its default; what is set to a value of the wrong kind is a fault, never a default.
-/

namespace Freshness

open Toml (Table Value)

structure Settings where
  currentVersion : Option String := none
  includePrereleases : Bool := false
  deriving DecidableEq, Repr

namespace Settings

inductive Fault
  /-- It is no document. -/
  | document (fault : Toml.Fault)
  /-- A key has a value of the wrong kind. -/
  | wrongKind (key : String)
  deriving DecidableEq, Repr

def Fault.message : Fault → String
  | document fault => fault.message
  | wrongKind key => "wrong kind of value for '" ++ key ++ "'"

/-- The value of the one key of a section, if it is set.  A section may also be an array, whose
first item is the value, and a date sets nothing. -/
def setting? (document : Table) (heading key : String) : Except Fault (Option Value) :=
  match document.get? heading with
  | none => .ok none
  | some (.table _ entries) => .ok (Table.get? entries key)
  | some (.array items) => .ok items.head?
  | some (.tables last earlier) => .ok (some (.table .header (earlier.getLast?.getD last)))
  | some (.dateTime _) => .ok none
  | some _ => .error (.wrongKind heading)

def currentVersionOf (document : Table) : Except Fault (Option String) := do
  match ← setting? document "client" "current_version" with
  | none => return none
  | some (.string text) => return some text
  | some _ => throw (.wrongKind "current_version")

def includePrereleasesOf (document : Table) : Except Fault Bool := do
  match ← setting? document "behavior" "include_prereleases" with
  | none => return false
  | some (.boolean value) => return value
  | some _ => throw (.wrongKind "include_prereleases")

def ofDocument (document : Table) : Except Fault Settings := do
  return {
    currentVersion := ← currentVersionOf document
    includePrereleases := ← includePrereleasesOf document }

def ofText (text : String) : Except Fault Settings := do
  let document ← (Toml.read text).mapError .document
  ofDocument document

end Settings

end Freshness
