import Freshness.Toml.Definition
import Freshness.Toml.Quoted

/-!
# Keys

A key is a bare word or a string of one line.  Keys are joined by dots to a path, with blanks
around each of them.
-/

namespace Freshness.Toml

/-- Whether a character may stand in a bare key. -/
def isKeyChar (c : Char) : Bool :=
  c.isAlphanum || c = '_' || c = '-'

def readBareKey (text : List Char) : Option (String × List Char) :=
  let (word, rest) := text.span isKeyChar
  if word.isEmpty then none else some (String.ofList word, rest)

def readKey (text : List Char) : Option (String × List Char) :=
  match text with
  | '"' :: rest => (readLineString .basic rest).map (Prod.map String.ofList id)
  | '\'' :: rest => (readLineString .literal rest).map (Prod.map String.ofList id)
  | _ => readBareKey text

/-- Reads the keys of a path, with the blanks around them. -/
def readKeys (text : List Char) : Option (List String × List Char) := do
  let (name, rest) ← readKey (skipBlanks text)
  match skipBlanks rest with
  | '.' :: rest =>
    if _h : rest.length < text.length then
      let (names, rest) ← readKeys rest
      return (name :: names, rest)
    else none
  | rest => return ([name], rest)
termination_by text.length

def KeyPath.maxLength : Nat := 79

/-- Reads a path of keys, with the blanks around it. -/
def KeyPath.read (text : List Char) : Option (KeyPath × List Char) := do
  let (names, rest) ← readKeys text
  let last ← names.getLast?
  if names.length ≤ maxLength then some (⟨names.dropLast, last⟩, rest) else none

end Freshness.Toml
