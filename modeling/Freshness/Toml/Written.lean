import Freshness.Toml.Key

/-!
# Written values

Reads a value from the text that starts with it.  Arrays may run over several lines and end with a
comma; inline tables do neither.
-/

namespace Freshness.Toml

def isWordChar (c : Char) : Bool :=
  c.isAlphanum || c ∈ ['+', '-', '_', '.', ':']

def Value.ofWord? (word : List Char) : Option Value :=
  if word = ['t', 'r', 'u', 'e'] then some (.boolean true)
  else if word = ['f', 'a', 'l', 's', 'e'] then some (.boolean false)
  else
    (DateTime.ofText? word).map .dateTime
      <|> (float? word).map .float
      <|> (integer? word).map .integer

/-- The word at the start of a text.  A date takes with it the time that a space separates from
it. -/
def splitWord (text : List Char) : List Char × List Char :=
  let (first, rest) := text.span isWordChar
  match rest with
  | ' ' :: c :: after =>
    if c.isDigit && isDate first then
      let (second, rest) := (c :: after).span isWordChar
      (first ++ ' ' :: second, rest)
    else (first, rest)
  | _ => (first, rest)

def readWordValue : Reader Value := fun text =>
  let (first, rest) := splitWord text
  (Value.ofWord? first).map fun value => (value, rest)

/-- Reads the items of an array and the bracket that closes it. -/
def readItems (item : Reader Value) (text : List Char) : Option (List Value × List Char) :=
  match skipGaps false text with
  | ']' :: rest => some ([], rest)
  | start => do
    let (value, rest) ← item start
    match skipGaps false rest with
    | ',' :: rest =>
      if _h : rest.length < text.length then
        let (values, rest) ← readItems item rest
        return (value :: values, rest)
      else none
    | ']' :: rest => return ([value], rest)
    | _ => none
termination_by text.length

/-- Reads one entry of an inline table into those before it. -/
def readEntry (item : Reader Value) (table : Table) : Reader Table := fun text => do
  let (path, rest) ← KeyPath.read text
  let (value, rest) ← item (skipBlanks (← expect '=' rest))
  return (← table.assign path value, skipBlanks rest)

/-- Reads entries of an inline table into those before them, and the brace that closes it. -/
def readEntries (item : Reader Value) (table : Table) (text : List Char) :
    Option (Table × List Char) := do
  let (table, rest) ← readEntry item table text
  match rest with
  | ',' :: rest =>
    if _h : rest.length < text.length then readEntries item table rest else none
  | '}' :: rest => return (table, rest)
  | _ => none
termination_by text.length

def readInlineTable (item : Reader Value) : Reader Table := fun text =>
  match skipBlanks text with
  | '}' :: rest => some ([], rest)
  | _ => readEntries item [] text

/-- Reads a value in which arrays and inline tables are nested at most `depth` deep. -/
def readValueWithin (depth : Nat) (text : List Char) : Option (Value × List Char) :=
  match text with
  | '[' :: rest =>
    match depth with
    | 0 => none
    | depth + 1 =>
      (readItems (readValueWithin depth) rest).map (Prod.map .array id)
  | '{' :: rest =>
    match depth with
    | 0 => none
    | depth + 1 =>
      (readInlineTable (readValueWithin depth) rest).map (Prod.map (.table .inline) id)
  | '"' :: _ => (readQuoted .basic text).map (Prod.map .string id)
  | '\'' :: _ => (readQuoted .literal text).map (Prod.map .string id)
  | _ => readWordValue text

/-- How deep arrays and inline tables may be nested. -/
def Value.maxDepth : Nat := 79

def Value.read : Reader Value :=
  readValueWithin maxDepth

end Freshness.Toml
