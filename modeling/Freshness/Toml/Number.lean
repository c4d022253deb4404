import Freshness.Toml.Quoted

/-!
# Numbers of TOML

Integers are signed 64-bit numbers.  A float is kept as the decimal that is written, a coefficient
times a power of ten, so that nothing is rounded; the one thing that rounding decides is whether a
positive float is too large for a double, in which case it is refused.
-/

namespace Freshness.Toml

/-- The value of a digit in a base up to sixteen. -/
def digit? (base : Nat) (c : Char) : Option Nat :=
  (hexDigit? c).filter (· < base)

/-- The digits of a numeral, where single underscores may stand between digits. -/
def digits? (base : Nat) (text : List Char) : Option (List Nat) := do
  let groups ← (text.splitOn '_').mapM (·.mapM (digit? base))
  if groups.any List.isEmpty then none else some groups.flatten

def ofDigits (base : Nat) (digits : List Nat) : Nat :=
  digits.foldl (fun value digit => base * value + digit) 0

/-- The digits of a decimal numeral without a needless leading zero. -/
def wholeDigits? (text : List Char) : Option (List Nat) := do
  let digits ← digits? 10 text
  if text.head? = some '0' ∧ text ≠ ['0'] then none else some digits

/-- The sign at the start of a numeral, true for a minus, and what follows it. -/
def splitSign : List Char → Bool × List Char
  | '-' :: rest => (true, rest)
  | '+' :: rest => (false, rest)
  | text => (false, text)

def signed (negative : Bool) (value : Nat) : Int :=
  if negative then -value else value

/-- The value of an integer, whatever its size. -/
def unboundedInteger? : List Char → Option Int
  | '0' :: 'x' :: text => return ofDigits 16 (← digits? 16 text)
  | '0' :: 'o' :: text => return ofDigits 8 (← digits? 8 text)
  | '0' :: 'b' :: text => return ofDigits 2 (← digits? 2 text)
  | text => do
    let (negative, text) := splitSign text
    return signed negative (ofDigits 10 (← wholeDigits? text))

def integer? (word : List Char) : Option Int :=
  (unboundedInteger? word).filter fun value =>
    -0x8000000000000000 ≤ value ∧ value < 0x8000000000000000

inductive Float
  | finite (negative : Bool) (coefficient : Nat) (exponent : Int)
  | infinite (negative : Bool)
  | notANumber
  deriving DecidableEq, Repr

namespace Float

/-- The least number that a double no longer holds, halfway between the largest double and the
power of two above it. -/
def limit : Nat :=
  (Nat.pow 2 54 - 1) * Nat.pow 2 970

/-- Whether `coefficient * 10 ^ exponent` reaches the limit.  The place of its first digit decides
that, unless it is the same as that of the limit, which has 309 digits. -/
def reachesLimit (coefficient : Nat) (exponent : Int) : Bool :=
  let place : Int := (Nat.toDigits 10 coefficient).length + exponent
  if coefficient = 0 ∨ place < 309 then false
  else if 309 < place then true
  else coefficient * Nat.pow 10 exponent.toNat ≥ limit * Nat.pow 10 (-exponent).toNat

/-- The value of a decimal with a fraction of so many digits. -/
def ofParts (negative : Bool) (whole fraction : List Nat) (exponent : Int) : Float :=
  finite negative (ofDigits 10 (whole ++ fraction)) (exponent - fraction.length)

end Float

/-- The digits after the point of a mantissa; there are none without a point. -/
def fraction? : List Char → Option (List Nat)
  | [] => some []
  | '.' :: text => digits? 10 text
  | _ => none

/-- The power of ten that the end of a float gives, from its `e` on. -/
def exponent? : List Char → Option Int
  | [] => some 0
  | _ :: text => do
    let (negative, text) := splitSign text
    return signed negative (ofDigits 10 (← digits? 10 text))

def unsignedFloat? (negative : Bool) (text : List Char) : Option Float := do
  if text = ['i', 'n', 'f'] then return .infinite negative
  if text = ['n', 'a', 'n'] then return .notANumber
  let (mantissa, power) := text.span fun c => c ≠ 'e' ∧ c ≠ 'E'
  let (whole, fraction) := mantissa.span (· ≠ '.')
  if fraction.isEmpty && power.isEmpty then none
  return .ofParts negative (← wholeDigits? whole) (← fraction? fraction) (← exponent? power)

/-- Whether a float is within the range of doubles; on the negative side all are. -/
def Float.isInRange : Float → Bool
  | finite false coefficient exponent => !reachesLimit coefficient exponent
  | _ => true

def float? (word : List Char) : Option Float :=
  let (negative, text) := splitSign word
  (unsignedFloat? negative text).filter Float.isInRange

end Freshness.Toml
