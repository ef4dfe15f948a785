import TileCost.Json.Text

/-! JSON numbers. A numeral is first taken apart into its digits and only then
given a value, so a reader that skips it shares the first half. Integers keep
their value as long as they fit; every other numeral becomes a double through a
64-bit significand and one multiplication or division by a power of ten. -/
namespace TileCost.Json

structure Numeral where
  negative : Bool
  whole : List Char
  fraction : Option (List Char)
  exponent : Option (Bool × List Char)
  deriving DecidableEq, Repr

def startsDigit : List Char → Bool
  | c :: _ => c.isDigit
  | [] => false

def run (text : List Char) : List Char × List Char := text.span Char.isDigit

def wholePart (ended : Cause) : Reader (List Char)
  | [] => .error (ended.before [])
  | '0' :: rest =>
      if startsDigit rest then .error (Cause.badNumber.into rest) else .ok (['0'], rest)
  | c :: rest =>
      if c.isDigit then .ok (run (c :: rest)) else .error (Cause.badNumber.into (c :: rest))

def digitsAfter (ended : Cause) (text : List Char) : Except Failure (List Char × List Char) :=
  if startsDigit text then .ok (run text)
  else match text with
    | [] => .error (ended.before [])
    | text => .error (Cause.badNumber.into text)

def fractionPart (ended : Cause) : Reader (Option (List Char))
  | '.' :: rest => do
      let (digits, rest) ← digitsAfter ended rest
      return (some digits, rest)
  | text => .ok (none, text)

def exponentSign : List Char → Bool × List Char
  | '+' :: rest => (false, rest)
  | '-' :: rest => (true, rest)
  | text => (false, text)

def isExponentMark (c : Char) : Bool := c = 'e' || c = 'E'

def exponentPart (ended : Cause) : Reader (Option (Bool × List Char))
  | [] => .ok (none, [])
  | c :: rest =>
      if isExponentMark c then do
        let (negative, rest) := exponentSign rest
        let (digits, rest) ← digitsAfter ended rest
        return (some (negative, digits), rest)
      else .ok (none, c :: rest)

def minus : List Char → Bool × List Char
  | '-' :: rest => (true, rest)
  | text => (false, text)

def numeral (ended : Cause) : Reader Numeral := fun text => do
  let (negative, text) := minus text
  let (whole, text) ← wholePart ended text
  let (fraction, text) ← fractionPart ended text
  let (exponent, text) ← exponentPart ended text
  return (⟨negative, whole, fraction, exponent⟩, text)

def digitValue (c : Char) : Nat := c.toNat - '0'.toNat

/- Digits enter the significand until the first that would not fit 64 bits; the
second part is what was not taken. -/
def absorb (significand : Nat) : List Char → Nat × List Char
  | [] => (significand, [])
  | c :: rest =>
      let next := significand * 10 + digitValue c
      if next < 2 ^ 64 then absorb next rest else (significand, c :: rest)

/- An exponent has to fit 31 bits; otherwise the digits behind the one that does
not are the result. -/
def smallExponent (value : Nat) : List Char → Except (List Char) Nat
  | [] => .ok value
  | c :: rest =>
      let next := value * 10 + digitValue c
      if next < 2 ^ 31 then smallExponent next rest else .error rest

def tenTo (n : Nat) : Float := Float.ofScientific 1 false n

/- A significand below 2^64 has vanished after two divisions by 10^308. -/
def scaled : Nat → Float → Int → Option Float
  | 0, _, _ => some 0
  | fuel + 1, x, exponent =>
      if exponent.natAbs ≤ 308 then
        if 0 ≤ exponent then
          let y := x * tenTo exponent.toNat
          if y.isInf then none else some y
        else some (x / tenTo exponent.natAbs)
      else if x == 0 then some x
      else if 0 ≤ exponent then none
      else scaled fuel (x / tenTo 308) (exponent + 308)

def signedFloat (negative : Bool) (x : Float) : Float := if negative then -x else x

inductive Number where
  | natural (value : UInt64)
  | negative (size : UInt64)
  | real (value : Float)
  deriving DecidableEq, Repr

def Number.found : Number → Found
  | natural value => .integer value.toNat
  | negative size => .integer (-size.toNat)
  | real value => .floating value

/- The sign applies to a positive integer of at most 2^63; otherwise to a double. -/
def Number.ofInteger (minus : Bool) (significand : Nat) : Number :=
  if !minus then natural significand.toUInt64
  else if 0 < significand ∧ significand ≤ 0x8000000000000000 then negative significand.toUInt64
  else real (-significand.toUInt64.toFloat)

def realValue (minus : Bool) (significand : Nat) (shift : Int) (exponent : Option (Bool × List Char))
    (rest : List Char) : Except Failure Float :=
  let scale (total : Int) : Except Failure Float :=
    match scaled 3 significand.toUInt64.toFloat total with
    | some x => .ok (signedFloat minus x)
    | none => .error (Cause.outOfRange.before rest)
  match exponent with
  | none => scale shift
  | some (down, digits) =>
      match smallExponent 0 digits with
      | .ok value => scale (if down then shift - value else shift + value)
      | .error untaken =>
          if significand ≠ 0 ∧ !down then .error ⟨.outOfRange, size rest + untaken.length⟩
          else .ok (signedFloat minus 0)

def Numeral.value (n : Numeral) (rest : List Char) : Except Failure Number :=
  let (significand, dropped) := absorb 0 n.whole
  match n.fraction, n.exponent, dropped with
  | none, none, [] => .ok (.ofInteger n.negative significand)
  | fraction, exponent, dropped =>
      let digits := fraction.getD []
      let (significand, untaken) := absorb significand digits
      let shift : Int := dropped.length - (digits.length - untaken.length)
      (realValue n.negative significand shift exponent rest).map .real

def number : Reader Number := fun text => do
  let (numeral, rest) ← numeral .endOfValue text
  return (← numeral.value rest, rest)

def skipNumber (text : List Char) : Except Failure (List Char) :=
  (numeral .badNumber text).map (·.2)

end TileCost.Json
