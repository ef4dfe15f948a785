import TileCost.Json.Skip
import TileCost.Decimal.Width

/-! Readers of values of one expected kind. A value of another kind is still read
when it is a scalar, so that the report can name it; of a list or an object only
the bracket is looked at. -/
namespace TileCost.Json

def mismatch (expected : String) (text : List Char) : Failure :=
  let report (found : Found) (rest : List Char) : Failure :=
    (Cause.wrongType found expected).before rest
  let named (found : Found) : Except Failure (List Char) → Failure
    | .ok rest => report found rest
    | .error failure => failure
  match text with
  | [] => Cause.endOfValue.before []
  | 'n' :: rest => named .null (word ['u', 'l', 'l'] rest)
  | 't' :: rest => named (.boolean true) (word ['r', 'u', 'e'] rest)
  | 'f' :: rest => named (.boolean false) (word ['a', 'l', 's', 'e'] rest)
  | '"' :: rest =>
      match string [] rest with
      | .ok (value, rest) => report (.string value) rest
      | .error failure => failure
  | '[' :: rest => report .sequence ('[' :: rest)
  | '\x7b' :: rest => report .map ('\x7b' :: rest)
  | text =>
      if text.head? = some '-' ∨ startsDigit text then
        match number text with
        | .ok (value, rest) => report value.found rest
        | .error failure => failure
      else Cause.noValue.into text

def startsNumber (text : List Char) : Bool := text.head? = some '-' || startsDigit text

def someNumber (expected : String) (take : Number → Except Cause α) : Reader α := fun text => do
  let text := space text
  if startsNumber text then
    let (value, rest) ← number text
    match take value with
    | .ok x => return (x, rest)
    | .error cause => throw (cause.before rest)
  else throw (mismatch expected text)

def unsigned (most : UInt64) (expected : String) : Reader UInt64 :=
  someNumber expected fun
    | .natural value =>
        if value ≤ most then .ok value else .error (.wrongValue (.integer value.toNat) expected)
    | .negative size => .error (.wrongValue (.integer (-size.toNat)) expected)
    | .real value => .error (.wrongType (.floating value) expected)

def natural64 : Reader UInt64 := unsigned 0xffffffffffffffff "u64"

def natural32 : Reader UInt32 := fun text => do
  let (value, rest) ← unsigned 0xffffffff "u32" text
  return (value.toUInt32, rest)

def natural16 : Reader UInt16 := fun text => do
  let (value, rest) ← unsigned 0xffff "u16" text
  return (value.toUInt16, rest)

def Number.toFloat : Number → Float
  | natural value => value.toFloat
  | negative size => -size.toFloat
  | real value => value

/- Integers go straight to the narrow width; only a numeral with a fraction or an
exponent is rounded twice. -/
def Number.toFloat32 : Number → Float32
  | natural value => value.toFloat32
  | negative size => -size.toFloat32
  | real value => Decimal.narrow value

def float64 : Reader Float := someNumber "f64" fun value => .ok value.toFloat

def float32 : Reader Float32 := someNumber "f32" fun value => .ok value.toFloat32

def quotedString (expected : String) : Reader (List Char) := fun text =>
  match space text with
  | '"' :: rest => string [] rest
  | text => .error (mismatch expected text)

end TileCost.Json
