import TileCost.Decimal.Shortest

/-! How a float is written once its shortest digits are known. A layout is the
set of choices one kind of output makes: where positional notation ends, whether
a whole number keeps a zero after the point, the sign of exponents, ties, and
the words for what is no number. -/
namespace TileCost.Decimal
open Float.Model (Format UnpackedFloat)

structure Layout where
  positional : Option (Int × Int)
  fraction : Bool
  plus : Bool
  tie : Tie
  notANumber : String
  infinity : String
  negativeInfinity : String
  deriving DecidableEq, Repr

namespace Layout

def isPositional (l : Layout) (leading : Int) : Bool :=
  match l.positional with
  | none => true
  | some (least, most) => least ≤ leading && leading ≤ most

def whole (l : Layout) : List Char := if l.fraction then ['.', '0'] else []

def position (l : Layout) (digits : List Char) (leading : Int) : List Char :=
  if leading < 0 then '0' :: '.' :: List.replicate (-leading - 1).toNat '0' ++ digits
  else
    let count := leading.toNat + 1
    if digits.length ≤ count then
      digits ++ List.replicate (count - digits.length) '0' ++ l.whole
    else digits.take count ++ '.' :: digits.drop count

def exponent (l : Layout) (leading : Int) : List Char :=
  let sign := if leading < 0 then ['-'] else if l.plus then ['+'] else []
  'e' :: sign ++ Nat.toDigits 10 leading.natAbs

def scientific (l : Layout) (digits : List Char) (leading : Int) : List Char :=
  match digits with
  | first :: second :: rest => first :: '.' :: second :: rest ++ l.exponent leading
  | digits => digits ++ l.exponent leading

def magnitude (l : Layout) (d : Short) : List Char :=
  let digits := Nat.toDigits 10 d.coefficient
  let leading := d.exponent + digits.length - 1
  if l.isPositional leading then l.position digits leading else l.scientific digits leading

def signed : UnpackedFloat.Sign → List Char → List Char
  | .positive, text => text
  | .negative, text => '-' :: text

def text (l : Layout) (format : Format) : UnpackedFloat → List Char
  | .notANumber => l.notANumber.toList
  | .infinity .positive => l.infinity.toList
  | .infinity .negative => l.negativeInfinity.toList
  | .zero sign => signed sign ('0' :: l.whole)
  | .finite sign m e _ => signed sign (l.magnitude (shortest format l.tie m e))

def float (l : Layout) (x : Float) : List Char := l.text .binary64 x.toModel.unpack

def float32 (l : Layout) (x : Float32) : List Char := l.text .binary32 x.toModel.unpack

end Layout
end TileCost.Decimal
