/-! The shortest decimal of a binary number. Each finite float stands for the
span of reals that round to it. Of all decimals inside that span the one with
the fewest digits is chosen, and of those the nearest to the float; two equally
near neighbours are told apart by the `Tie` the caller names. All of it is exact
arithmetic on naturals. -/
namespace TileCost.Decimal
open Float.Model (Format)

inductive Tie where
  | even
  | up
  deriving DecidableEq, Repr

/- `low / unit`, `mid / unit` and `high / unit` are the ends and the value; the
ends themselves belong to the span when it is closed. -/
structure Span where
  low : Nat
  mid : Nat
  high : Nat
  unit : Nat
  closed : Bool
  deriving DecidableEq, Repr

/- The neighbour below a power of two is only half as far away, except at the
smallest exponent, where the steps do not shrink any further. -/
def Span.ofFinite (format : Format) (m : Nat) (e : Int) : Span :=
  let below := if m = Nat.pow 2 format.mantissaBitsWithoutImplicit ∧ format.minExponent < e then 1 else 2
  let scale := Nat.pow 2 (e - 2).toNat
  ⟨(4 * m - below) * scale, 4 * m * scale, (4 * m + 2) * scale, Nat.pow 2 (2 - e).toNat, m % 2 = 0⟩

def Span.contains (s : Span) (numerator unit : Nat) : Bool :=
  let below := s.low * unit
  let above := s.high * unit
  let point := numerator * s.unit
  if s.closed then below ≤ point && point ≤ above else below < point && point < above

structure Short where
  coefficient : Nat
  exponent : Int
  deriving DecidableEq, Repr

/- On the grid of the multiples of `10^exponent` only the two neighbours of the
value can be the answer: a point further out is inside only if they are. -/
def Span.onGrid (s : Span) (tie : Tie) (exponent : Int) : Option Nat :=
  let grain := Nat.pow 10 exponent.toNat
  let fine := Nat.pow 10 (-exponent).toNat
  let lower := s.mid * fine / (s.unit * grain)
  match s.contains (lower * grain) fine, s.contains ((lower + 1) * grain) fine with
  | false, false => none
  | true, false => some lower
  | false, true => some (lower + 1)
  | true, true =>
      match compare (2 * (s.mid * fine)) ((2 * lower + 1) * (s.unit * grain)), tie with
      | .lt, _ => some lower
      | .gt, _ => some (lower + 1)
      | .eq, .up => some (lower + 1)
      | .eq, .even => some (if lower % 2 = 0 then lower else lower + 1)

def Span.descend (s : Span) (tie : Tie) : Nat → Int → Short
  | 0, exponent => ⟨0, exponent⟩
  | fuel + 1, exponent =>
      match s.onGrid tie exponent with
      | some coefficient => ⟨coefficient, exponent⟩
      | none => s.descend tie fuel (exponent - 1)

/- A power of ten above the whole span; 0.30103 is just above the decimal
logarithm of two. Seventeen digits always suffice, so the search is short. -/
def ceiling (m : Nat) (e : Int) : Int := (m.log2 + e + 1) * 30103 / 100000 + 2

def shortest (format : Format) (tie : Tie) (m : Nat) (e : Int) : Short :=
  (Span.ofFinite format m e).descend tie 24 (ceiling m e)

end TileCost.Decimal
