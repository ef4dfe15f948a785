import TileCost.Tile
import TileCost.Text.Blank
import TileCost.Text.Split
import TileCost.Text.Quoted

/-! The written form of a tile, `M,N,K`: three extents between commas, each with
white space around it if one likes. An extent is one optional plus sign and
decimal digits whose value fits 64 bits. Reading reports the leftmost part that
is no extent, and in it the leftmost character that goes wrong. -/
namespace TileCost.Extents

inductive Reason where
  | empty
  | digit
  | large
  deriving DecidableEq, Repr

def Reason.message : Reason → String
  | empty => "cannot parse integer from empty string"
  | digit => "invalid digit found in string"
  | large => "number too large to fit in target type"

inductive Fault where
  | shape
  | extent (part : List Char) (why : Reason)
  deriving DecidableEq, Repr

def Fault.message (text : List Char) : Fault → String
  | shape => s!"expected M,N,K but got {Text.quoted text}"
  | extent part why =>
      s!"invalid extent {Text.quoted part} in {Text.quoted text}: {why.message}"

/- A digit is judged before the size: the value stays below 2^64 after every
digit that was taken, so whichever comes first in the text is the one reported. -/
def digits (value : Nat) : List Char → Except Reason Nat
  | [] => .ok value
  | c :: rest =>
      if c.isDigit then
        let next := value * 10 + (c.toNat - '0'.toNat)
        if next < 2 ^ 64 then digits next rest else .error .large
      else .error .digit

def unsigned : List Char → Except Reason Nat
  | [] => .error .digit
  | text => digits 0 text

def extent : List Char → Except Reason UInt64
  | [] => .error .empty
  | '+' :: rest => (unsigned rest).map Nat.toUInt64
  | text => (unsigned text).map Nat.toUInt64

def part (text : List Char) : Except Fault UInt64 :=
  (extent text).mapError (.extent text)

def read (text : List Char) : Except Fault Tile :=
  match (Text.parts ',' text).map Text.trimmed with
  | [m, n, k] => do return ⟨← part m, ← part n, ← part k⟩
  | _ => .error .shape

end TileCost.Extents

namespace TileCost

def Tile.ofText (text : String) : Except Extents.Fault Tile := Extents.read text.toList

end TileCost
