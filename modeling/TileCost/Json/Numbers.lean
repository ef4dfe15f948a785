import TileCost.Decimal.Layout

/-! How numbers are written in JSON. What is no number has no JSON form and is
written `null`. The two widths leave positional notation at different sizes. -/
namespace TileCost.Json
open Decimal (Layout)

def number64 : Layout := ⟨some (-5, 15), true, true, .even, "null", "null", "null"⟩

def number32 : Layout := {number64 with positional := some (-6, 12)}

def writeFloat (x : Float) : List Char := number64.float x

def writeFloat32 (x : Float32) : List Char := number32.float32 x

def writeNat (n : Nat) : List Char := Nat.toDigits 10 n

example : String.ofList (writeFloat 1e15) = "1000000000000000.0" := by decide +kernel
example : String.ofList (writeFloat 1e16) = "1e+16" := by decide +kernel
example : String.ofList (writeFloat 0.00001) = "0.00001" := by decide +kernel
example : String.ofList (writeFloat (-1.5e-7)) = "-1.5e-7" := by decide +kernel
example : String.ofList (writeFloat32 123456789) = "123456790.0" := by decide +kernel

end TileCost.Json
