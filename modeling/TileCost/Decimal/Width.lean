/-! Conversion between the two widths of binary floats. Widening is exact;
narrowing rounds to nearest with ties to even, and what is too large becomes an
infinity. Both are stated on the unpacked number, so that they compute in proofs. -/
namespace TileCost.Decimal
open Float.Model (Format UnpackedFloat)

def rounded (format : Format) : UnpackedFloat → UnpackedFloat
  | .finite sign m e _ => UnpackedFloat.round format sign m e
  | other => other

def narrow (x : Float) : Float32 := ⟨.pack (rounded .binary32 x.toModel.unpack)⟩

def widen (x : Float32) : Float := ⟨.pack (rounded .binary64 x.toModel.unpack)⟩

example : (narrow (Float.ofBits 0x47effffff0000000)).toBits = 0x7f800000 := by decide +kernel
example : (narrow (Float.ofBits 0x47efffffefffffff)).toBits = 0x7f7fffff := by decide +kernel
example : (narrow (Float.ofBits 0x3690000000000000)).toBits = 0 := by decide +kernel
example : (narrow (Float.ofBits 0x3690000000000001)).toBits = 1 := by decide +kernel
example : (widen (Float32.ofBits 1)).toBits = 0x36a0000000000000 := by decide +kernel

end TileCost.Decimal
