import Mathlib
import TileCost.Session

/-! Nothing that is written as JSON breaks a line: numbers have no line end in them,
and strings have theirs escaped. So a reply is one line whatever it is about. -/
namespace TileCost

namespace Decimal.Layout

@[simp] theorem digitsUnbroken (n : Nat) : '\n' ∉ Nat.toDigits 10 n := by
  intro mem
  have digit := Nat.isDigit_of_mem_toDigits (by decide) (by decide) mem
  exact absurd digit (by decide)

theorem wholeUnbroken (l : Layout) : '\n' ∉ l.whole := by
  unfold whole
  split <;> decide

theorem positionUnbroken (l : Layout) {digits : List Char} (plain : '\n' ∉ digits) (leading : Int) :
    '\n' ∉ l.position digits leading := by
  unfold position
  dsimp only
  split
  · simp [plain]
  · split
    · simp [plain, l.wholeUnbroken]
    · have front (n) : '\n' ∉ digits.take n := fun mem => plain (List.mem_of_mem_take mem)
      have back (n) : '\n' ∉ digits.drop n := fun mem => plain (List.mem_of_mem_drop mem)
      simp [front, back]

theorem exponentUnbroken (l : Layout) (leading : Int) : '\n' ∉ l.exponent leading := by
  unfold exponent
  dsimp only
  split
  · simp
  · split <;> simp

theorem scientificUnbroken (l : Layout) {digits : List Char} (plain : '\n' ∉ digits)
    (leading : Int) : '\n' ∉ l.scientific digits leading := by
  unfold scientific
  split <;> simp_all [exponentUnbroken]

theorem magnitudeUnbroken (l : Layout) (d : Short) : '\n' ∉ l.magnitude d := by
  unfold magnitude
  dsimp only
  split
  · exact l.positionUnbroken (digitsUnbroken _) _
  · exact l.scientificUnbroken (digitsUnbroken _) _

theorem signedUnbroken (sign : Float.Model.UnpackedFloat.Sign) {text : List Char}
    (plain : '\n' ∉ text) : '\n' ∉ signed sign text := by
  cases sign <;> simp [signed, plain]

end Decimal.Layout

namespace Json
open Decimal (Layout)

theorem floatUnbroken (x : Float) : '\n' ∉ writeFloat x := by
  unfold writeFloat Layout.float Layout.text
  split
  · decide
  · decide
  · decide
  · exact Layout.signedUnbroken _ (by decide)
  · exact Layout.signedUnbroken _ (Layout.magnitudeUnbroken _ _)

theorem digitCharUnbroken : ∀ n < 16, '\n' ≠ Nat.digitChar n := by decide

theorem escapedUnbroken (c : Char) : '\n' ∉ escaped c := by
  unfold escaped
  split <;> try decide
  rename_i other _ _
  split
  · rename_i control
    simp only [isControl, decide_eq_true_eq] at control
    have high := digitCharUnbroken (c.toNat / 16) (by omega)
    have low := digitCharUnbroken (c.toNat % 16) (by omega)
    simp [high, low]
  · simpa using fun same => other same.symm

@[simp] theorem stringUnbroken (text : List Char) : '\n' ∉ writeString text := by
  simp [writeString, escapedUnbroken]

@[simp] theorem joinedUnbroken {items : List (List Char)} (plain : ∀ item ∈ items, '\n' ∉ item) :
    '\n' ∉ joined items := by
  induction items with
  | nil => simp [joined]
  | cons item items ih =>
      obtain ⟨head, tail⟩ := List.forall_mem_cons.mp plain
      cases items with
      | nil => exact head
      | cons next items => simp [joined, head, ih tail]

theorem listUnbroken {items : List (List Char)} (plain : ∀ item ∈ items, '\n' ∉ item) :
    '\n' ∉ writeList items := by
  simp [writeList, joinedUnbroken plain]

theorem objectUnbroken {members : List (List Char)} (plain : ∀ m ∈ members, '\n' ∉ m) :
    '\n' ∉ writeObject members := by
  simp [writeObject, joinedUnbroken plain]

theorem memberUnbroken (name : String) {value : List Char} (plain : '\n' ∉ value) :
    '\n' ∉ writeMember name value := by
  simp [writeMember, plain]

end Json

theorem Tile.unbroken (t : Tile) : '\n' ∉ t.write := by
  apply Json.listUnbroken
  simp [Json.writeNat]

theorem Reply.unbroken (r : Reply) : '\n' ∉ r.write := by
  apply Json.objectUnbroken
  simp [Estimate.costMembers, Json.memberUnbroken, r.tile.unbroken, Json.floatUnbroken, Json.writeNat]

end TileCost
