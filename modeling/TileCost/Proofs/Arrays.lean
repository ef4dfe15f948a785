import TileCost.Proofs.Json.Filling
import TileCost.Proofs.Json.Sound
import TileCost.Proofs.SelfDelimiting

/-! The record of the heatmap: two arrays that are read element by element, neither of
which depends on the other. -/
namespace TileCost.Heatmap
open Json

def sizes (key : Key) : List UInt16 := [key.m, key.n, key.k]

theorem keyElementwise : Elementwise natural16 readKey sizes := by
  have begins : Begins natural16 := (unsignedBegins _ _).mapped UInt64.toUInt16
  have confined : Confined natural16 := (unsignedConfined _ _).mapped UInt64.toUInt16
  exact (tripleElementwise begins confined).mapped (f := ofSizes)
    (fun key => ⟨(key.m, key.n, key.k), rfl⟩) fun _ => rfl

theorem keysElementwise : Elementwise readKey (list readKey) id :=
  listElementwise ((tripleBegins natural16).mapped ofSizes) keyElementwise.confined

theorem valuesElementwise : Elementwise float32 (list float32) id :=
  listElementwise (someNumberBegins _ _) (someNumberConfined _ _)

theorem keysDetermined : Determined Ends (list readKey) :=
  (listDetermined readKeyDetermined.ofAnything).ofAnything

theorem valuesDetermined : Determined Ends (list float32) :=
  (listDetermined float32Determined).ofAnything

theorem recordConfined : record.Confined :=
  Record.eachTwo rfl (Field.ofConfined keysElementwise.confined _)
    (Field.ofConfined valuesElementwise.confined _)

theorem recordSound : Sound record.read := by
  have sizes : Sound natural16 := (unsignedSound _ _).mapped UInt64.toUInt16
  have keys : Sound (list readKey) := listSound ((tripleSound sizes).mapped ofSizes)
  have values : Sound (list float32) := listSound (someNumberSound _ _)
  exact Record.readSound (Record.eachTwo rfl (Field.ofSound keys _) (Field.ofSound values _))

theorem recordIndependent : record.Independent :=
  Record.independentPair rfl
    (Field.ofCommutes keysDetermined valuesDetermined fun _ _ _ => rfl)
    (Field.ofCommutes valuesDetermined keysDetermined fun _ _ _ => rfl)

end TileCost.Heatmap
