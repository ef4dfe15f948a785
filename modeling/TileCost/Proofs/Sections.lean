import TileCost.Proofs.Json.Filling
import TileCost.Proofs.SelfDelimiting

/-! The records of the settings: each keeps to the values of the grammar, and its fields do
not depend on each other. -/
namespace TileCost.Settings
open Json

theorem heatmapSectionConfined : heatmapSection.Confined :=
  Record.eachOne rfl (Field.ofConfined (quotedStringConfined _) _)

theorem estimatorSectionConfined : estimatorSection.Confined :=
  Record.eachTwo rfl
    (Field.ofConfined ((unsignedConfined _ _).mapped UInt64.toUInt32) _)
    (Field.ofConfined (someNumberConfined _ _) _)

theorem recordConfined : record.Confined :=
  Record.eachTwo rfl (Field.ofConfined (Record.readConfined heatmapSectionConfined) _)
    (Field.ofConfined (Record.readConfined estimatorSectionConfined) _)

theorem heatmapSectionDetermined : Determined Ends heatmapSection.read :=
  (Record.readDetermined heatmapSectionSettled).ofAnything

theorem estimatorSectionDetermined : Determined Ends estimatorSection.read :=
  (Record.readDetermined estimatorSectionSettled).ofAnything

theorem heatmapSectionIndependent : heatmapSection.Independent := by
  intro one member other member' apart
  simp only [heatmapSection, List.mem_singleton] at member member'
  subst member member'
  exact absurd rfl apart

theorem estimatorSectionIndependent : estimatorSection.Independent :=
  Record.independentPair rfl
    (Field.ofCommutes natural32Determined float64Determined fun _ _ _ => rfl)
    (Field.ofCommutes float64Determined natural32Determined fun _ _ _ => rfl)

theorem recordIndependent : record.Independent :=
  Record.independentPair rfl
    (Field.ofCommutes heatmapSectionDetermined estimatorSectionDetermined fun _ _ _ => rfl)
    (Field.ofCommutes estimatorSectionDetermined heatmapSectionDetermined fun _ _ _ => rfl)

end TileCost.Settings
