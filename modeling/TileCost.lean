import TileCost.Disk.Tree
import TileCost.Main
import TileCost.Proofs.Store
import TileCost.Proofs.Positive
import TileCost.Proofs.Rules
import TileCost.Proofs.Sentinel
import TileCost.Proofs.Loading
import TileCost.Proofs.Lines
import TileCost.Proofs.Run
import TileCost.Proofs.SelfDelimiting
import TileCost.Proofs.RoundTrip
import TileCost.Proofs.Observation
import TileCost.Proofs.Locality
import TileCost.Proofs.Text.Pieces
import TileCost.Proofs.TileText
import TileCost.Proofs.Arrangement
import TileCost.Proofs.Account
import TileCost.Proofs.Growth
import TileCost.Proofs.Canonical
import TileCost.Proofs.Builders
import TileCost.Proofs.Defaults
import TileCost.Proofs.Neighbours
import TileCost.Proofs.Coverage
import TileCost.Proofs.Fallback
import TileCost.Proofs.Override
import TileCost.Proofs.ByName
import TileCost.Proofs.Widths
import TileCost.Proofs.Overflow
import TileCost.Proofs.Culprit
import TileCost.Proofs.TilesOnly
import TileCost.Proofs.TileForms
import TileCost.Proofs.Json.Tokens
