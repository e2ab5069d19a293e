import BlockStage.Main
import BlockStage.Procedure
import BlockStage.Proofs.ProcedureIndex
import BlockStage.Proofs.Binding
import BlockStage.Proofs.Dispatch
import BlockStage.Proofs.Moves
import BlockStage.Proofs.Warp
import BlockStage.Proofs.Actions
import BlockStage.Proofs.Visits
import BlockStage.Proofs.Scopes
import BlockStage.Proofs.TargetIndex
import BlockStage.Proofs.Branches
import BlockStage.Proofs.IndexMeaning
import BlockStage.Proofs.TargetMarks
import BlockStage.Proofs.ArgumentLists
import BlockStage.Proofs.Loading
import BlockStage.Proofs.StateChanges
import BlockStage.Proofs.Ticks
import BlockStage.Proofs.RegistryHistory
import BlockStage.Proofs.SpriteBlocks
import BlockStage.Proofs.Failures
import BlockStage.Proofs.PrototypeWarnings
import BlockStage.Proofs.Report
import BlockStage.Proofs.FloatArithmetic
import BlockStage.Proofs.StageHistory
import BlockStage.Proofs.Directions
import BlockStage.Proofs.FinitePositions
import BlockStage.Proofs.WaitingAddons
import BlockStage.Proofs.SettingParameters
import BlockStage.Proofs.CommandBranches
import BlockStage.Proofs.SignatureDecoding
import BlockStage.Proofs.InputDecoding
import BlockStage.Proofs.DroppedCalls
import BlockStage.Proofs.ReadingPositions
import BlockStage.Proofs.WallPushes
import BlockStage.Proofs.BetweenWalls
import BlockStage.Proofs.PairedStacks
