import ToolchainRelease.Main
import ToolchainRelease.Node
import ToolchainRelease.Proofs.Text.Grammar
import ToolchainRelease.Proofs.Text.Arrangement
import ToolchainRelease.Proofs.Text.Reading
import ToolchainRelease.Proofs.Text.Slots
import ToolchainRelease.Proofs.Records
import ToolchainRelease.Proofs.RecordTypes
import ToolchainRelease.Proofs.Acceptance
import ToolchainRelease.Proofs.Text.Spelling
import ToolchainRelease.Proofs.Text.Printing
import ToolchainRelease.Proofs.RoundTrip
import ToolchainRelease.Proofs.ReleaseFile
import ToolchainRelease.Proofs.Text.FailedReading
import ToolchainRelease.Proofs.FailedMerge
import ToolchainRelease.Proofs.Output.LimitedSink
import ToolchainRelease.Proofs.Text.TokenStarts
import ToolchainRelease.Proofs.Combination
import ToolchainRelease.Proofs.Text.Lowering
import ToolchainRelease.Proofs.Text.Resuming
import ToolchainRelease.Proofs.Concatenation
import ToolchainRelease.Proofs.Text.Trivia
import ToolchainRelease.Proofs.ReadBack
import ToolchainRelease.Proofs.Validation
import ToolchainRelease.Proofs.Output.Buffering
import ToolchainRelease.Proofs.Files.OutputFile
import ToolchainRelease.Proofs.SavedFile
import ToolchainRelease.Proofs.Run
import ToolchainRelease.Proofs.FaultPlaces
import ToolchainRelease.Proofs.BuiltRelease
import ToolchainRelease.Proofs.ToolBinaries
import ToolchainRelease.Proofs.PrintedMerge
import ToolchainRelease.Proofs.LiteralValues
import ToolchainRelease.Proofs.TargetToolchain
import ToolchainRelease.Proofs.Output.BufferedDevice
import ToolchainRelease.Proofs.BufferedOutput
import ToolchainRelease.Proofs.Reordering
import ToolchainRelease.Proofs.Text.PrintedLines
import ToolchainRelease.Proofs.PrintedLayout
import ToolchainRelease.Proofs.ToolLookup
import ToolchainRelease.Proofs.Text.Occurrences
import ToolchainRelease.Proofs.Files.SystemFaults
import ToolchainRelease.Proofs.FailureLine
import ToolchainRelease.Proofs.Toml.DistinctKeys
import ToolchainRelease.Proofs.TargetsFile
import ToolchainRelease.Text.Cursor
import ToolchainRelease.Proofs.Text.Layout
import ToolchainRelease.Proofs.Tokenization
