import FlowGraph.Adjacency
import FlowGraph.Architecture
import FlowGraph.Binary64
import FlowGraph.Binary64.Shortest
import FlowGraph.Block
import FlowGraph.BlockFlags
import FlowGraph.BuildScript
import FlowGraph.CommandLine
import FlowGraph.Compact
import FlowGraph.Compact.Build
import FlowGraph.Compact.Expand
import FlowGraph.Compact.Format
import FlowGraph.Dictionary
import FlowGraph.Edge
import FlowGraph.Error
import FlowGraph.Exchange
import FlowGraph.FileOperation
import FlowGraph.Files
import FlowGraph.Function
import FlowGraph.Graph
import FlowGraph.Graph.View
import FlowGraph.IntegerArray
import FlowGraph.Json.Decoder
import FlowGraph.Json.Document
import FlowGraph.Json.Numeral
import FlowGraph.Json.Token
import FlowGraph.Json.Value
import FlowGraph.Json.Writer
import FlowGraph.Library
import FlowGraph.Main
import FlowGraph.Normalizer
import FlowGraph.Program
import FlowGraph.Proofs.Accepted
import FlowGraph.Proofs.AddressTexts
import FlowGraph.Proofs.Annotations
import FlowGraph.Proofs.Batch
import FlowGraph.Proofs.BatchFiles
import FlowGraph.Proofs.BlockCounts
import FlowGraph.Proofs.BlockEdges
import FlowGraph.Proofs.CanonicalRuns
import FlowGraph.Proofs.Collisions
import FlowGraph.Proofs.ColumnTexts
import FlowGraph.Proofs.Columns
import FlowGraph.Proofs.Contents
import FlowGraph.Proofs.Decoders
import FlowGraph.Proofs.Described
import FlowGraph.Proofs.Detection
import FlowGraph.Proofs.Documents
import FlowGraph.Proofs.Equality
import FlowGraph.Proofs.Exchanged
import FlowGraph.Proofs.Expanded
import FlowGraph.Proofs.Faithful
import FlowGraph.Proofs.FreeAddresses
import FlowGraph.Proofs.Gaps
import FlowGraph.Proofs.Immediates
import FlowGraph.Proofs.Imported
import FlowGraph.Proofs.InPlace
import FlowGraph.Proofs.Incremental
import FlowGraph.Proofs.LineShape
import FlowGraph.Proofs.Literals
import FlowGraph.Proofs.Loaded
import FlowGraph.Proofs.Lookups
import FlowGraph.Proofs.Lossless
import FlowGraph.Proofs.Matrices
import FlowGraph.Proofs.Merged
import FlowGraph.Proofs.NamedFunctions
import FlowGraph.Proofs.Names
import FlowGraph.Proofs.NarrowColumns
import FlowGraph.Proofs.Numerals
import FlowGraph.Proofs.Operations
import FlowGraph.Proofs.Outcome
import FlowGraph.Proofs.Paths
import FlowGraph.Proofs.Placement
import FlowGraph.Proofs.Provenance
import FlowGraph.Proofs.Queries
import FlowGraph.Proofs.Reachable
import FlowGraph.Proofs.Readings
import FlowGraph.Proofs.Reassembled
import FlowGraph.Proofs.Rebuilt
import FlowGraph.Proofs.Recipients
import FlowGraph.Proofs.Recompacted
import FlowGraph.Proofs.Refiled
import FlowGraph.Proofs.Refusals
import FlowGraph.Proofs.Relined
import FlowGraph.Proofs.Reloaded
import FlowGraph.Proofs.Renumbered
import FlowGraph.Proofs.Replayed
import FlowGraph.Proofs.Residue
import FlowGraph.Proofs.Restored
import FlowGraph.Proofs.Returned
import FlowGraph.Proofs.Rewriting
import FlowGraph.Proofs.Rows
import FlowGraph.Proofs.Runs
import FlowGraph.Proofs.Saved
import FlowGraph.Proofs.ScriptCalls
import FlowGraph.Proofs.ScriptTerms
import FlowGraph.Proofs.ScriptTexts
import FlowGraph.Proofs.ScriptTokens
import FlowGraph.Proofs.Search
import FlowGraph.Proofs.Settled
import FlowGraph.Proofs.SharedTokens
import FlowGraph.Proofs.SignedZeros
import FlowGraph.Proofs.SmallLetters
import FlowGraph.Proofs.Sound
import FlowGraph.Proofs.Source
import FlowGraph.Proofs.Table
import FlowGraph.Proofs.TokenTables
import FlowGraph.Proofs.Tokens
import FlowGraph.Proofs.Untouched
import FlowGraph.Proofs.Wiring
import FlowGraph.Proofs.Words
import FlowGraph.Proofs.Written
import FlowGraph.RunLength
import FlowGraph.Snapshot
import FlowGraph.Text.Blank
import FlowGraph.Text.Case
import FlowGraph.Text.CaseTable
import FlowGraph.Text.Natural
import FlowGraph.Text.Quoted
import FlowGraph.Text.Range
import FlowGraph.Text.Unprintable
