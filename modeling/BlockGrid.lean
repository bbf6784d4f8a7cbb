import BlockGrid.Json.Reader
import BlockGrid.Json.Writer
import BlockGrid.Tree.Program
import BlockGrid.Tree.Blocks
import BlockGrid.Command.Walker
import BlockGrid.Command.Count
import BlockGrid.Command.Expansion
import BlockGrid.Grid.Motion
import BlockGrid.Grid.Arguments
import BlockGrid.Challenge.Catalog
import BlockGrid.Run.Session
import BlockGrid.Run.Pacing
import BlockGrid.Trace.Recorder
import BlockGrid.Trace.Check
import BlockGrid.Trace.Store
import BlockGrid.Trace.Attribute
import BlockGrid.Trace.Location
import BlockGrid.File.Folder
import BlockGrid.Text.Decimal
import BlockGrid.Main
import BlockGrid.Proofs.Command.Walk
import BlockGrid.Proofs.Grid.Path
import BlockGrid.Proofs.Run.Course
import BlockGrid.Proofs.Run.Admission
import BlockGrid.Proofs.Run.Uninterrupted
import BlockGrid.Proofs.Run.Timeline
import BlockGrid.Proofs.Run.Lives
import BlockGrid.Proofs.Run.Histories
import BlockGrid.Proofs.Run.Interleaving
import BlockGrid.Proofs.Run.Verdicts
import BlockGrid.Proofs.Run.Stopping
import BlockGrid.Proofs.Command.Effects
import BlockGrid.Proofs.Grid.Trail
import BlockGrid.Proofs.Grid.Gathering
import BlockGrid.Proofs.Text.Numeral
import BlockGrid.Proofs.Tree.Node
import BlockGrid.Proofs.Tree.Reading
import BlockGrid.Proofs.Run.Ingestion
import BlockGrid.Proofs.Trace.Name
import BlockGrid.Proofs.Trace.Columns
import BlockGrid.Proofs.Grid.Travel
import BlockGrid.Proofs.Trace.Session
import BlockGrid.Proofs.Trace.Entries
import BlockGrid.Proofs.Trace.RoundTrip
import BlockGrid.Proofs.Trace.Failures
import BlockGrid.Proofs.Grid.Rebuild
import BlockGrid.Proofs.Trace.Warnings
import BlockGrid.Proofs.Run.Seeding
import BlockGrid.Proofs.Tree.Blocks
import BlockGrid.Proofs.Run.Replay
import BlockGrid.Proofs.Run.Reload
import BlockGrid.Proofs.Trace.Loading
import BlockGrid.Proofs.Trace.Listing
import BlockGrid.Proofs.Trace.Comparisons
import BlockGrid.Proofs.Trace.Flaws
import BlockGrid.Proofs.Trace.Doubts
import BlockGrid.Proofs.Trace.Revalidation
import BlockGrid.Proofs.Trace.Meaning
import BlockGrid.Proofs.Trace.Packing
import BlockGrid.Proofs.Trace.Soundness
import BlockGrid.Proofs.Run.Recording
import BlockGrid.Proofs.Launch.Gates
import BlockGrid.Proofs.Launch.Notices
import BlockGrid.Proofs.File.Reading
import BlockGrid.Proofs.Launch.ExitCode
import BlockGrid.Proofs.Launch.Unanswered
import BlockGrid.Proofs.Tree.Preorder
import BlockGrid.Proofs.Run.Rewriting
import BlockGrid.Proofs.Grid.Seeds
import BlockGrid.Proofs.Run.Refusals
import BlockGrid.Proofs.Run.Wiring
import BlockGrid.Proofs.Run.OpenTrace
import BlockGrid.Proofs.Run.Pairing
import BlockGrid.Proofs.Number.Value
import BlockGrid.Proofs.Text.Spelling
import BlockGrid.Proofs.Tree.Fields
import BlockGrid.Proofs.Tree.Spelling
import BlockGrid.Proofs.Command.Count
import BlockGrid.Proofs.Tree.Export
import BlockGrid.Proofs.Run.Exported
import BlockGrid.Proofs.Command.Headway
import BlockGrid.Proofs.Run.Counting
import BlockGrid.Proofs.Grid.Mask
import BlockGrid.Proofs.Grid.Playable
import BlockGrid.Proofs.Run.FreshBoard
import BlockGrid.Proofs.Grid.Lockstep
import BlockGrid.Proofs.Grid.Relisting
import BlockGrid.Proofs.Grid.Retrace
import BlockGrid.Proofs.Grid.Spelling
import BlockGrid.Proofs.Json.Escape
import BlockGrid.Proofs.Json.RoundTrip
import BlockGrid.Proofs.Trace.Description
import BlockGrid.Proofs.Challenge.Checks
import BlockGrid.Proofs.Challenge.Descriptor
import BlockGrid.Proofs.Challenge.Catalog
import BlockGrid.Proofs.Json.Distinct
import BlockGrid.Proofs.Json.Overlay
import BlockGrid.Proofs.Launch.Options
import BlockGrid.Proofs.Launch.Precedence
import BlockGrid.Proofs.Run.Paced
import BlockGrid.Proofs.Trace.Attribution
import BlockGrid.Proofs.Command.Idle
import BlockGrid.Proofs.Launch.Budget
