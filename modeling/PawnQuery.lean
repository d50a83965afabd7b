import PawnQuery.Config.JsonForm
import PawnQuery.Engine.Summary
import PawnQuery.Main
import PawnQuery.Proofs.Engine.Waiting
import PawnQuery.Proofs.Registry.Lookup
import PawnQuery.Proofs.Registry.Tables
import PawnQuery.Proofs.Engine.Alone
import PawnQuery.Proofs.Engine.Course
import PawnQuery.Proofs.Registry.Owner
import PawnQuery.Proofs.Registry.Sweep
import PawnQuery.Proofs.Registry.Turns
import PawnQuery.Proofs.Engine.Publication
import PawnQuery.Proofs.Registry.Strays
import PawnQuery.Proofs.Registry.Routine
import PawnQuery.Proofs.Registry.Attention
import PawnQuery.Proofs.Registry.Overlooked
import PawnQuery.Proofs.Symbols.Changes
import PawnQuery.Proofs.Compiler.Session
import PawnQuery.Proofs.Engine.Balance
import PawnQuery.Proofs.Engine.Delivery
import PawnQuery.Proofs.Report.RoundTrip
import PawnQuery.Proofs.Registry.Stability
import PawnQuery.Proofs.Registry.Hindrance
import PawnQuery.Proofs.CommandLine.ParsedContext
import PawnQuery.Proofs.Registry.Spelling
import PawnQuery.Proofs.Registry.Updating
import PawnQuery.Proofs.Registry.FirstWorkspaces
import PawnQuery.Proofs.Engine.Vacated
import PawnQuery.Proofs.Report.KeptMembers
import PawnQuery.Proofs.Report.Respelled
import PawnQuery.Proofs.Report.LineScan
import PawnQuery.Proofs.Report.LineEnds
import PawnQuery.Proofs.Output.Symbols
import PawnQuery.Proofs.Registry.EntryPoint
import PawnQuery.Proofs.Registry.Told
import PawnQuery.Proofs.CommandLine.Owners
