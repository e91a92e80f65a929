import HostAbi.Binary.Reads.Module
import HostAbi.Command.Spelling
import HostAbi.Main
import HostAbi.Platform.Primitive
import HostAbi.Proofs.Acceptance
import HostAbi.Proofs.Appending
import HostAbi.Proofs.Arrangement
import HostAbi.Proofs.Classification
import HostAbi.Proofs.CommandLine
import HostAbi.Proofs.Composition
import HostAbi.Proofs.Consistency
import HostAbi.Proofs.EntryBytes
import HostAbi.Proofs.Extension
import HostAbi.Proofs.FindingLines
import HostAbi.Proofs.FirstFailure
import HostAbi.Proofs.Footprint
import HostAbi.Proofs.Halving
import HostAbi.Proofs.LayoutReading
import HostAbi.Proofs.NestedProfiles
import HostAbi.Proofs.Repinning
import HostAbi.Proofs.ReportLayout
import HostAbi.Proofs.ReportedRun
import HostAbi.Proofs.Reporting
import HostAbi.Proofs.Resumption
import HostAbi.Proofs.Startable
import HostAbi.Proofs.Silence
import HostAbi.Proofs.DeclaredCount
import HostAbi.Proofs.Window
import HostAbi.Proofs.WellFormed
