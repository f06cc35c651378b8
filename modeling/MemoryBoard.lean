import MemoryBoard.Main
import MemoryBoard.Memory.View
import MemoryBoard.Monitor
import MemoryBoard.Proofs.CommandLine.Conversion
import MemoryBoard.Proofs.CommandLine.Ending
import MemoryBoard.Proofs.CommandLine.Failure
import MemoryBoard.Proofs.CommandLine.Frame
import MemoryBoard.Proofs.CommandLine.Listing
import MemoryBoard.Proofs.CommandLine.Setup
import MemoryBoard.Proofs.Config.Assignments
import MemoryBoard.Proofs.Config.Packed
import MemoryBoard.Proofs.Config.Record
import MemoryBoard.Proofs.Config.Truncation
import MemoryBoard.Proofs.Containment
import MemoryBoard.Proofs.HexDump
import MemoryBoard.Proofs.HexRecord.Acceptance
import MemoryBoard.Proofs.HexRecord.Corruption
import MemoryBoard.Proofs.HexRecord.Length
import MemoryBoard.Proofs.HexRecord.RoundTrip
import MemoryBoard.Proofs.HexRecord.Runs
import MemoryBoard.Proofs.Memory.Partition
import MemoryBoard.Proofs.Memory.Planes
import MemoryBoard.Proofs.Memory.Sections
import MemoryBoard.Proofs.MemoryMap.Acceptance
import MemoryBoard.Proofs.MemoryMap.Building
import MemoryBoard.Proofs.MemoryMap.Defect
import MemoryBoard.Proofs.MemoryMap.Extent
import MemoryBoard.Proofs.MemoryMap.Invariant
import MemoryBoard.Proofs.MemoryMap.Layout
import MemoryBoard.Proofs.MemoryMap.Order
import MemoryBoard.Proofs.Rejection
import MemoryBoard.Proofs.Scan.ByteText
import MemoryBoard.Proofs.Uf2.Framing
import MemoryBoard.Proofs.Uf2.Written
