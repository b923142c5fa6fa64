import RiscvImage.Main
import RiscvImage.Proofs.ByteString.Windows
import RiscvImage.Proofs.Memory.Regions
import RiscvImage.Proofs.Memory.WellFormed
import RiscvImage.Proofs.Memory.Access
import RiscvImage.Proofs.Elf.Table
import RiscvImage.Proofs.Loading.Walk
import RiscvImage.Proofs.Machine.Reachable
import RiscvImage.Proofs.Machine.Invariant
import RiscvImage.Proofs.Memory.ByteMap
import RiscvImage.Proofs.Memory.Mapping
import RiscvImage.Proofs.Loading.Acceptance
import RiscvImage.Proofs.Loading.Footprint
import RiscvImage.Proofs.Loading.Reordering
import RiscvImage.Proofs.Loading.Interruption
import RiscvImage.Proofs.Loading.Agreement
import RiscvImage.Proofs.Section.Reachable
import RiscvImage.Proofs.Object.Reachable
import RiscvImage.Proofs.Section.Growth
import RiscvImage.Proofs.Object.Growth
import RiscvImage.Proofs.Section.Bookkeeping
import RiscvImage.Proofs.Object.Independence
import RiscvImage.Proofs.Host.Sink
import RiscvImage.Proofs.Host.Destination
import RiscvImage.Proofs.Image.Emission
import RiscvImage.Proofs.Image.Chunking
import RiscvImage.Proofs.Image.Encoding
import RiscvImage.Proofs.Image.Raggedness
import RiscvImage.Proofs.Elf.Codec
import RiscvImage.Proofs.Image.Structure
import RiscvImage.Proofs.Image.Tiling
import RiscvImage.Proofs.Image.Recovery
import RiscvImage.Proofs.Loading.RoundTrip
import RiscvImage.Proofs.Loading.Addresses
import RiscvImage.Proofs.Loading.Truncation
import RiscvImage.Proofs.Loading.Program
import RiscvImage.Proofs.Section.Padding
import RiscvImage.Proofs.Section.Alignment
import RiscvImage.Proofs.Loading.Overwriting
import RiscvImage.Proofs.Host.Session
import RiscvImage.Proofs.Host.FileSystem
import RiscvImage.Proofs.Image.Storing
import RiscvImage.Proofs.Packing.Assembly
import RiscvImage.Proofs.Packing.RoundTrip
import RiscvImage.Proofs.Text.Utf8
import RiscvImage.Proofs.Image.StringTable
import RiscvImage.Proofs.Elf.Inspection
import RiscvImage.Proofs.Text.Numeral
import RiscvImage.Proofs.Text.Address
import RiscvImage.Proofs.Text.Reading
import RiscvImage.Proofs.Elf.Recoding
import RiscvImage.Proofs.Loading.Repetition
import RiscvImage.Proofs.Image.Capacity
