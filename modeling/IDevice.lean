import IDevice.Lib.LittleEndian
import IDevice.Lib.Binary32
import IDevice.Lib.Callback
import IDevice.Lib.Cursor
import IDevice.Lib.Heap
import IDevice.Lib.HeapProgram
import IDevice.Lib.Machine
import IDevice.Lib.Mask
import IDevice.Lib.Memory
import IDevice.Lib.Patch
import IDevice.Lib.Segments
import IDevice.Lib.SparseFile
import IDevice.Lib.Stream
import IDevice.Lib.UnorderedMap
import IDevice.Message.Primitive
import IDevice.Message.Message
import IDevice.Message.Deserialize
import IDevice.Message.DecodeBounds
import IDevice.Message.Lengths
import IDevice.Message.Payload
import IDevice.Message.Objects
import IDevice.Message.Held
import IDevice.Message.HeldValues
import IDevice.Message.Lifetimes
import IDevice.Message.Leaks
import IDevice.Message.Entries
import IDevice.Message.Accepts
import IDevice.Message.Codec
import IDevice.Message.Arguments
import IDevice.Message.Capacity
import IDevice.Message.Reencode
import IDevice.Wire.Header
import IDevice.Wire.Parser
import IDevice.Wire.Chunking
import IDevice.Wire.Windows
import IDevice.Wire.Framing
import IDevice.Wire.Afresh
import IDevice.Wire.BadFrame
import IDevice.Wire.Frame
import IDevice.Wire.Transmitter
import IDevice.Wire.Fragmenter
import IDevice.Wire.Reports
import IDevice.Wire.RoundTrip
import IDevice.Wire.Pieces
import IDevice.Wire.Reassembly
import IDevice.Wire.MemoryParser
import IDevice.Wire.Received
import IDevice.Transport.Buffered
import IDevice.Transport.Refines
import IDevice.Transport.Fragments
import IDevice.Transport.SendThread
import IDevice.Transport.MemorySender
import IDevice.Transport.Broken
import IDevice.Connection.Model
import IDevice.Connection.Step
import IDevice.Connection.Invariant
import IDevice.Connection.Handlers
import IDevice.Connection.Routing
import IDevice.Connection.Replies
import IDevice.Connection.Sync
import IDevice.Connection.Identifiers
import IDevice.Connection.Pending
import IDevice.Connection.Reentrancy
import IDevice.Connection.OnTheWire
import IDevice.Threads.Model
import IDevice.Threads.Lifecycle
import IDevice.Threads.Packets
import IDevice.Threads.Ownership
import IDevice.Threads.PacketFlow
import IDevice.Utils.BufferMemory
import IDevice.Utils.ByteBuffer
import IDevice.Session.Model
import IDevice.Session.Isolation
import IDevice.Session.Corrupt
import IDevice.Channels.Model
import IDevice.Channels.Dispatch
import IDevice.Queue.BlockingQueue
import IDevice.Tools.Template
import IDevice.Tools.Decoder
import IDevice.Tools.Recording
