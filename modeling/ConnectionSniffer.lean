import ConnectionSniffer.Library.BySide
import ConnectionSniffer.Library.HashMap
import ConnectionSniffer.Library.MessageQueue
import ConnectionSniffer.Library.Outcome
import ConnectionSniffer.Library.Run
import ConnectionSniffer.Library.TreeSet
import ConnectionSniffer.Library.SearchTree
import ConnectionSniffer.Io.DynamicByteArrayInputStream
import ConnectionSniffer.Io.StreamInvariant
import ConnectionSniffer.Io.StreamFraming
import ConnectionSniffer.Packet.ConnectionDetail
import ConnectionSniffer.Packet.ConnectionIdentity
import ConnectionSniffer.Packet.TCPPacket
import ConnectionSniffer.Connection.ConnectionFilter
import ConnectionSniffer.Connection.TCPConnectionImpl
import ConnectionSniffer.Connection.Handlers
import ConnectionSniffer.Receiver.HandlePacket
import ConnectionSniffer.Receiver.Drain
import ConnectionSniffer.Receiver.PacketReceiverImpl
import ConnectionSniffer.Receiver.Pick
import ConnectionSniffer.Receiver.Run
import ConnectionSniffer.Receiver.FilterEnforcement
import ConnectionSniffer.Receiver.Isolation
import ConnectionSniffer.Receiver.Reassembly
import ConnectionSniffer.Receiver.Retransmission
import ConnectionSniffer.Receiver.InOrder
import ConnectionSniffer.Receiver.FullDuplex
import ConnectionSniffer.Receiver.Streams
import ConnectionSniffer.Library.Reorder
import ConnectionSniffer.Receiver.CaptureOrder
import ConnectionSniffer.Library.Dialogue
import ConnectionSniffer.Io.ReadLoop
import ConnectionSniffer.Receiver.Turns
import ConnectionSniffer.Library.Walk
import ConnectionSniffer.Receiver.Announcements
import ConnectionSniffer.Receiver.Buffering
import ConnectionSniffer.Receiver.Atomicity
import ConnectionSniffer.Receiver.Shadowing
import ConnectionSniffer.Receiver.Refusals
import ConnectionSniffer.Receiver.Gaps
import ConnectionSniffer.Connection.JpcapFilter
import ConnectionSniffer.Connection.FilterSetup
import ConnectionSniffer.Receiver.AcceptConnection
import ConnectionSniffer.Receiver.ObsoleteConnectionCleaner
import ConnectionSniffer.Receiver.Discards
import ConnectionSniffer.Receiver.OldPackets
import ConnectionSniffer.Receiver.States
import ConnectionSniffer.Receiver.IdleDrain
import ConnectionSniffer.Receiver.Termination
import ConnectionSniffer.Receiver.StateFlags
import ConnectionSniffer.Io.StreamCases
import ConnectionSniffer.Io.StreamConservation
import ConnectionSniffer.Io.StreamBounds
import ConnectionSniffer.Io.StreamCapacity
import ConnectionSniffer.Connection.FilterAtomicity
import ConnectionSniffer.Receiver.CleanerPass
import ConnectionSniffer.Receiver.Promotion
import ConnectionSniffer.Receiver.Handlings
import ConnectionSniffer.Receiver.Finishing
import ConnectionSniffer.Receiver.Answering
import ConnectionSniffer.Receiver.Handshake
import ConnectionSniffer.Library.ChunkedCoding
import ConnectionSniffer.Library.Window
import ConnectionSniffer.Io.InputStream
import ConnectionSniffer.Io.ChunkedInputStream
import ConnectionSniffer.Io.ChunkedParser
import ConnectionSniffer.Io.ChunkedReading
import ConnectionSniffer.Io.ChunkedDecoding
import ConnectionSniffer.Io.ChunkedMessages
import ConnectionSniffer.Library.RandomAccessFile
import ConnectionSniffer.Io.FixLengthStreamFileCache
import ConnectionSniffer.Io.CacheRuns
import ConnectionSniffer.Receiver.Overtaking
import ConnectionSniffer.Receiver.MaybeBroken
import ConnectionSniffer.Jpcap.Analyze
import ConnectionSniffer.Jpcap.GetPacket
import ConnectionSniffer.Jpcap.CaptureHistory
import ConnectionSniffer.Jpcap.Segment
import ConnectionSniffer.Jpcap.PppoeTransparency
import ConnectionSniffer.Jpcap.CapturedBytes
import ConnectionSniffer.Jpcap.Sniffing
import ConnectionSniffer.Receiver.ObjectReceiver
import ConnectionSniffer.Receiver.UsedOnce
import ConnectionSniffer.Library.OnesComplement
import ConnectionSniffer.Jpcap.Sender
import ConnectionSniffer.Jpcap.SentSegment
import ConnectionSniffer.Jpcap.SendRoundTrip
