import MsgTrans.Connection.Admission
import MsgTrans.Connection.Budget
import MsgTrans.Connection.Deadline
import MsgTrans.Connection.Holding
import MsgTrans.Connection.InFlight
import MsgTrans.Connection.InlineBudget
import MsgTrans.Connection.Outcome
import MsgTrans.Connection.Rested
import MsgTrans.Connection.Resumes
import MsgTrans.Connection.Room
import MsgTrans.Connection.Shutdown
import MsgTrans.Connection.Slots
import MsgTrans.Connection.Writer
import MsgTrans.Core.Decoding
import MsgTrans.Core.Decompression
import MsgTrans.Core.Exchanges
import MsgTrans.Core.Grammar
import MsgTrans.Core.Streaming
import MsgTrans.Core.ZlibCodec
import MsgTrans.Core.ZstdCodec
import MsgTrans.Core.ZstdTermination
import MsgTrans.Lib.Incremental
import MsgTrans.Lib.LinearProbing
import MsgTrans.Lib.Programs
import MsgTrans.Quic.Attempts
import MsgTrans.Quic.Endpoints
import MsgTrans.Quic.Open
import MsgTrans.Transport.Agreement
import MsgTrans.Transport.IdMap
import MsgTrans.Transport.InboundBytes
import MsgTrans.Transport.ReactorQueue
import MsgTrans.WebSocket.Acceptor
import MsgTrans.WebSocket.Messages
import MsgTrans.WebSocket.Session
import MsgTrans.Lib.Jobs
import MsgTrans.Transport.Server
import MsgTrans.Connection.Outbox
import MsgTrans.Transport.Delivery
import MsgTrans.Core.RoundTrip
import MsgTrans.WebSocket.Keepalive
import MsgTrans.Transport.Ordering
import MsgTrans.Lib.Handoff
import MsgTrans.Quic.Acceptor
import MsgTrans.Core.ZlibTermination
import MsgTrans.Transport.Watches
