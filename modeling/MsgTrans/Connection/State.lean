import MsgTrans.Core.PacketCodec
import MsgTrans.Core.PayloadCompression
import MsgTrans.Lib.FinMap

/-!
# Connection state

The data of `Connection` (`msgtrans/transport/Connection.kt`) on its owning reactor thread. One
step of the model is what the reactor does between two suspensions, so a coroutine that is inside
`request`, `send` or the handler loop's `enqueue` is a `Call`: where it is suspended (`Pc`), whether
its continuation has been resumed or cancelled but not run yet (`Wake`), and, for a request, its
`Pending`. Calls are numbered in the order they are made; a `Pending` is named by its call.

The suspension points are those of the source: the in-flight-slot wait, the outbound-room wait,
`outbound.send`, the `select` of `sendRacingDeadline`, the socket write and flush of the inline
writer, and `Pending.await`. The constructors of `Pc` up to `unwinding` name the places a coroutine
passes while the reactor runs it; no call is at one of them between two steps.

`resumes`, `enqueued`, `written` and `transmitted` are histories: no modelled function reads them
but `Pending.run`, which has to know whether `resume` throws.
-/

namespace MsgTrans

/-- Kotlin `WriteMode`. -/
inductive WriteMode where
  | channel
  | inline
deriving DecidableEq, Repr

/-- What `Channel(capacity)` builds: a bounded buffer, or the conflated channel of capacity `-1`. -/
inductive ChannelKind where
  | bounded (capacity : Nat)
  | conflated
deriving DecidableEq, Repr

/-- Kotlin `Channel(capacity)`: `-1` is `CONFLATED`, `-2` is `BUFFERED` (64), any other negative
capacity is refused. -/
def ChannelKind.ofCapacity (capacity : Int) : Option ChannelKind :=
  if capacity = -1 then some .conflated
  else if capacity = -2 then some (.bounded 64)
  else if capacity < 0 then none
  else some (.bounded capacity.toNat)

/-- Kotlin `ConnectionConfig`, with what its `init` block and the connection's constructor require:
both mailbox channels must accept their capacity. -/
structure Config where
  mailboxCapacity : Int := 256
  maxInFlightRequests : Int := 1024
  inboundCapacity : Int := 256
  requestTimeoutMillis : Int := 30000
  maxPayloadLength : Int := PacketCodec.DEFAULT_MAX_PAYLOAD
  maxOutboundBytes : Int := 8 * 1024 * 1024
  writeMode : WriteMode := .inline
  maxDecompressedPayloadLength : Int := 16 * 1024 * 1024
  responseCompression : Compression := .none
  requiredFirstRequestBizType : Option Int := none
  decompressed_nonneg : 0 ≤ maxDecompressedPayloadLength := by decide
  firstBizType_range : ∀ b ∈ requiredFirstRequestBizType, 0 ≤ b ∧ b ≤ 255 := by decide
  outboundKind : ChannelKind := .bounded 256
  eventsKind : ChannelKind := .bounded 256
  outboundKind_eq : ChannelKind.ofCapacity mailboxCapacity = some outboundKind := by decide
  eventsKind_eq : ChannelKind.ofCapacity inboundCapacity = some eventsKind := by decide

/-- What a connection is built from besides its stream. -/
structure Env where
  config : Config
  framing : Framing
  codecs : Codecs

/-- A `CancellableContinuation`: the call it belongs to and which of its suspensions it is. -/
structure Cont where
  call : Nat
  seq : Nat
deriving DecidableEq, Repr

/-- What a suspended coroutine is resumed with. `gate` is the `gate.onAwait` clause of the
`select` in `sendRacingDeadline`. -/
inductive Resumption where
  | unit
  | packet (p : Packet)
  | throw (e : Throwable)
  | gate
deriving DecidableEq, Repr

/-- The state of a suspension: still parked, resumed but not run yet, or cancelled. A coroutine
cancelled after it was resumed still throws `CancellationException` when it runs. -/
inductive Wake where
  | parked
  | resumed (r : Resumption)
  | resumedCancelled (r : Resumption)
  | cancelled
deriving DecidableEq, Repr

/-- How a call ends. -/
inductive Outcome where
  | returned (payload : KBytes)
  | done
  | threw (e : Throwable)
deriving DecidableEq, Repr

/-- Kotlin `Connection.Pending`. `armed` is the deadline's handle before it is disposed or has
fired; `ran` records that `Pending.run` has executed. -/
structure Pending where
  id : UInt32 := 0
  timeoutMillis : Int := 0
  response : Option Packet := none
  error : Option Throwable := none
  waiter : Option Cont := none
  gate : Bool := false
  slotCont : Option Cont := none
  roomCont : Option Cont := none
  armed : Bool := false
  ran : Bool := false
deriving DecidableEq, Repr

/-- Kotlin `Pending.isCompleted`. -/
def Pending.isCompleted (r : Pending) : Bool :=
  r.response.isSome || r.error.isSome

/-- Which entry point a coroutine is in: `request`, `send`, the handler loop's response, or the
successor writer that `drainAsWriter` launches. -/
inductive CallKind where
  | request
  | oneWay
  | response
  | successor
deriving DecidableEq, Repr

/-- Where a coroutine is. A constructor's packet is a local of the suspended frame. -/
inductive Pc where
  | slotLoop
  | roomLoop (packet : Packet)
  | draining
  | awaiting
  | unwinding (o : Outcome)
  | launched
  | slotWait
  | roomWait (packet : Packet)
  | channelSend (packet : Packet)
  | channelSelect (packet : Packet)
  | socketWrite
  | socketFlush
  | await
  | ended (o : Outcome)
deriving DecidableEq, Repr

/-- One coroutine inside the connection, with the arguments it was called with. -/
structure Call where
  kind : CallKind := .successor
  payload : KBytes := .empty
  bizType : Int := 0
  compression : Compression := .none
  encoded : KBytes := .empty
  req : Pending := {}
  pc : Pc := .ended .done
  wake : Wake := .parked
  seq : Nat := 0
deriving DecidableEq, Repr

/-- The outbound kotlinx `Channel`: its buffer and its suspended senders in order. It is closed
exactly when the connection is. -/
structure Channel where
  buffer : List Packet := []
  senders : List (Nat × Packet) := []
deriving DecidableEq, Repr

/-- Where the CHANNEL-mode write loop is. -/
inductive WriteLoop where
  | launched
  | receiving
  | writing (packet : Packet)
  | flushing (packet : Packet)
  | ended
deriving DecidableEq, Repr

/-- The connection. -/
structure Conn where
  closed : Bool := false
  sendQueue : List Packet := []
  writerActive : Bool := false
  writeBuf : List UInt8 := []
  outbound : Channel := {}
  writeLoop : WriteLoop := .launched
  queuedBytes : Int := 0
  roomWaiters : List Cont := []
  inFlightWaiters : List Nat := []
  pending : FinMap UInt32 Nat := ∅
  requestId : UInt32 := 0
  oneWayId : UInt32 := 0
  calls : Nat → Call := fun _ => {}
  next : Nat := 0
  resumes : List Cont := []
  enqueued : List Packet := []
  written : List Packet := []
  transmitted : List UInt8 := []

end MsgTrans
