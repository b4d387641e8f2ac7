import AndroidRenderer.Lib.Registry
import AndroidRenderer.Qemud.Framing
import AndroidRenderer.Qemud.Looper

/-!
# Handlers, clients and the multiplexer

The daemon's objects and the functions that act on them. A function that is given the
handle of a freed client or handler faults where the source dereferences it. The two
lists of handlers are one registry, where `closing` tells the list.

`trace` records what happened: the bytes read from and written to a descriptor, those
queued on a handler, frames sent and posted on the serial line, and the answers given to
clients. No function looks at it.
-/

namespace AndroidRenderer.Qemud

abbrev HandlerId := Nat
abbrev ClientId := Nat

/-- The `user` of a receiver; it also tells its functions. -/
inductive User
  | serial
  | client (c : ClientId)
  | control
  deriving DecidableEq, Repr

/-- `post` and `close` tell whether the function pointers are set. -/
structure Receiver where
  user : User
  post : Bool
  close : Bool
  deriving DecidableEq, Repr

structure FDHandler where
  fd : Nat
  closing : Bool
  receiver : Receiver
  outPos : Nat
  out : List Packet

/-- The queued bytes that are not written yet. -/
def FDHandler.pending (h : FDHandler) : List UInt8 := (h.out.flatMap Packet.payload).drop h.outPos

structure Client where
  channel : Int
  registered : Bool
  fdhandler : Option HandlerId
  deriving DecidableEq, Repr

inductive Event
  | read (f : HandlerId) (bytes : List UInt8)
  | wrote (f : HandlerId) (bytes : List UInt8)
  | queued (f : HandlerId) (bytes : List UInt8)
  | sent (channel : Int) (payload : List UInt8)
  | posted (channel : Int) (payload : List UInt8)
  | answered (c : ClientId) (registered : Bool)
  deriving DecidableEq, Repr

/-- What the loop is about to do: wait for reports; look at hook `n`; take a turn of the
loop of `serial_fd_receive` on the unread bytes of `p`; go on with an event of `f` behind
its `EPOLLIN` part. -/
inductive Phase
  | waiting
  | running (n : Nat)
  | receiving (n : Nat) (f : HandlerId) (events : Events) (p : Packet) (unread : List UInt8)
  | finishing (n : Nat) (func : EventFunc) (f : HandlerId) (events : Events)

/-- The `Multiplexer`, the packet lists and where the loop is. `lastChannel` is a 32-bit
counter. -/
structure Multiplexer where
  handlers : Registry FDHandler
  clients : Registry Client
  lastChannel : Nat
  serial : Serial
  looper : Looper
  pool : PacketPool
  phase : Phase
  trace : List Event

namespace Multiplexer

def handler (m : Multiplexer) (f : HandlerId) : Except Fault FDHandler :=
  match m.handlers.get? f with
  | some h => .ok h
  | none => .error .useAfterFree

def client (m : Multiplexer) (c : ClientId) : Except Fault Client :=
  match m.clients.get? c with
  | some cl => .ok cl
  | none => .error .useAfterFree

def packetFree (m : Multiplexer) (p : Packet) : Multiplexer :=
  { m with pool := m.pool.packetFree p }

/-! ## Handlers -/

/-- `fdhandler_enqueue` -/
def fdhandlerEnqueue (m : Multiplexer) (f : HandlerId) (p : Packet) : Except Fault Multiplexer := do
  let h ← m.handler f
  let h' := { h with out := h.out ++ [p], outPos := if h.out.isEmpty then 0 else h.outPos }
  return { m with
    handlers := m.handlers.set f h'
    looper := if h.out.isEmpty then m.looper.looperEnable h.fd .EPOLLOUT else m.looper
    trace := m.trace ++ [.queued f p.payload] }

/-- `fdhandler_close` behind `receiver_close`: the queue is dropped, the descriptor is
unregistered and closed, the handler is freed. -/
def fdhandlerFinish (m : Multiplexer) (f : HandlerId) : Except Fault Multiplexer := do
  let h ← m.handler f
  return { m with
    handlers := m.handlers.remove f
    looper := (m.looper.looperDel h.fd).closeFd h.fd
    pool := h.out.foldl PacketPool.packetFree m.pool }

/-- `fdhandler_shutdown`. The receiver's `close` is cleared before `fdhandler_close` is
called, so that of `receiver_close` only the clearing of `post` is left. -/
def fdhandlerShutdown (m : Multiplexer) (f : HandlerId) : Except Fault Multiplexer := do
  let h ← m.handler f
  if !h.out.isEmpty && !h.closing then
    let h' := { h with closing := true, receiver := { h.receiver with close := false } }
    return { m with handlers := m.handlers.set f h' }
  else
    let h' := { h with receiver := { h.receiver with close := false, post := false } }
    fdhandlerFinish { m with handlers := m.handlers.set f h' } f

/-- `fdhandler_new` and, with the other event function, `fdhandler_new_accept`. The new
handler is `m.handlers.next`. -/
def fdhandlerNew (m : Multiplexer) (fd : Nat) (func : EventFunc) (receiver : Receiver) :
    Multiplexer :=
  { m with
    handlers := m.handlers.insert ⟨fd, false, receiver, 0, []⟩
    looper := (m.looper.looperAdd fd func m.handlers.next).looperEnable fd .EPOLLIN }

/-! ## Sending on the serial line -/

/-- `serial_send` -/
def serialSend (m : Multiplexer) (p : Packet) : Except Fault Multiplexer := do
  let header := serialHeader m.pool.packetAlloc.1 p
  let m := { m with
    pool := m.pool.packetAlloc.2
    trace := m.trace ++ [Event.sent p.channel p.payload] }
  let m ← m.fdhandlerEnqueue m.serial.fdhandler header
  m.fdhandlerEnqueue m.serial.fdhandler p

/-- `multiplexer_serial_send` -/
def multiplexerSerialSend (m : Multiplexer) (channel : Int) (p : Packet) :
    Except Fault Multiplexer :=
  m.serialSend (p.withChannel channel)

end Multiplexer

/-- The loop that looks for a free channel, for a number of tries: the new value of
`last_channel`, and the channel. -/
def findChannel (channels : List Int) : Nat → Nat → Option (Nat × Nat)
  | 0, _ => none
  | tries + 1, lastChannel =>
      let next := (lastChannel + 1) % 2 ^ 32
      if ((next &&& 0xff : Nat) : Int) ∈ channels then findChannel channels tries next
      else some (next, next &&& 0xff)

/-- The text sent to open a channel; `%.*s` stops at a zero. -/
def connectText (service : List UInt8) (channel : Int) : List UInt8 :=
  ascii "connect:" ++ service.takeWhile (· != 0) ++ ascii ":" ++ format02x channel

/-- The answer written to a client. -/
def answerText (registered : Bool) : List UInt8 := if registered then ascii "OK" else ascii "KO"

theorem answerText_length (registered : Bool) : (answerText registered).length ≤ MAX_PAYLOAD := by
  cases registered <;> decide

def disconnectText (channel : Int) : List UInt8 := ascii "disconnect:" ++ format02x channel

theorem disconnectText_length (channel : Int) : (disconnectText channel).length < MAX_PAYLOAD := by
  have hdigits := format02x_length_le channel
  have htext : (ascii "disconnect:").length = 11 := by decide
  rw [disconnectText, List.length_append, htext, MAX_PAYLOAD]
  omega

namespace Multiplexer

/-- `multiplexer_open_channel`: the channel, or -1 if the service name is too long. After
256 tries the loop has seen every channel and `last_channel` never brings a new one. -/
def multiplexerOpenChannel (m : Multiplexer) (service : Packet) :
    Except Fault (Multiplexer × Int) := do
  let p := m.pool.packetAlloc.1
  let m := { m with pool := m.pool.packetAlloc.2 }
  match findChannel (m.clients.values.map Client.channel) 256 m.lastChannel with
  | none => .error .hang
  | some (last, channel) =>
      let m := { m with lastChannel := last }
      if h : (connectText service.payload channel).length < MAX_PAYLOAD then
        let m ← m.serialSend ((p.print _ h).withChannel CHANNEL_CONTROL)
        return (m, channel)
      else
        return (m.packetFree p, -1)

/-- `multiplexer_close_channel` -/
def multiplexerCloseChannel (m : Multiplexer) (channel : Int) : Except Fault Multiplexer :=
  let p := m.pool.packetAlloc.1
  let m := { m with pool := m.pool.packetAlloc.2 }
  if h : (disconnectText channel).length < MAX_PAYLOAD then
    m.serialSend ((p.print _ h).withChannel CHANNEL_CONTROL)
  else .ok m

/-! ## Clients -/

/-- `client_free` -/
def clientFree (m : Multiplexer) (c : ClientId) : Except Fault Multiplexer := do
  let cl ← m.client c
  let m := { m with clients := m.clients.remove c }
  match cl.fdhandler with
  | some f => m.fdhandlerShutdown f
  | none => return m

/-- `client_fd_receive` -/
def clientFdReceive (m : Multiplexer) (c : ClientId) (p : Packet) : Except Fault Multiplexer := do
  let cl ← m.client c
  if cl.registered then
    m.multiplexerSerialSend cl.channel p
  else if 0 < cl.channel then
    -- BAD_CLIENT: data before the registration is answered
    (m.packetFree p).clientFree c
  else
    let (m, channel) ← m.multiplexerOpenChannel p
    let m := { m with clients := m.clients.set c { cl with channel := channel } }
    if channel < 0 then (m.packetFree p).clientFree c
    else return m.packetFree p

/-- `client_fd_close` -/
def clientFdClose (m : Multiplexer) (c : ClientId) : Except Fault Multiplexer := do
  let cl ← m.client c
  let m := { m with clients := m.clients.set c { cl with fdhandler := none } }
  let m ← (if 0 < cl.channel then m.multiplexerCloseChannel cl.channel else pure m)
  m.clientFree c

/-- `client_registration` -/
def clientRegistration (m : Multiplexer) (c : ClientId) (registered : Bool) :
    Except Fault Multiplexer := do
  let p := m.pool.packetAlloc.1
  let m := { m with pool := m.pool.packetAlloc.2 }
  let cl ← m.client c
  match cl.fdhandler with
  | none => .error .useAfterFree
  | some f =>
      let m ← m.fdhandlerEnqueue f (p.fill (answerText registered) (answerText_length registered))
      let cl' :=
        { cl with registered := registered, channel := if registered then cl.channel else -1 }
      return { m with
        clients := m.clients.set c cl'
        trace := m.trace ++ [.answered c registered] }

/-- `client_send` -/
def clientSend (m : Multiplexer) (c : ClientId) (p : Packet) : Except Fault Multiplexer := do
  let cl ← m.client c
  match cl.fdhandler with
  | none => .error .useAfterFree
  | some f => m.fdhandlerEnqueue f p

/-- `client_new` -/
def clientNew (m : Multiplexer) (fd : Nat) : Multiplexer :=
  let m' := m.fdhandlerNew fd .fdhandlerEvent ⟨.client m.clients.next, true, true⟩
  { m' with clients := m.clients.insert ⟨-1, false, some m.handlers.next⟩ }

/-! ## Messages from the emulator -/

/-- `multiplexer_find_client` -/
def multiplexerFindClient (m : Multiplexer) (channel : Int) : Option ClientId :=
  (m.clients.find? fun cl => cl.channel == channel).map Prod.fst

end Multiplexer

/-- The messages of the control channel. -/
inductive Control
  | okConnect (channel : Int)
  | koConnect (channel : Int)
  | disconnect (channel : Int)
  | ignored
  deriving DecidableEq, Repr

/-- The tests of `multiplexer_handle_control`; all texts have 11 characters. -/
def Control.parse (payload : List UInt8) : Control :=
  if payload.length = 13 ∧ payload.take 11 = ascii "ok:connect:" then
    .okConnect (hex2int (payload.drop 11))
  else if payload.length = 13 ∧ payload.take 11 = ascii "ko:connect:" then
    .koConnect (hex2int (payload.drop 11))
  else if payload.length = 13 ∧ payload.take 11 = ascii "disconnect:" then
    .disconnect (hex2int (payload.drop 11))
  else .ignored

namespace Multiplexer

/-- `multiplexer_handle_control` -/
def multiplexerHandleControl (m : Multiplexer) (p : Packet) : Except Fault Multiplexer := do
  let m ← (match Control.parse p.payload with
    | .okConnect channel =>
        match m.multiplexerFindClient channel with
        | some c => m.clientRegistration c true
        | none => pure m
    | .koConnect channel =>
        match m.multiplexerFindClient channel with
        | some c => m.clientRegistration c false
        | none => pure m
    | .disconnect channel =>
        match m.multiplexerFindClient channel with
        | some c => m.clientFree c
        | none => pure m
    | .ignored => pure m)
  return m.packetFree p

/-- `multiplexer_serial_receive` -/
def multiplexerSerialReceive (m : Multiplexer) (p : Packet) : Except Fault Multiplexer :=
  let m := { m with trace := m.trace ++ [Event.posted p.channel p.payload] }
  if p.channel = CHANNEL_CONTROL then m.multiplexerHandleControl p
  else
    match m.multiplexerFindClient p.channel with
    | some c => m.clientSend c p
    | none => .ok (m.packetFree p)

/-! ## Closing -/

/-- `receiver_close`; the serial line and the control socket must not be closed. -/
def receiverClose (m : Multiplexer) (f : HandlerId) : Except Fault Multiplexer := do
  let h ← m.handler f
  let m ← (if h.receiver.close then
      match h.receiver.user with
      | .client c => m.clientFdClose c
      | .serial => .error .exit
      | .control => .error .exit
    else pure m)
  let h ← m.handler f
  let h' := { h with receiver := { h.receiver with close := false, post := false } }
  return { m with handlers := m.handlers.set f h' }

/-- `fdhandler_close` -/
def fdhandlerClose (m : Multiplexer) (f : HandlerId) : Except Fault Multiplexer := do
  let m ← m.receiverClose f
  m.fdhandlerFinish f

end Multiplexer

end AndroidRenderer.Qemud
