import AndroidRenderer.Lib.Run
import AndroidRenderer.Qemud.Multiplexer

/-!
# Steps of the daemon

A step of `looper_loop` with the event functions. Its label is what the kernel answers:
the reports of `epoll_wait` and the results of `read`, `write` and `accept`; `tick` is a
step without a system call. One event of a handler takes several steps, so that what the
daemon does to one message of the emulator is one step.
-/

namespace AndroidRenderer.Qemud

/-- The answers of the kernel; `none` is an error. -/
inductive Label
  | tick
  | wait (reports : List (Nat × Events))
  | read (result : Option Read)
  | write (result : Option Nat)
  | accept (result : Option Nat)
  deriving DecidableEq

namespace Multiplexer

/-- `multiplexer_control_accept` for the new descriptor. -/
def multiplexerControlAccept (m : Multiplexer) (p : Packet) (fd : Nat) : Multiplexer :=
  (m.clientNew fd).packetFree p

/-- The `EPOLLIN` part of `fdhandler_event`. A packet into which nothing was read is
neither posted nor freed. -/
def readEvent (m : Multiplexer) (n : Nat) (f : HandlerId) (events : Events)
    (result : Option Read) : Except Fault Multiplexer := do
  let h ← m.handler f
  let p := m.pool.packetAlloc.1
  let m := { m with pool := m.pool.packetAlloc.2, phase := .finishing n .fdhandlerEvent f events }
  match result with
  | none => return m.packetFree p
  | some r =>
      if r.bytes.isEmpty then return m
      else
        let p := (p.fill r.bytes r.length_le).withChannel (-101)
        let m := { m with trace := m.trace ++ [Event.read f r.bytes] }
        if h.receiver.post then
          match h.receiver.user with
          | .serial => return { m with phase := .receiving n f events p p.payload }
          | .client c => m.clientFdReceive c p
          | .control => .error .notEnabled -- its handler only has accept events
        else return m.packetFree p

/-- A turn of the loop of `serial_fd_receive`. -/
def receiveTurn (m : Multiplexer) (n : Nat) (f : HandlerId) (events : Events) (p : Packet)
    (unread : List UInt8) : Except Fault Multiplexer :=
  if unread.isEmpty then
    .ok { m.packetFree p with phase := .finishing n .fdhandlerEvent f events }
  else
    match m.serial.receiveTurn unread with
    | none => .error .outOfBounds
    | some (serial, none, unread') =>
        .ok { m with serial := serial, phase := .receiving n f events p unread' }
    | some (serial, some inp, unread') => do
        let m ← { m with serial := serial }.multiplexerSerialReceive inp
        return { m with
          serial := { m.serial with inPacket := m.pool.packetAlloc.1 }
          pool := m.pool.packetAlloc.2
          phase := .receiving n f events p unread' }

/-- The `EPOLLOUT` part of `fdhandler_event`: some bytes of the first packet are written,
or `write` fails. -/
def writeEvent (m : Multiplexer) (f : HandlerId) (h : FDHandler) (p : Packet)
    (out : List Packet) (result : Option Nat) : Except Fault Multiplexer :=
  match result with
  | none => .ok m
  | some len =>
      if p.len - h.outPos < len then .error .notEnabled
      else
        let bytes := (p.payload.drop h.outPos).take len
        let m := { m with trace := m.trace ++ [Event.wrote f bytes] }
        if p.len ≤ h.outPos + len then
          let m := { m with
            handlers := m.handlers.set f { h with outPos := 0, out := out }
            looper := if out.isEmpty then m.looper.looperDisable h.fd .EPOLLOUT else m.looper }
          .ok (m.packetFree p)
        else .ok { m with handlers := m.handlers.set f { h with outPos := h.outPos + len } }

/-- The event functions behind their `EPOLLIN` part. -/
def finishEvent (m : Multiplexer) (n : Nat) (func : EventFunc) (f : HandlerId)
    (events : Events) (label : Label) : Except Fault Multiplexer :=
  let m := { m with phase := .running (n + 1) }
  if events.disconnected then
    match label with
    | .tick => m.fdhandlerClose f
    | _ => .error .notEnabled
  else if func = .fdhandlerEvent && events.epollout then do
    let h ← m.handler f
    match h.out, label with
    | [], .tick => return m
    | p :: out, .write result => m.writeEvent f h p out result
    | _, _ => .error .notEnabled
  else
    match label with
    | .tick => .ok m
    | _ => .error .notEnabled

/-- The `EPOLLIN` part of `fdhandler_accept_event`. The kernel returns a descriptor that is
not open. -/
def acceptEvent (m : Multiplexer) (n : Nat) (f : HandlerId) (events : Events)
    (result : Option Nat) : Except Fault Multiplexer := do
  let h ← m.handler f
  let p := m.pool.packetAlloc.1.fill [1] (by decide)
  let m := { m with pool := m.pool.packetAlloc.2 }
  match result with
  | none => return { m.packetFree p with phase := .running (n + 1) }
  | some fd =>
      if m.handlers.values.any fun h => h.fd == fd then .error .notEnabled
      else
        let p := p.withChannel fd
        let m := { m with phase := .finishing n .fdhandlerAcceptEvent f events }
        if h.receiver.post then
          match h.receiver.user with
          | .control => return m.multiplexerControlAccept p fd
          | _ => .error .notEnabled -- only the control socket has accept events
        else return m.packetFree p

/-- Call the callback of a hook. -/
def hookEvent (m : Multiplexer) (n : Nat) (hook : LoopHook) (label : Label) :
    Except Fault Multiplexer :=
  let m := { m with looper := m.looper.fire n }
  match hook.evFunc, hook.events.epollin, label with
  | .fdhandlerEvent, true, .read result => m.readEvent n hook.evUser hook.events result
  | .fdhandlerAcceptEvent, true, .accept result => m.acceptEvent n hook.evUser hook.events result
  | func, false, .tick => .ok { m with phase := .finishing n func hook.evUser hook.events }
  | _, _, _ => .error .notEnabled

def step (m : Multiplexer) (label : Label) : Except Fault Multiplexer :=
  match m.phase, label with
  | .waiting, .wait reports =>
      if m.looper.mayReport reports then
        (m.looper.mark reports).map fun looper => { m with looper := looper, phase := .running 0 }
      else .error .notEnabled
  | .running n, label =>
      match m.looper.hooks[n]?, label with
      | some hook, label =>
          if hook.pending then m.hookEvent n hook label
          else if label = .tick then .ok { m with phase := .running (n + 1) }
          else .error .notEnabled
      | none, .tick => .ok { m with
          looper := Looper.sweep m.looper.hooks.length 0 m.looper
          phase := .waiting }
      | none, _ => .error .notEnabled
  | .receiving n f events p unread, .tick => m.receiveTurn n f events p unread
  | .finishing n func f events, label => m.finishEvent n func f events label
  | _, _ => .error .notEnabled

/-- The ways a step can go through. -/
inductive Step (m : Multiplexer) : Label → Multiplexer → Prop
  | wait {reports : List (Nat × Events)} {looper : Looper} :
      m.phase = .waiting → m.looper.mayReport reports → m.looper.mark reports = .ok looper →
      Step m (.wait reports) { m with looper := looper, phase := .running 0 }
  | skip {n : Nat} {hook : LoopHook} :
      m.phase = .running n → m.looper.hooks[n]? = some hook → hook.pending = false →
      Step m .tick { m with phase := .running (n + 1) }
  | hook {n : Nat} {hook : LoopHook} {label : Label} {m' : Multiplexer} :
      m.phase = .running n → m.looper.hooks[n]? = some hook → hook.pending = true →
      m.hookEvent n hook label = .ok m' → Step m label m'
  | sweep {n : Nat} :
      m.phase = .running n → m.looper.hooks[n]? = none →
      Step m .tick { m with
        looper := Looper.sweep m.looper.hooks.length 0 m.looper, phase := .waiting }
  | receive {n : Nat} {f : HandlerId} {events : Events} {p : Packet} {unread : List UInt8}
      {m' : Multiplexer} :
      m.phase = .receiving n f events p unread → m.receiveTurn n f events p unread = .ok m' →
      Step m .tick m'
  | finish {n : Nat} {func : EventFunc} {f : HandlerId} {events : Events} {label : Label}
      {m' : Multiplexer} :
      m.phase = .finishing n func f events → m.finishEvent n func f events label = .ok m' →
      Step m label m'

theorem step_cases {m m' : Multiplexer} {label : Label} (h : m.step label = .ok m') :
    Step m label m' := by
  unfold step at h
  split at h
  · rename_i reports hphase
    split at h
    · rename_i hmay
      cases hmark : m.looper.mark reports with
      | error e => rw [hmark] at h; cases h
      | ok looper =>
          rw [hmark] at h
          obtain rfl := Except.ok.inj h
          exact .wait hphase hmay hmark
    · cases h
  · rename_i n hphase
    split at h
    · rename_i hook hhook
      split at h
      · rename_i hpending
        exact .hook hphase hhook hpending h
      · rename_i hidle
        split at h
        · rename_i hlabel
          obtain rfl := Except.ok.inj h
          rw [hlabel]
          exact .skip hphase hhook (by simpa using hidle)
        · cases h
    · rename_i hhook
      obtain rfl := Except.ok.inj h
      exact .sweep hphase hhook
    · cases h
  · rename_i hphase
    exact .receive hphase h
  · rename_i hphase
    exact .finish hphase h
  · cases h

/-- `multiplexer_init` with the descriptors of the serial port and the control socket. -/
def multiplexerInit (heap : Nat → Buffer UInt8 MAX_PAYLOAD) (fd controlFd : Nat) : Multiplexer :=
  let pool : PacketPool := ⟨[], 0, heap⟩
  let m : Multiplexer := {
    handlers := .empty
    clients := .empty
    lastChannel := 0
    serial := Serial.init 0 pool.packetAlloc.1
    looper := .looperInit
    pool := pool.packetAlloc.2
    phase := .waiting
    trace := [] }
  (m.fdhandlerNew fd .fdhandlerEvent ⟨.serial, true, true⟩).fdhandlerNew controlFd
    .fdhandlerAcceptEvent ⟨.control, true, true⟩

end Multiplexer

end AndroidRenderer.Qemud
