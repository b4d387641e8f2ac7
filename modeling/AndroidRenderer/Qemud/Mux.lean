import AndroidRenderer.Qemud.Step

/-!
# The multiplexer without packets, handlers and hooks

`Mux` keeps of the daemon what its protocol is about: the clients with their channels, the
counter, and the record of what was read, queued, sent and posted. Each function of the
daemon that goes through acts on it as the operation of the same name here, whatever the
queues, packets and hooks are, and leaves the loop where it is (`Effect`).
-/

namespace AndroidRenderer.Qemud

structure Mux where
  clients : Registry Client
  lastChannel : Nat
  serial : HandlerId
  trace : List Event

namespace Mux

def log (x : Mux) (events : List Event) : Mux := { x with trace := x.trace ++ events }

/-- A frame is sent: its header and its payload are queued on the serial line. -/
def sendEvents (serial : HandlerId) (channel : Int) (payload : List UInt8) : List Event :=
  [.sent channel payload,
    .queued serial (int2hex channel CHANNEL_SIZE ++ int2hex payload.length LENGTH_SIZE),
    .queued serial payload]

def send (x : Mux) (channel : Int) (payload : List UInt8) : Mux :=
  x.log (sendEvents x.serial channel payload)

def setClient (x : Mux) (c : ClientId) (cl : Client) : Mux :=
  { x with clients := x.clients.set c cl }

def free (x : Mux) (c : ClientId) : Mux := { x with clients := x.clients.remove c }

def connect (x : Mux) (f : HandlerId) : Mux :=
  { x with clients := x.clients.insert ⟨-1, false, some f⟩ }

/-- A channel is requested for a service; -1 if its name is too long. -/
def openChannel (x : Mux) (service : List UInt8) : Mux × Int :=
  match findChannel (x.clients.values.map Client.channel) 256 x.lastChannel with
  | none => (x, -1)
  | some (last, channel) =>
      if (connectText service channel).length < MAX_PAYLOAD then
        ({ x with lastChannel := last }.send CHANNEL_CONTROL (connectText service channel),
          channel)
      else ({ x with lastChannel := last }, -1)

/-- A client sends data. -/
def receive (x : Mux) (c : ClientId) (bytes : List UInt8) : Mux :=
  match x.clients.get? c with
  | none => x
  | some cl =>
      if cl.registered then x.send cl.channel bytes
      else if 0 < cl.channel then x.free c
      else if (x.openChannel bytes).2 < 0 then (x.openChannel bytes).1.free c
      else (x.openChannel bytes).1.setClient c { cl with channel := (x.openChannel bytes).2 }

def hangUp (x : Mux) (c : ClientId) : Mux :=
  match x.clients.get? c with
  | none => x
  | some cl =>
      if 0 < cl.channel then (x.send CHANNEL_CONTROL (disconnectText cl.channel)).free c
      else x.free c

def queuedTo (fdhandler : Option HandlerId) (bytes : List UInt8) : List Event :=
  fdhandler.toList.map fun f => .queued f bytes

/-- A client is told whether its registration succeeded. -/
def answer (x : Mux) (c : ClientId) (registered : Bool) : Mux :=
  match x.clients.get? c with
  | none => x
  | some cl =>
      ((x.log (queuedTo cl.fdhandler (answerText registered))).setClient c
        { cl with registered := registered, channel := if registered then cl.channel else -1 }).log
        [.answered c registered]

def deliver (x : Mux) (c : ClientId) (payload : List UInt8) : Mux :=
  match x.clients.get? c with
  | none => x
  | some cl => x.log (queuedTo cl.fdhandler payload)

def findClient (x : Mux) (channel : Int) : Option ClientId :=
  (x.clients.find? fun cl => cl.channel == channel).map Prod.fst

def withClient (x : Mux) (channel : Int) (f : ClientId → Mux) : Mux :=
  (x.findClient channel).elim x f

def control (x : Mux) (message : Control) : Mux :=
  match message with
  | .okConnect channel => x.withClient channel fun c => x.answer c true
  | .koConnect channel => x.withClient channel fun c => x.answer c false
  | .disconnect channel => x.withClient channel fun c => x.free c
  | .ignored => x

/-- A frame was read from the serial line. -/
def post (x : Mux) (channel : Int) (payload : List UInt8) : Mux :=
  let x := x.log [.posted channel payload]
  if channel = CHANNEL_CONTROL then x.control (.parse payload)
  else x.withClient channel fun c => x.deliver c payload

theorem withClient_cases {P : Mux → Prop} {x : Mux} {channel : Int} {f : ClientId → Mux}
    (hnone : (∀ c cl, x.clients.get? c = some cl → cl.channel ≠ channel) → P x)
    (hsome : ∀ c cl, x.clients.get? c = some cl → cl.channel = channel → P (f c)) :
    P (x.withClient channel f) := by
  unfold withClient findClient
  cases hfind : x.clients.find? fun cl => cl.channel == channel with
  | none => grind [Registry.find?_none]
  | some e =>
      obtain ⟨hget, hchannel⟩ := Registry.find?_some (i := e.1) (a := e.2) hfind
      exact hsome e.1 e.2 hget (by simpa using hchannel)

end Mux

namespace Multiplexer

/-- The protocol state of the daemon. -/
def mux (m : Multiplexer) : Mux := ⟨m.clients, m.lastChannel, m.serial.fdhandler, m.trace⟩

/-- What a function called by the loop does: it takes the protocol state to `x` and leaves
the loop and the serial reader alone. -/
structure Effect (m m' : Multiplexer) (x : Mux) : Prop where
  mux : m'.mux = x
  phase : m'.phase = m.phase
  serial : m'.serial = m.serial

variable {m m' : Multiplexer}

variable {f : HandlerId} {c : ClientId} {p : Packet}

theorem handler_eq_ok {h : FDHandler} :
    m.handler f = .ok h ↔ m.handlers.get? f = some h := by
  unfold handler
  split <;> simp [*]

theorem client_eq_ok {cl : Client} :
    m.client c = .ok cl ↔ m.clients.get? c = some cl := by
  unfold client
  split <;> simp [*]

/-! ## Handlers -/

theorem fdhandlerEnqueue_effect
    (h : m.fdhandlerEnqueue f p = .ok m') : Effect m m' (m.mux.log [.queued f p.payload]) := by
  obtain ⟨hd, -, heq⟩ := Run.bind_eq_ok.mp h
  obtain rfl := Except.ok.inj heq
  exact ⟨rfl, rfl, rfl⟩

theorem fdhandlerFinish_effect (h : m.fdhandlerFinish f = .ok m') :
    Effect m m' m.mux := by
  obtain ⟨hd, -, heq⟩ := Run.bind_eq_ok.mp h
  obtain rfl := Except.ok.inj heq
  exact ⟨rfl, rfl, rfl⟩

theorem fdhandlerShutdown_effect (h : m.fdhandlerShutdown f = .ok m') :
    Effect m m' m.mux := by
  obtain ⟨hd, -, heq⟩ := Run.bind_eq_ok.mp h
  split at heq
  · obtain rfl := Except.ok.inj heq
    exact ⟨rfl, rfl, rfl⟩
  · obtain ⟨hmux, hphase, hserial⟩ := fdhandlerFinish_effect heq
    exact ⟨hmux, hphase, hserial⟩

/-! ## Sending on the serial line -/

theorem serialSend_effect (h : m.serialSend p = .ok m') :
    Effect m m' (m.mux.send p.channel p.payload) := by
  obtain ⟨m₁, hheader, hpayload⟩ := Run.bind_eq_ok.mp h
  have h₁ := fdhandlerEnqueue_effect hheader
  have h₂ := fdhandlerEnqueue_effect hpayload
  refine ⟨?_, h₂.phase.trans h₁.phase, h₂.serial.trans h₁.serial⟩
  rw [h₂.mux, h₁.mux, h₁.serial, serialHeader_payload, Mux.send, Mux.sendEvents, Packet.payload_length]
  simp only [mux, Mux.log, List.append_assoc, List.cons_append, List.nil_append]

theorem multiplexerOpenChannel_effect {service : Packet} {channel : Int}
    (h : m.multiplexerOpenChannel service = .ok (m', channel)) :
    Effect m m' (m.mux.openChannel service.payload).1 ∧
      channel = (m.mux.openChannel service.payload).2 := by
  simp only [multiplexerOpenChannel] at h
  simp only [Mux.openChannel, show m.mux.clients = m.clients from rfl,
    show m.mux.lastChannel = m.lastChannel from rfl]
  cases hfind : findChannel (m.clients.values.map Client.channel) 256 m.lastChannel with
  | none => rw [hfind] at h; cases h
  | some found =>
      rw [hfind] at h
      dsimp only at h ⊢
      by_cases hfits : (connectText service.payload found.2).length < MAX_PAYLOAD
      · rw [dif_pos hfits] at h
        obtain ⟨m₁, hsend, heq⟩ := Run.bind_eq_ok.mp h
        obtain ⟨rfl, rfl⟩ := Prod.mk.inj (Except.ok.inj heq)
        obtain ⟨hmux, hphase, hserial⟩ := serialSend_effect hsend
        rw [if_pos hfits]
        refine ⟨⟨hmux.trans ?_, hphase, hserial⟩, rfl⟩
        rw [Packet.withChannel_payload, Packet.print_payload]
        rfl
      · rw [dif_neg hfits] at h
        obtain ⟨rfl, rfl⟩ := Prod.mk.inj (Except.ok.inj h)
        rw [if_neg hfits]
        exact ⟨⟨rfl, rfl, rfl⟩, rfl⟩

theorem multiplexerCloseChannel_effect {channel : Int}
    (h : m.multiplexerCloseChannel channel = .ok m') :
    Effect m m' (m.mux.send CHANNEL_CONTROL (disconnectText channel)) := by
  simp only [multiplexerCloseChannel, dif_pos (disconnectText_length channel)] at h
  obtain ⟨hmux, hphase, hserial⟩ := serialSend_effect h
  refine ⟨hmux.trans ?_, hphase, hserial⟩
  rw [Packet.withChannel_payload, Packet.print_payload]
  rfl

/-! ## Clients -/

theorem clientFree_effect (h : m.clientFree c = .ok m') :
    Effect m m' (m.mux.free c) := by
  obtain ⟨cl, hcl, heq⟩ := Run.bind_eq_ok.mp h
  cases hf : cl.fdhandler with
  | none =>
      rw [hf] at heq
      obtain rfl := Except.ok.inj heq
      exact ⟨rfl, rfl, rfl⟩
  | some f =>
      rw [hf] at heq
      obtain ⟨hmux, hphase, hserial⟩ := fdhandlerShutdown_effect heq
      exact ⟨hmux, hphase, hserial⟩

theorem clientFdReceive_effect (h : m.clientFdReceive c p = .ok m') :
    Effect m m' (m.mux.receive c p.payload) := by
  obtain ⟨cl, hcl, heq⟩ := Run.bind_eq_ok.mp h
  rw [client_eq_ok] at hcl
  simp only [Mux.receive, show m.mux.clients.get? c = _ from hcl]
  by_cases hreg : cl.registered
  · rw [if_pos hreg] at heq ⊢
    exact serialSend_effect heq
  · rw [if_neg hreg] at heq ⊢
    by_cases hpending : 0 < cl.channel
    · rw [if_pos hpending] at heq ⊢
      obtain ⟨hmux, hphase, hserial⟩ := clientFree_effect heq
      exact ⟨hmux, hphase, hserial⟩
    · rw [if_neg hpending] at heq ⊢
      obtain ⟨⟨m₁, channel⟩, hopen, heq⟩ := Run.bind_eq_ok.mp heq
      obtain ⟨⟨hmux₁, hphase₁, hserial₁⟩, rfl⟩ := multiplexerOpenChannel_effect hopen
      rw [← hmux₁]
      dsimp only at heq
      split at heq
      · rename_i hneg
        rw [if_pos hneg]
        obtain ⟨hmux, hphase, hserial⟩ := clientFree_effect heq
        refine ⟨hmux.trans ?_, hphase.trans hphase₁, hserial.trans hserial₁⟩
        simp only [Mux.free, mux, packetFree, Registry.remove_set]
      · rename_i hpos
        rw [if_neg hpos]
        obtain rfl := Except.ok.inj heq
        exact ⟨rfl, hphase₁, hserial₁⟩

theorem clientFdClose_effect (h : m.clientFdClose c = .ok m') :
    Effect m m' (m.mux.hangUp c) := by
  obtain ⟨cl, hcl, heq⟩ := Run.bind_eq_ok.mp h
  rw [client_eq_ok] at hcl
  obtain ⟨m₁, hclose, hfree⟩ := Run.bind_eq_ok.mp heq
  obtain ⟨hmux, hphase, hserial⟩ := clientFree_effect hfree
  simp only [Mux.hangUp, show m.mux.clients.get? c = _ from hcl]
  by_cases hopen : 0 < cl.channel
  · rw [if_pos hopen] at hclose ⊢
    obtain ⟨hmux₁, hphase₁, hserial₁⟩ := multiplexerCloseChannel_effect hclose
    refine ⟨?_, hphase.trans hphase₁, hserial.trans hserial₁⟩
    grind [Mux.free, Mux.send, Mux.log, mux, Registry.remove_set]
  · rw [if_neg hopen] at hclose ⊢
    obtain rfl := Except.ok.inj hclose
    refine ⟨hmux.trans ?_, hphase, hserial⟩
    simp only [Mux.free, mux, Registry.remove_set]

theorem clientRegistration_effect {registered : Bool}
    (h : m.clientRegistration c registered = .ok m') :
    Effect m m' (m.mux.answer c registered) := by
  obtain ⟨⟨channel, wasRegistered, fdhandler⟩, hcl, heq⟩ := Run.bind_eq_ok.mp h
  rw [client_eq_ok] at hcl
  cases fdhandler with
  | none => cases heq
  | some f =>
      obtain ⟨m₁, hqueue, heq⟩ := Run.bind_eq_ok.mp heq
      obtain ⟨hmux₁, hphase₁, hserial₁⟩ := fdhandlerEnqueue_effect hqueue
      obtain rfl := Except.ok.inj heq
      refine ⟨?_, hphase₁, hserial₁⟩
      rw [Packet.fill_payload] at hmux₁
      simp only [Mux.answer, show m.mux.clients.get? c = _ from hcl]
      simp only [mux, Mux.log, Mux.mk.injEq, Mux.setClient, Mux.queuedTo] at hmux₁ ⊢
      grind

theorem clientSend_effect (h : m.clientSend c p = .ok m') :
    Effect m m' (m.mux.deliver c p.payload) := by
  obtain ⟨⟨channel, registered, fdhandler⟩, hcl, heq⟩ := Run.bind_eq_ok.mp h
  rw [client_eq_ok] at hcl
  simp only [Mux.deliver, show m.mux.clients.get? c = _ from hcl]
  cases fdhandler with
  | none => cases heq
  | some f => exact fdhandlerEnqueue_effect heq

/-! ## Messages from the emulator -/

theorem multiplexerHandleControl_effect (h : m.multiplexerHandleControl p = .ok m') :
    Effect m m' (m.mux.control (.parse p.payload)) := by
  obtain ⟨m₁, hmessage, heq⟩ := Run.bind_eq_ok.mp h
  obtain rfl := Except.ok.inj heq
  suffices Effect m m₁ (m.mux.control (.parse p.payload)) from
    ⟨this.mux, this.phase, this.serial⟩
  unfold Mux.control Mux.withClient
  rw [show m.mux.findClient = m.multiplexerFindClient from rfl]
  cases hparse : Control.parse p.payload with
  | okConnect channel =>
      rw [hparse] at hmessage
      cases hfind : m.multiplexerFindClient channel with
      | none =>
          simp only [hfind] at hmessage ⊢
          obtain rfl := Except.ok.inj hmessage
          exact ⟨rfl, rfl, rfl⟩
      | some c => grind [clientRegistration_effect]
  | koConnect channel =>
      rw [hparse] at hmessage
      cases hfind : m.multiplexerFindClient channel with
      | none =>
          simp only [hfind] at hmessage ⊢
          obtain rfl := Except.ok.inj hmessage
          exact ⟨rfl, rfl, rfl⟩
      | some c =>
          simp only [hfind] at hmessage ⊢
          exact clientRegistration_effect hmessage
  | disconnect channel =>
      rw [hparse] at hmessage
      cases hfind : m.multiplexerFindClient channel with
      | none =>
          simp only [hfind] at hmessage ⊢
          obtain rfl := Except.ok.inj hmessage
          exact ⟨rfl, rfl, rfl⟩
      | some c => grind [clientFree_effect]
  | ignored =>
      rw [hparse] at hmessage
      obtain rfl := Except.ok.inj hmessage
      exact ⟨rfl, rfl, rfl⟩

theorem multiplexerSerialReceive_effect (h : m.multiplexerSerialReceive p = .ok m') :
    Effect m m' (m.mux.post p.channel p.payload) := by
  simp only [multiplexerSerialReceive] at h
  unfold Mux.post
  split at h
  · rename_i hcontrol
    obtain ⟨hmux, hphase, hserial⟩ := multiplexerHandleControl_effect h
    rw [if_pos hcontrol]
    exact ⟨hmux, hphase, hserial⟩
  · rename_i hchannel
    simp only [if_neg hchannel, Mux.withClient]
    have hsame : multiplexerFindClient
        { m with trace := m.trace ++ [Event.posted p.channel p.payload] } p.channel =
          m.multiplexerFindClient p.channel := rfl
    rw [hsame] at h
    rw [show (m.mux.log _).findClient = m.multiplexerFindClient from rfl]
    cases hfind : m.multiplexerFindClient p.channel with
    | none =>
        rw [hfind] at h
        obtain rfl := Except.ok.inj h
        exact ⟨rfl, rfl, rfl⟩
    | some c =>
        rw [hfind] at h
        obtain ⟨hmux, hphase, hserial⟩ := clientSend_effect h
        exact ⟨hmux, hphase, hserial⟩

/-! ## Closing -/

/-- What closing a handler means for the protocol: its client, if it still has one, hangs
up. -/
def closes (m : Multiplexer) (f : HandlerId) : Mux :=
  match m.handlers.get? f with
  | some ⟨_, _, ⟨.client c, _, true⟩, _, _⟩ => m.mux.hangUp c
  | _ => m.mux

theorem receiverClose_effect (h : m.receiverClose f = .ok m') :
    Effect m m' (m.closes f) := by
  obtain ⟨⟨fd, closing, ⟨user, post, close⟩, outPos, out⟩, hget, heq⟩ := Run.bind_eq_ok.mp h
  rw [handler_eq_ok] at hget
  obtain ⟨m₁, hclose, heq⟩ := Run.bind_eq_ok.mp heq
  obtain ⟨h', -, heq⟩ := Run.bind_eq_ok.mp heq
  obtain rfl := Except.ok.inj heq
  suffices Effect m m₁ (m.closes f) from ⟨this.mux, this.phase, this.serial⟩
  unfold closes
  rw [hget]
  cases close with
  | false =>
      obtain rfl := Except.ok.inj hclose
      cases user <;> exact ⟨rfl, rfl, rfl⟩
  | true => grind [clientFdClose_effect]

theorem fdhandlerClose_effect (h : m.fdhandlerClose f = .ok m') :
    Effect m m' (m.closes f) := by
  obtain ⟨m₁, hclose, hfinish⟩ := Run.bind_eq_ok.mp h
  have h₁ := receiverClose_effect hclose
  have h₂ := fdhandlerFinish_effect hfinish
  exact ⟨h₂.mux.trans h₁.mux, h₂.phase.trans h₁.phase, h₂.serial.trans h₁.serial⟩

end Multiplexer

end AndroidRenderer.Qemud
