import AndroidRenderer.Qemud.Mux

/-!
# What a step means for the protocol

`act` tells from the state and the answer of the kernel what the next step does to the
clients and the streams; most steps are silent. `step_mux` is the refinement: a step of the
daemon that goes through takes its protocol state to `Mux.next` of that act.
-/

namespace AndroidRenderer.Qemud

inductive Act
  | silent
  | connect (f : HandlerId)
  | read (f : HandlerId) (bytes : List UInt8)
  | receive (f : HandlerId) (c : ClientId) (bytes : List UInt8)
  | post (channel : Int) (payload : List UInt8)
  | wrote (f : HandlerId) (bytes : List UInt8)
  | hangUp (c : ClientId)
  deriving DecidableEq

namespace Mux

/-- The protocol state after an act. -/
def next (x : Mux) : Act → Mux
  | .silent => x
  | .connect f => x.connect f
  | .read f bytes => x.log [.read f bytes]
  | .receive f c bytes => (x.log [.read f bytes]).receive c bytes
  | .post channel payload => x.post channel payload
  | .wrote f bytes => x.log [.wrote f bytes]
  | .hangUp c => x.hangUp c

end Mux

namespace Multiplexer

/-- The act of the `EPOLLIN` part of an event. -/
def hookAct (m : Multiplexer) (hook : LoopHook) (label : Label) : Act :=
  match hook.evFunc, hook.events.epollin, label with
  | .fdhandlerEvent, true, .read (some r) =>
      if r.bytes.isEmpty then .silent
      else
        match m.handlers.get? hook.evUser with
        | some ⟨_, _, ⟨.client c, true, _⟩, _, _⟩ => .receive hook.evUser c r.bytes
        | _ => .read hook.evUser r.bytes
  | .fdhandlerAcceptEvent, true, .accept (some _) =>
      match m.handlers.get? hook.evUser with
      | some ⟨_, _, ⟨_, true, _⟩, _, _⟩ => .connect m.handlers.next
      | _ => .silent
  | _, _, _ => .silent

def finishAct (m : Multiplexer) (func : EventFunc) (f : HandlerId) (events : Events)
    (label : Label) : Act :=
  match m.handlers.get? f with
  | none => .silent
  | some h =>
      if events.disconnected then
        match h.receiver with
        | ⟨.client c, _, true⟩ => .hangUp c
        | _ => .silent
      else if func = .fdhandlerEvent && events.epollout then
        match h.out, label with
        | p :: _, .write (some len) => .wrote f ((p.payload.drop h.outPos).take len)
        | _, _ => .silent
      else .silent

def act (m : Multiplexer) (label : Label) : Act :=
  match m.phase with
  | .waiting => .silent
  | .running n =>
      match m.looper.hooks[n]? with
      | some hook => if hook.pending then m.hookAct hook label else .silent
      | none => .silent
  | .receiving _ _ _ _ unread =>
      match m.serial.receiveTurn unread with
      | some (_, some inp, _) => .post inp.channel inp.payload
      | _ => .silent
  | .finishing _ func f events => m.finishAct func f events label

variable {m m' : Multiplexer}

theorem readEvent_mux {n : Nat} {hook : LoopHook} {result : Option Read}
    (hfunc : hook.evFunc = .fdhandlerEvent) (hin : hook.events.epollin = true)
    (h : m.readEvent n hook.evUser hook.events result = .ok m') :
    m'.mux = m.mux.next (m.hookAct hook (.read result)) := by
  obtain ⟨⟨fd, closing, ⟨user, post, close⟩, outPos, out⟩, hget, heq⟩ := Run.bind_eq_ok.mp h
  rw [handler_eq_ok] at hget
  simp only [hookAct, hfunc, hin]
  cases result with
  | none =>
      obtain rfl := Except.ok.inj heq
      rfl
  | some r =>
      dsimp only at heq ⊢
      split at heq
      · rename_i hempty
        obtain rfl := Except.ok.inj heq
        rw [if_pos hempty]
        rfl
      · rename_i hempty
        rw [if_neg hempty, hget]
        cases post with
        | false =>
            obtain rfl := Except.ok.inj heq
            cases user <;> rfl
        | true =>
            cases user with
            | serial =>
                obtain rfl := Except.ok.inj heq
                rfl
            | control => cases heq
            | client c =>
                have heffect := clientFdReceive_effect (show clientFdReceive _ c _ = _ from heq)
                rw [heffect.mux, Packet.withChannel_payload, Packet.fill_payload]
                rfl

theorem acceptEvent_mux {n : Nat} {hook : LoopHook} {result : Option Nat}
    (hfunc : hook.evFunc = .fdhandlerAcceptEvent) (hin : hook.events.epollin = true)
    (h : m.acceptEvent n hook.evUser hook.events result = .ok m') :
    m'.mux = m.mux.next (m.hookAct hook (.accept result)) := by
  obtain ⟨⟨fd, closing, ⟨user, post, close⟩, outPos, out⟩, hget, heq⟩ := Run.bind_eq_ok.mp h
  rw [handler_eq_ok] at hget
  simp only [hookAct, hfunc, hin]
  cases result with
  | none =>
      obtain rfl := Except.ok.inj heq
      rfl
  | some fd' =>
      dsimp only at heq ⊢
      split at heq
      · cases heq
      · rw [hget]
        cases post with
        | false =>
            obtain rfl := Except.ok.inj heq
            rfl
        | true =>
            cases user with
            | serial => cases heq
            | client c => cases heq
            | control =>
                obtain rfl := Except.ok.inj heq
                rfl

theorem hookEvent_mux {n : Nat} {hook : LoopHook} {label : Label}
    (h : m.hookEvent n hook label = .ok m') :
    m'.mux = m.mux.next (m.hookAct hook label) := by
  simp only [hookEvent] at h
  split at h
  · rename_i hfunc hin
    exact @readEvent_mux { m with looper := m.looper.fire n } m' n hook _ hfunc hin h
  · rename_i hfunc hin
    exact @acceptEvent_mux { m with looper := m.looper.fire n } m' n hook _ hfunc hin h
  · rename_i hin
    obtain rfl := Except.ok.inj h
    have hact : m.hookAct hook .tick = .silent := by
      unfold hookAct
      split <;> simp_all
    rw [hact]
    rfl
  · cases h

theorem writeEvent_mux {f : HandlerId} {hd : FDHandler} {p : Packet} {out : List Packet}
    {result : Option Nat} (h : m.writeEvent f hd p out result = .ok m') :
    m'.mux = m.mux.next (match result with
      | some len => .wrote f ((p.payload.drop hd.outPos).take len)
      | none => .silent) := by
  unfold writeEvent at h
  cases result with
  | none =>
      obtain rfl := Except.ok.inj h
      rfl
  | some len =>
      dsimp only at h
      split at h
      · cases h
      · split at h <;>
        · obtain rfl := Except.ok.inj h
          rfl

theorem closes_eq {f : HandlerId} {hd : FDHandler} (h : m.handlers.get? f = some hd) :
    m.closes f = m.mux.next (match hd.receiver with
      | ⟨.client c, _, true⟩ => .hangUp c
      | _ => .silent) := by
  obtain ⟨fd, closing, ⟨user, post, close⟩, outPos, out⟩ := hd
  rw [closes, h]
  cases close <;> cases user <;> rfl

theorem fdhandlerClose_alive {f : HandlerId} (h : m.fdhandlerClose f = .ok m') :
    ∃ hd, m.handlers.get? f = some hd := by
  obtain ⟨m₁, hclose, -⟩ := Run.bind_eq_ok.mp h
  obtain ⟨hd, hget, -⟩ := Run.bind_eq_ok.mp hclose
  exact ⟨hd, handler_eq_ok.mp hget⟩

theorem finishEvent_mux {n : Nat} {func : EventFunc} {f : HandlerId} {events : Events}
    {label : Label} (h : m.finishEvent n func f events label = .ok m') :
    m'.mux = m.mux.next (m.finishAct func f events label) := by
  simp only [finishEvent] at h
  unfold finishAct
  split at h
  · rename_i hdisc
    cases label with
    | tick =>
        obtain ⟨hd, hget⟩ := fdhandlerClose_alive h
        rw [(fdhandlerClose_effect h).mux, closes_eq hget, show m.handlers.get? f = _ from hget]
        simp only [hdisc, if_true]
        rfl
    | _ => cases h
  · rename_i hdisc
    split at h
    · rename_i hout
      obtain ⟨hd, hget, heq⟩ := Run.bind_eq_ok.mp h
      rw [handler_eq_ok] at hget
      rw [show m.handlers.get? f = _ from hget]
      simp only [hdisc, hout, if_true]
      cases hqueue : hd.out with
      | nil =>
          rw [hqueue] at heq
          cases label with
          | tick =>
              obtain rfl := Except.ok.inj heq
              rfl
          | _ => cases heq
      | cons p out =>
          rw [hqueue] at heq
          cases label with
          | write result =>
              rw [writeEvent_mux heq]
              cases result <;> rfl
          | _ => cases heq
    · rename_i hout
      cases label with
      | tick =>
          obtain rfl := Except.ok.inj h
          cases m.handlers.get? f with
          | none => rfl
          | some hd =>
              simp only [hdisc, hout]
              rfl
      | _ => cases h

theorem receiveTurn_mux {n : Nat} {f : HandlerId} {events : Events} {p : Packet}
    {unread : List UInt8} (h : m.receiveTurn n f events p unread = .ok m') :
    m'.mux = m.mux.next (match m.serial.receiveTurn unread with
      | some (_, some inp, _) => .post inp.channel inp.payload
      | _ => .silent) := by
  unfold receiveTurn at h
  split at h
  · rename_i hempty
    obtain rfl := Except.ok.inj h
    rw [List.isEmpty_iff.mp hempty]
    cases hturn : m.serial.receiveTurn [] with
    | none => rfl
    | some r =>
        obtain ⟨serial, inp, unread'⟩ := r
        rw [Serial.receiveTurn_nil hturn]
        rfl
  · split at h
    · cases h
    · rename_i serial unread' hturn
      obtain rfl := Except.ok.inj h
      obtain ⟨-, -, -, hline⟩ := Serial.receiveTurn_some hturn
      grind [mux, Mux.next]
    · rename_i serial inp unread' hturn
      obtain ⟨-, -, -, hline⟩ := Serial.receiveTurn_some hturn
      rw [hturn]
      obtain ⟨m₁, hreceive, heq⟩ := Run.bind_eq_ok.mp h
      obtain rfl := Except.ok.inj heq
      have heffect := multiplexerSerialReceive_effect hreceive
      grind [mux, Mux.next, heffect.mux]

/-- Every step of the daemon is a step of the protocol. -/
theorem step_mux {label : Label} (h : m.step label = .ok m') :
    m'.mux = m.mux.next (m.act label) := by
  unfold act
  cases step_cases h with
  | wait hphase => rw [hphase]; rfl
  | skip hphase hhook hidle =>
      rw [hphase]
      simp only [hhook, hidle]
      rfl
  | hook hphase hhook hpending hevent => grind [hookEvent_mux]
  | sweep hphase hhook =>
      rw [hphase]
      simp only [hhook]
      rfl
  | receive hphase hturn =>
      rw [hphase]
      exact receiveTurn_mux hturn
  | finish hphase hevent =>
      rw [hphase]
      exact finishEvent_mux hevent

end Multiplexer

end AndroidRenderer.Qemud
