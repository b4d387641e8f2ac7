import AndroidRenderer.Qemud.Channels
import AndroidRenderer.Qemud.Locality

/-!
# Handlers that are shut down

`fdhandler_shutdown` frees a handler without queued packets at once, and leaves one with packets to
its events. These write the queue in order, but they do not look at `closing`: behind its last packet
a handler stays in the list of closing ones.
-/

namespace AndroidRenderer.Qemud.Multiplexer

variable {m m₁ m' : Multiplexer} {f : HandlerId} {h : FDHandler} {c : ClientId} {cl : Client}

/-! ## The call -/

/-- What `fdhandler_shutdown` makes of the handler `f` with the record `h`. -/
structure Shut (l : Looper) (f : HandlerId) (h : FDHandler) (m' : Multiplexer) : Prop where
  waits : h.out ≠ [] → m'.handlers.get? f =
    some { h with closing := true, receiver := { h.receiver with close := false } }
  freed : h.out = [] →
    m'.handlers.get? f = none ∧ m'.looper = (l.looperDel h.fd).closeFd h.fd

theorem Shut.congr {l : Looper} (hshut : Shut l f h m₁) (hhandlers : m'.handlers = m₁.handlers)
    (hlooper : m'.looper = m₁.looper) : Shut l f h m' := by
  refine ⟨fun hout => ?_, fun hout => ?_⟩
  · rw [hhandlers]
    exact hshut.waits hout
  · grind [hshut.freed]

theorem fdhandlerShutdown_shut (hget : m.handlers.get? f = some h) (hopen : h.closing = false)
    (hcall : m.fdhandlerShutdown f = .ok m') : Shut m.looper f h m' := by
  obtain ⟨hd, hd_get, heq⟩ := Run.bind_eq_ok.mp hcall
  rw [handler_eq_ok] at hd_get
  obtain rfl := Option.some.inj (hget.symm.trans hd_get)
  split at heq
  · rename_i hwaits
    obtain rfl := Except.ok.inj heq
    refine ⟨fun _ => ?_, fun hout => ?_⟩
    · simp [Registry.get?_set, hget]
    · grind
  · rename_i hnow
    have hnil : h.out = [] := by grind
    obtain ⟨hd', hd_get', heq⟩ := Run.bind_eq_ok.mp heq
    rw [handler_eq_ok, Registry.get?_set, if_pos rfl, hget, Option.map_some] at hd_get'
    obtain rfl := Option.some.inj hd_get'
    obtain rfl := Except.ok.inj heq
    refine ⟨fun hout => absurd hnil hout, fun _ => ⟨?_, rfl⟩⟩
    rw [Registry.get?_remove, if_pos rfl]

theorem clientFree_shut (hm : m.Sound) (hcl : m.clients.get? c = some cl)
    (hf : cl.fdhandler = some f)
    (hget : m.handlers.get? f = some h) (hcall : m.clientFree c = .ok m') :
    Shut m.looper f h m' := by
  obtain ⟨cl', hcl', heq⟩ := Run.bind_eq_ok.mp hcall
  rw [client_eq_ok] at hcl'
  obtain rfl := Option.some.inj (hcl.symm.trans hcl')
  rw [hf] at heq
  have hshut := fdhandlerShutdown_shut
    (show ({ m with clients := m.clients.remove c } : Multiplexer).handlers.get? f = some h from hget)
    (hm.active f h (.inr ⟨c, cl, hcl, hf⟩) hget) heq
  exact ⟨hshut.waits, hshut.freed⟩

theorem clientFree_leaves {c' : ClientId} (hcl : m.clients.get? c = some cl)
    (hgone : m'.clients.get? c = none) (hcall : m.clientFree c' = .ok m') : c = c' := by
  have hclients : m'.clients = m.clients.remove c' :=
    congrArg Mux.clients (clientFree_effect hcall).mux
  grind

/-- A request that is too long to be sent changes nothing but the packets and the counter. -/
theorem multiplexerOpenChannel_refused {service : Packet} {channel : Int}
    (hcall : m.multiplexerOpenChannel service = .ok (m', channel)) (hneg : channel < 0) :
    m'.handlers = m.handlers ∧ m'.looper = m.looper ∧ m'.clients = m.clients := by
  simp only [multiplexerOpenChannel] at hcall
  split at hcall
  · cases hcall
  · split at hcall
    · obtain ⟨m₁, -, heq⟩ := Run.bind_eq_ok.mp hcall
      obtain ⟨-, rfl⟩ := Prod.mk.inj (Except.ok.inj heq)
      omega
    · obtain ⟨rfl, -⟩ := Prod.mk.inj (Except.ok.inj hcall)
      exact ⟨rfl, rfl, rfl⟩

theorem clientFdReceive_shut {c' : ClientId} {p : Packet} (hm : m.Sound)
    (hcl : m.clients.get? c = some cl) (hf : cl.fdhandler = some f)
    (hget : m.handlers.get? f = some h) (hgone : m'.clients.get? c = none)
    (hcall : m.clientFdReceive c' p = .ok m') : Shut m.looper f h m' := by
  obtain ⟨cl', hcl', heq⟩ := Run.bind_eq_ok.mp hcall
  rw [client_eq_ok] at hcl'
  split at heq
  · have hclients : m'.clients = m.clients := congrArg Mux.clients (serialSend_effect heq).mux
    grind
  split at heq
  · obtain rfl := clientFree_leaves (m := m.packetFree p) hcl hgone heq
    have hpool : Within (fun _ => True) m (m.packetFree p) :=
      .same hm (fun _ _ => trivial) rfl rfl rfl rfl
    exact clientFree_shut (m := m.packetFree p) hpool.sound hcl hf hget heq
  · obtain ⟨⟨m₁, channel⟩, hopen, heq⟩ := Run.bind_eq_ok.mp heq
    dsimp only at heq
    split at heq
    · rename_i hneg
      obtain ⟨hhandlers, hlooper, hclients⟩ := multiplexerOpenChannel_refused hopen hneg
      have h₁ := multiplexerOpenChannel_within (S := fun _ => True) hm (fun _ _ => trivial) hopen
      have hcl₀ : m₁.clients.get? c' = some cl' := by grind
      have hset : Within (fun _ => True) m₁ { m₁ with
          clients := m₁.clients.set c' { cl' with channel := channel } } :=
        .setClient h₁.sound h₁.owned hcl₀ fun _ hg => hg
      have hpool : Within (fun _ => True) _
          (packetFree { m₁ with clients := m₁.clients.set c' { cl' with channel := channel } } p) :=
        .same hset.sound hset.owned rfl rfl rfl rfl
      have hcl₁ : ∃ cl₁, (m₁.clients.set c' { cl' with channel := channel }).get? c = some cl₁ ∧
          cl₁.fdhandler = some f := by
        rw [Registry.get?_set, hclients]
        grind
      obtain ⟨cl₁, hget₁, hf₁⟩ := hcl₁
      obtain rfl := clientFree_leaves hget₁ hgone heq
      have hshut := clientFree_shut hpool.sound hget₁ hf₁ (hhandlers ▸ hget) heq
      rw [← hlooper]
      exact ⟨hshut.waits, hshut.freed⟩
    · obtain rfl := Except.ok.inj heq
      have hset : (m₁.clients.set c' { cl' with channel := channel }).get? c = none := hgone
      grind [Registry.get?_set_eq_none, multiplexerOpenChannel_clients]

theorem answer_clients {x : Mux} {c' : ClientId} {registered : Bool} :
    (x.answer c' registered).clients.get? c = none ↔ x.clients.get? c = none := by
  unfold Mux.answer
  split
  · rfl
  · exact Registry.get?_set_eq_none

theorem multiplexerHandleControl_shut {p : Packet} (hm : m.Sound) (hcl : m.clients.get? c = some cl)
    (hf : cl.fdhandler = some f) (hget : m.handlers.get? f = some h)
    (hgone : m'.clients.get? c = none) (hcall : m.multiplexerHandleControl p = .ok m') :
    Shut m.looper f h m' := by
  obtain ⟨m₁, hmessage, heq⟩ := Run.bind_eq_ok.mp hcall
  obtain rfl := Except.ok.inj heq
  have hanswer : ∀ c' registered, m.clientRegistration c' registered = .ok m₁ → False := by
    intro c' registered hregistration
    have hclients := congrArg Mux.clients (clientRegistration_effect hregistration).mux
    rw [show (m₁.packetFree p).clients = m₁.clients from rfl,
      show m₁.clients = (m.mux.answer c' registered).clients from hclients, answer_clients,
      show m.mux.clients.get? c = _ from hcl] at hgone
    cases hgone
  have hsame : m = m₁ → False := by
    rintro rfl
    rw [show (m.packetFree p).clients = m.clients from rfl, hcl] at hgone
    cases hgone
  split at hmessage
  · split at hmessage
    · exact (hanswer _ _ hmessage).elim
    · exact (hsame (Except.ok.inj hmessage)).elim
  · split at hmessage
    · exact (hanswer _ _ hmessage).elim
    · exact (hsame (Except.ok.inj hmessage)).elim
  · split at hmessage
    · have hgone₁ : m₁.clients.get? c = none := hgone
      obtain rfl := clientFree_leaves hcl hgone₁ hmessage
      exact (clientFree_shut hm hcl hf hget hmessage).congr rfl rfl
    · exact (hsame (Except.ok.inj hmessage)).elim
  · exact (hsame (Except.ok.inj hmessage)).elim

theorem multiplexerSerialReceive_shut {p : Packet} (hm : m.Sound)
    (hcl : m.clients.get? c = some cl) (hf : cl.fdhandler = some f)
    (hget : m.handlers.get? f = some h) (hgone : m'.clients.get? c = none)
    (hcall : m.multiplexerSerialReceive p = .ok m') : Shut m.looper f h m' := by
  simp only [multiplexerSerialReceive] at hcall
  have hlog : Within (fun _ => True) m
      { m with trace := m.trace ++ [Event.posted p.channel p.payload] } := by
    refine .log hm (fun _ _ => trivial) rfl rfl rfl rfl fun e he => ?_
    obtain rfl := List.mem_singleton.mp he
    rfl
  split at hcall
  · exact multiplexerHandleControl_shut (m := { m with
      trace := m.trace ++ [Event.posted p.channel p.payload] }) hlog.sound hcl hf hget hgone hcall
  · split at hcall
    · have hclients : m'.clients = m.clients := by
        refine (congrArg Mux.clients (clientSend_effect hcall).mux).trans ?_
        unfold Mux.deliver
        split <;> rfl
      grind
    · obtain rfl := Except.ok.inj hcall
      exact absurd (hcl.symm.trans hgone) (Option.some_ne_none _)

/-! ## The step -/

/-- The step shuts the handler `f` down: its client leaves, and not because it hung up. Only
`client_free` calls `fdhandler_shutdown`, and a client that hung up has no handler any more. -/
def ShutsDown (m : Multiplexer) (label : Label) (m' : Multiplexer) (f : HandlerId) : Prop :=
  (∀ c, m.act label ≠ .hangUp c) ∧
    ∃ c cl, m.clients.get? c = some cl ∧ cl.fdhandler = some f ∧ m'.clients.get? c = none

theorem hookAct_accept {hook : LoopHook} (label : Label)
    (hfunc : hook.evFunc = .fdhandlerAcceptEvent) :
    m.hookAct hook label = .silent ∨ ∃ g, m.hookAct hook label = .connect g := by
  unfold hookAct
  grind

theorem finishAct_cases (func : EventFunc) (f : HandlerId) (events : Events) (label : Label) :
    m.finishAct func f events label = .silent ∨ (∃ c, m.finishAct func f events label = .hangUp c) ∨
      ∃ bytes, m.finishAct func f events label = .wrote f bytes := by
  unfold finishAct
  grind

variable {label : Label} {bytes : List UInt8}

/-- A step of the loop calls `fdhandler_shutdown` with the looper of before, up to the mark of the
hook whose event it handles. -/
theorem step_shut (hm : m.Sound) (hstep : m.step label = .ok m')
    (hshut : m.ShutsDown label m' f) (hget : m.handlers.get? f = some h) :
    ∃ l, (l = m.looper ∨ ∃ n, l = m.looper.fire n) ∧ Shut l f h m' := by
  obtain ⟨hact, c, cl, hcl, hf, hgone⟩ := hshut
  have hsame : m'.clients = m.clients → False := fun heq => by
    rw [heq, hcl] at hgone
    cases hgone
  have hnext : (m.mux.next (m.act label)).clients.get? c = none := step_mux hstep ▸ hgone
  have halive : m.clients.get? c ≠ none := hcl ▸ Option.some_ne_none cl
  cases step_cases hstep with
  | wait => exact (hsame rfl).elim
  | skip => exact (hsame rfl).elim
  | sweep => exact (hsame rfl).elim
  | @hook n hook label m' hphase hhook hpending hevent =>
      refine ⟨m.looper.fire n, .inr ⟨n, rfl⟩, ?_⟩
      have hfire : Within (fun _ => True) m { m with looper := m.looper.fire n } :=
        .same hm (fun _ _ => trivial) rfl rfl rfl rfl
      simp only [hookEvent] at hevent
      split at hevent
      · obtain ⟨hd, -, heq⟩ := Run.bind_eq_ok.mp hevent
        rename_i result _ _
        cases result with
        | none =>
            obtain rfl := Except.ok.inj heq
            exact (hsame rfl).elim
        | some r =>
            dsimp only at heq
            split at heq
            · obtain rfl := Except.ok.inj heq
              exact (hsame rfl).elim
            split at heq
            · split at heq
              · obtain rfl := Except.ok.inj heq
                exact (hsame rfl).elim
              · have hlog : Within (fun _ => True) m { m with
                    looper := m.looper.fire n, pool := m.pool.packetAlloc.2
                    phase := .finishing n .fdhandlerEvent hook.evUser hook.events
                    trace := m.trace ++ [Event.read hook.evUser r.bytes] } := by
                  refine .log hm (fun _ _ => trivial) rfl rfl rfl rfl fun e he => ?_
                  obtain rfl := List.mem_singleton.mp he
                  rfl
                have hshut := clientFdReceive_shut hlog.sound hcl hf hget hgone heq
                exact ⟨hshut.waits, hshut.freed⟩
              · cases heq
            · obtain rfl := Except.ok.inj heq
              exact (hsame rfl).elim
      · rename_i result hfunc hin
        have hconnect : m.act (.accept result) = m.hookAct hook (.accept result) := by
          simp only [act, hphase, hhook, hpending, if_true]
        obtain heq | ⟨g, heq⟩ := hookAct_accept (m := m) (.accept result) hfunc
        · rw [hconnect, heq] at hnext
          exact absurd hnext halive
        · rw [hconnect, heq, Mux.next, Mux.connect, Registry.get?_insert] at hnext
          split at hnext
          · cases hnext
          · exact absurd hnext halive
      · grind
      · cases hevent
  | receive hphase hturn =>
      refine ⟨m.looper, .inl rfl, ?_⟩
      unfold receiveTurn at hturn
      split at hturn
      · obtain rfl := Except.ok.inj hturn
        exact (hsame rfl).elim
      split at hturn
      · cases hturn
      · obtain rfl := Except.ok.inj hturn
        exact (hsame rfl).elim
      · rename_i serial inp unread' hserial
        have hline : Within (fun _ => True) m { m with serial := serial } :=
          .same hm (fun _ _ => trivial) rfl rfl (Serial.receiveTurn_some hserial).2.2.2 rfl
        obtain ⟨m₁, hreceive, heq⟩ := Run.bind_eq_ok.mp hturn
        obtain rfl := Except.ok.inj heq
        have hgone₁ : m₁.clients.get? c = none := hgone
        have hshut := multiplexerSerialReceive_shut hline.sound hcl hf hget hgone₁ hreceive
        exact hshut.congr rfl rfl
  | @finish n func g events _ _ hphase hevent =>
      have hfinish : m.act label = m.finishAct func g events label := by simp only [act, hphase]
      obtain heq | ⟨c', heq⟩ | ⟨bytes, heq⟩ := finishAct_cases (m := m) func g events label
      · rw [hfinish, heq] at hnext
        exact absurd hnext halive
      · exact absurd (hfinish.trans heq) (hact c')
      · rw [hfinish, heq] at hnext
        exact absurd hnext halive

/-! ## Later steps -/

/-- The events of the handler say that its descriptor is writable, and not that it hung up. -/
def Writable (m : Multiplexer) (f : HandlerId) : Prop :=
  ∀ n func events, m.phase = .finishing n func f events → events.disconnected = false

/-- The last packet of the handler is not written up to its end. -/
def Unfinished (m : Multiplexer) (f : HandlerId) (label : Label) : Prop :=
  ∀ n func events h p len, m.phase = .finishing n func f events → m.handlers.get? f = some h →
    h.out = [p] → label = .write (some len) → h.outPos + len < p.len

/-- What a handler on which `bytes` were queued does when it is shut down cleanly: what is written
are these bytes in order, and it is freed when they all are. -/
structure Graceful (m : Multiplexer) (f : HandlerId) (bytes : List UInt8) : Prop where
  sends : ∀ h, m.handlers.get? f = some h → h.out ≠ [] ∧ bytes = wroteBytes f m.trace ++ h.pending
  freed : m.handlers.get? f = none → wroteBytes f m.trace = bytes

/-- A handler that is shut down gracefully belongs to no one. -/
structure Left (m : Multiplexer) (f : HandlerId) (bytes : List UInt8) : Prop where
  sound : m.Sound
  orphan : ¬m.Owned f
  known : f < m.handlers.next
  graceful : m.Graceful f bytes

theorem finishEvent_write {n : Nat} {func : EventFunc} {events : Events} {result : Option Nat}
    (hevent : m.finishEvent n func f events (.write result) = .ok m') :
    ∃ h p out, m.handlers.get? f = some h ∧ h.out = p :: out ∧
      writeEvent { m with phase := .running (n + 1) } f h p out result = .ok m' := by
  simp only [finishEvent] at hevent
  grind [handler_eq_ok, Run.bind_eq_ok]

/-- What a write makes of a handler that was shut down. -/
theorem Left.write {n : Nat} {func : EventFunc} {events : Events}
    {result : Option Nat} (hleft : m.Left f bytes) (hphase : m.phase = .finishing n func f events)
    (hevent : m.finishEvent n func f events (.write result) = .ok m') :
    (m.Unfinished f (.write result) → m'.Left f bytes) ∧
      (¬m.Unfinished f (.write result) → ¬m'.Graceful f bytes) := by
  obtain ⟨h, p, out, hget, hout, hwrite⟩ := finishEvent_write hevent
  obtain ⟨hnonempty, hbytes⟩ := hleft.graceful.sends h hget
  have hsound := (finishEvent_within (S := fun _ => True) hleft.sound (fun _ _ => trivial)
    (fun _ => trivial) hevent).sound
  cases result with
  | none =>
      obtain rfl := Except.ok.inj hwrite
      refine ⟨fun _ => ⟨hsound, hleft.orphan, hleft.known, hleft.graceful.sends,
        hleft.graceful.freed⟩, fun hnot => ?_⟩
      exact absurd (fun _ _ _ _ _ _ _ _ _ hlabel => nomatch hlabel) hnot
  | some len =>
      obtain ⟨hlen, hhandlers, hclients, hserial, htrace⟩ := writeEvent_handler hwrite
      have hget' : m'.handlers.get? f = some (h.written p out len) := by
        rw [hhandlers, Registry.get?_set, if_pos rfl, show m.handlers.get? f = _ from hget,
          Option.map_some]
      have hqueue : (h.written p out len).out = [] ↔ out = [] ∧ p.len ≤ h.outPos + len := by
        grind [FDHandler.written]
      have hfinished : m.Unfinished f (.write (some len)) ↔ (h.written p out len).out ≠ [] := by
        rw [Ne, hqueue]
        constructor
        · rintro hunfinished ⟨rfl, hdone⟩
          have := hunfinished n func events h p len hphase hget hout rfl
          omega
        · intro hmore n' func' events' h' p' len' hphase' hget₁ hout' hlabel
          grind
      rw [hfinished]
      refine ⟨fun hmore => ⟨hsound, ?_, ?_, fun h' hh' => ?_, fun hnone => ?_⟩, fun hnot hgraceful =>
        hnot (hgraceful.sends _ hget').1⟩
      · rintro (hline | ⟨c, cl, hcl, hf⟩)
        · exact hleft.orphan (.inl (hline.trans (congrArg Serial.fdhandler hserial)))
        · exact hleft.orphan (.inr ⟨c, cl, hclients ▸ hcl, hf⟩)
      · exact Registry.lt_next_of_get? hget'
      · obtain rfl := Option.some.inj (hget'.symm.trans hh')
        have hplaced := (hleft.sound.fifo f h hget).1
        refine ⟨hmore, ?_⟩
        grind [wroteBytes, Event.wroteTo, FDHandler.written_pending]
      · rw [hget'] at hnone
        cases hnone

/-- Any other step does nothing to it. -/
theorem Left.other (hleft : m.Left f bytes)
    (hacts : ¬m.Acts label f) (hstep : m.step label = .ok m') : Within (· ≠ f) m m' := by
  refine step_within hleft.sound (fun g hg => ?_) ?_ (fun g hg => ?_) hstep
  · rintro rfl
    exact hleft.orphan hg
  · exact (Nat.ne_of_lt hleft.known).symm
  · rintro rfl
    exact hacts hg

/-- What a step makes of a handler that was shut down. -/
theorem Left.step (hleft : m.Left f bytes)
    (hwritable : m.Writable f) (hstep : m.step label = .ok m') :
    (m.Unfinished f label → m'.Left f bytes) ∧ (¬m.Unfinished f label → ¬m'.Graceful f bytes) := by
  by_cases hacts : m.Acts label f
  · obtain ⟨n, func, events, hphase, hacting⟩ := hacts
    obtain hdisc | ⟨result, rfl⟩ := hacting
    · rw [hwritable n func events hphase] at hdisc
      cases hdisc
    · refine hleft.write hphase ?_
      unfold Multiplexer.step at hstep
      rw [hphase] at hstep
      exact hstep
  · have hother := hleft.other hacts hstep
    have hget : m'.handlers.get? f = m.handlers.get? f := hother.handler f fun hne => hne rfl
    obtain ⟨events, htrace, hevents⟩ := hother.trace
    have hwrote : wroteBytes f m'.trace = wroteBytes f m.trace := by
      have hnone : ∀ e ∈ events, f ∉ e.queue := fun e he hf => hevents e he f hf rfl
      rw [htrace, wroteBytes_append, wroteBytes_eq_nil hnone, List.append_nil]
    refine ⟨fun _ => ⟨hother.sound, fun howned => hother.owned f howned rfl,
      Nat.lt_of_lt_of_le hleft.known hother.next, fun h hh => ?_, fun hnone => ?_⟩, fun hnot => ?_⟩
    · grind [hleft.graceful.sends]
    · rw [hwrote]
      exact hleft.graceful.freed (hget ▸ hnone)
    · refine absurd (fun n func events h p len hphase _ _ hlabel => ?_) hnot
      exact absurd ⟨n, func, events, hphase, .inr ⟨_, hlabel⟩⟩ hacts

theorem Left.stays_freed (hleft : m.Left f bytes)
    (hwritable : m.Writable f) (hfreed : m.handlers.get? f = none) (hstep : m.step label = .ok m') :
    m'.handlers.get? f = none := by
  by_cases hacts : m.Acts label f
  · obtain ⟨n, func, events, hphase, hdisc | ⟨result, rfl⟩⟩ := hacts
    · rw [hwritable n func events hphase] at hdisc
      cases hdisc
    · unfold Multiplexer.step at hstep
      grind [finishEvent_write]
  · have hother := hleft.other hacts hstep
    grind [hother.handler]

/-! ## From the call on -/

@[simp] theorem looperFind_fire (l : Looper) (n fd : Nat) :
    (l.fire n).looperFind fd = l.looperFind fd := by
  have hfind : ∀ l : Looper, l.looperFind fd = (l.hooks.map LoopHook.fd).findIdx? (· == fd) := by
    intro l
    rw [List.findIdx?_map]
    rfl
  rw [hfind, hfind]
  congr 1
  refine List.ext_getElem (by simp [Looper.fire]) fun i hi _ => ?_
  simp only [Looper.fire, List.getElem_map, List.getElem_modify]
  split <;> rfl

/-- The hook of the descriptor is deleted, that is marked for the end of the turn, and the
descriptor is closed. -/
structure Closed (m m' : Multiplexer) (fd : Nat) : Prop where
  hook : ∀ n hook, m.looper.looperFind fd = some n → m'.looper.hooks[n]? = some hook →
    hook.closing = true
  fd : ∀ e ∈ m'.looper.epoll, e.fd ≠ fd

theorem Closed.of_looper {l : Looper} {fd : Nat} (hl : l.looperFind fd = m.looper.looperFind fd)
    (hlooper : m'.looper = (l.looperDel fd).closeFd fd) : Closed m m' fd := by
  refine ⟨fun n hook hfind hhook => ?_, fun e he => ?_⟩
  · grind [Looper.closeFd, Looper.looperDel]
  · grind [Looper.closeFd, Looper.epollDel]

/-- A client that leaves without having hung up does so without a word. -/
theorem leaves_quietly {x : Mux} {a : Act} {clients : Registry Client} {events : List Event}
    (hchange : Mux.Change x a clients events) (hcl : x.clients.get? c = some cl)
    (hgone : clients.get? c = none) (hact : ∀ c', a ≠ .hangUp c') :
    clients = x.clients.remove c ∧ ∀ e ∈ events, e.queue = none := by
  have hremove : ∀ c', (x.clients.remove c').get? c = none → c' = c := by
    simp [Registry.get?_remove, hcl]
  have hset : ∀ c' cl', (x.clients.set c' cl').get? c ≠ none := by
    simp [Registry.get?_set_eq_none, hcl]
  have hquiet : ∀ e : Event, e.queue = none → ∀ e' ∈ [e], e'.queue = none := by simp
  cases hchange with
  | early g bytes | tooLong g bytes =>
      obtain rfl := hremove _ hgone
      exact ⟨rfl, hquiet _ rfl⟩
  | dropped payload =>
      obtain rfl := hremove _ hgone
      exact ⟨rfl, hquiet _ rfl⟩
  | closed => exact absurd rfl (hact _)
  | left => exact absurd rfl (hact _)
  | gone => exact absurd rfl (hact _)
  | request => exact absurd hgone (hset _ _)
  | accepted => exact absurd hgone (hset _ _)
  | refused => exact absurd hgone (hset _ _)
  | connect => grind
  | _ =>
      rw [hcl] at hgone
      cases hgone

@[simp] theorem next_serial (x : Mux) (a : Act) : (x.next a).serial = x.serial := by
  have hopen : ∀ y : Mux, ∀ bytes, (y.openChannel bytes).1.serial = y.serial := by
    intro y bytes
    unfold Mux.openChannel
    split
    · rfl
    · split <;> rfl
  have hanswer : ∀ y : Mux, ∀ c registered, (y.answer c registered).serial = y.serial := by
    intro y c registered
    unfold Mux.answer
    split <;> rfl
  have hdeliver : ∀ y : Mux, ∀ c payload, (y.deliver c payload).serial = y.serial := by
    intro y c payload
    unfold Mux.deliver
    split <;> rfl
  cases a with
  | receive g c bytes =>
      simp only [Mux.next, Mux.receive]
      split
      · rfl
      split
      · rfl
      split
      · rfl
      split
      · exact hopen _ _
      · exact hopen _ _
  | hangUp c =>
      simp only [Mux.next, Mux.hangUp]
      split
      · rfl
      split <;> rfl
  | post channel payload =>
      simp only [Mux.next, Mux.post]
      split
      · unfold Mux.control
        split
        · exact Mux.withClient_cases (P := fun y => y.serial = x.serial) (fun _ => rfl)
            fun c _ _ _ => hanswer _ _ _
        · exact Mux.withClient_cases (P := fun y => y.serial = x.serial) (fun _ => rfl)
            fun c _ _ _ => hanswer _ _ _
        · exact Mux.withClient_cases (P := fun y => y.serial = x.serial) (fun _ => rfl)
            fun c _ _ _ => rfl
        · rfl
      · exact Mux.withClient_cases (P := fun y => y.serial = x.serial) (fun _ => rfl)
          fun c _ _ _ => hdeliver _ _ _
  | _ => rfl

theorem ShutsDown.left (hm : m.Sound) (hstep : m.step label = .ok m')
    (hshut : m.ShutsDown label m' f) (hget : m.handlers.get? f = some h) :
    m'.Left f (queuedBytes f m.trace) ∧ (h.out = [] → Closed m m' h.fd) := by
  obtain ⟨l, hl, hcall⟩ := step_shut hm hstep hshut hget
  obtain ⟨hact, c, cl, hcl, hf, hgone⟩ := hshut
  have hfind : ∀ fd, l.looperFind fd = m.looper.looperFind fd := by grind [looperFind_fire]
  have hmux := step_mux hstep
  obtain ⟨events, htrace, hchange⟩ := m.mux.next_changes (m.act label)
  rw [← hmux] at hchange htrace
  obtain ⟨hclients, hevents⟩ := leaves_quietly hchange hcl hgone hact
  have hline : m'.serial.fdhandler = m.serial.fdhandler :=
    (congrArg Mux.serial hmux).trans (next_serial _ _)
  have hwithin := step_within (S := fun _ => True) hm (fun _ _ => trivial) trivial
    (fun _ _ => trivial) hstep
  have hwrote : wroteBytes f m'.trace = wroteBytes f m.trace := by
    have hnone : ∀ e ∈ events, f ∉ e.queue := fun e he hin => by
      rw [hevents e he] at hin
      cases hin
    rw [show m'.trace = m.trace ++ events from htrace, wroteBytes_append, wroteBytes_eq_nil hnone,
      List.append_nil]
  obtain ⟨-, hqueue⟩ := hm.fifo f h hget
  refine ⟨⟨hwithin.sound, not_owned_remove hm hcl hf hclients hline,
    Nat.lt_of_lt_of_le (Registry.lt_next_of_get? hget) hwithin.next, fun h' hh' => ?_,
    fun hnone => ?_⟩, fun hout => .of_looper (hfind h.fd) (hcall.freed hout).2⟩
  · have hwaits : h.out ≠ [] := fun hout => by
      rw [(hcall.freed hout).1] at hh'
      cases hh'
    rw [hcall.waits hwaits] at hh'
    obtain rfl := Option.some.inj hh'
    exact ⟨hwaits, hwrote ▸ hqueue⟩
  · have hout : h.out = [] := by
      by_contra hwaits
      rw [hcall.waits hwaits] at hnone
      cases hnone
    simp [FDHandler.pending, hwrote, hqueue, hout]

/-- A handler that is shut down in any run is closed at once if its queue is empty. Else, as long as
its events say that its descriptor is writable and its last packet is not finished, what is written
are the queued bytes in order; and the step that finishes the queue leaves it in the list. -/
theorem shutdown_graceful (heap : Nat → Buffer UInt8 MAX_PAYLOAD) (fd controlFd : Nat)
    (m m₁ : Multiplexer) (label : Label) (f : HandlerId) (h : FDHandler)
    (hreach : Run.Reach step (fun _ _ => True) (multiplexerInit heap fd controlFd) m)
    (hstep : m.step label = .ok m₁) (hshut : m.ShutsDown label m₁ f)
    (hget : m.handlers.get? f = some h) :
    (h.out = [] → m₁.handlers.get? f = none ∧ Closed m m₁ h.fd) ∧
    ∀ m₂, Run.Reach step (fun m label => m.Writable f ∧ m.Unfinished f label) m₁ m₂ →
      m₂.Graceful f (queuedBytes f m.trace) ∧ (h.out = [] → m₂.handlers.get? f = none) ∧
      ∀ label' m₃, m₂.Writable f → m₂.step label' = .ok m₃ →
        (m₃.Graceful f (queuedBytes f m.trace) ↔ m₂.Unfinished f label') := by
  have hm := reach_sound (multiplexerInit_sound heap fd controlFd) hreach
  obtain ⟨hleft, hclosed⟩ := hshut.left hm hstep hget
  obtain ⟨l, -, hcall⟩ := step_shut hm hstep hshut hget
  refine ⟨fun hout => ⟨(hcall.freed hout).1, hclosed hout⟩, fun m₂ hlater => ?_⟩
  obtain ⟨hleft₂, hfreed⟩ := hlater.invariant
    (I := fun m₂ => m₂.Left f (queuedBytes f m.trace) ∧ (h.out = [] → m₂.handlers.get? f = none))
    ⟨hleft, fun hout => (hcall.freed hout).1⟩ fun t label' u ht hok hstep' =>
      ⟨(ht.1.step hok.1 hstep').1 hok.2, fun hout => ht.1.stays_freed hok.1 (ht.2 hout) hstep'⟩
  refine ⟨hleft₂.graceful, hfreed, fun label' m₃ hwritable hstep' => ?_⟩
  obtain ⟨hkeeps, hbreaks⟩ := hleft₂.step hwritable hstep'
  refine ⟨fun hgraceful => ?_, fun hunfinished => (hkeeps hunfinished).graceful⟩
  by_contra hfinished
  exact hbreaks hfinished hgraceful

/-! ## A client whose answer is still queued -/

/-- The client is registered, its answer is queued, and the emulator's `disconnect` for it is
read. -/
def readDisconnect : List Label :=
  acceptClient ++ requestService ++ acceptService 1 ++
    [.wait [(3, .EPOLLIN)],
      .read (some ⟨ascii "00000d" ++ ascii "disconnect:" ++ int2hex 1 2,
        answer_length _ (by decide) 1⟩), .tick]

/-- The turn goes on, and in the next one a number of bytes is written to the client. -/
def writeAnswer (len : Nat) : List Label :=
  List.replicate 5 .tick ++ [.wait [(5, .EPOLLOUT)], .tick, .tick, .tick, .write (some len)]

def writableTest (f : HandlerId) (m : Multiplexer) : Bool :=
  match m.phase with
  | .finishing _ _ g events => g != f || !events.disconnected
  | _ => true

theorem writableTest_sound (hpass : writableTest f m = true) : m.Writable f := by
  intro n func events hphase
  rw [writableTest, hphase] at hpass
  simpa using hpass

def unfinishedTest (f : HandlerId) (m : Multiplexer) (label : Label) : Bool :=
  match m.handlers.get? f, label with
  | some h, .write (some len) => h.out.length != 1 || h.out.all fun p => decide (h.outPos + len < p.len)
  | _, _ => true

theorem unfinishedTest_sound (hpass : unfinishedTest f m label = true) :
    m.Unfinished f label := by
  rintro n func events h p len - hget hout rfl
  simp only [unfinishedTest, hget] at hpass
  simpa [hout] using hpass

/-- The test of a state in which the next step shuts down handler 2, and of the run behind it. -/
def shutsDownTest (okTest : Multiplexer → Label → Bool) (test : Multiplexer → Bool)
    (labels : List Label) (m : Multiplexer) : Bool :=
  m.clients.get? 0 = some ⟨1, true, some 2⟩ && (m.handlers.get? 2).isSome &&
    m.act .tick = .post 0 (ascii "disconnect:01") && queuedBytes 2 m.trace = ascii "OK" &&
    match m.step .tick with
    | .ok m₁ => (m₁.clients.get? 0).isNone && Run.check step okTest test m₁ labels
    | .error _ => false

theorem shutsDownTest_sound (ok : Multiplexer → Label → Prop) {okTest : Multiplexer → Label → Bool}
    {test : Multiplexer → Bool} {labels : List Label}
    (hsound : ∀ m label, okTest m label = true → ok m label)
    (hpass : shutsDownTest okTest test labels m = true) :
    ∃ h m₁ m₂, m.handlers.get? 2 = some h ∧ m.step .tick = .ok m₁ ∧ m.ShutsDown .tick m₁ 2 ∧
      queuedBytes 2 m.trace = ascii "OK" ∧ Run.Reach step ok m₁ m₂ ∧ test m₂ = true := by
  simp only [shutsDownTest, Bool.and_eq_true, decide_eq_true_eq, Option.isSome_iff_exists] at hpass
  obtain ⟨⟨⟨⟨hcl, h, hget⟩, hact⟩, hqueued⟩, hrest⟩ := hpass
  split at hrest
  · rename_i m₁ hstep
    rw [Bool.and_eq_true, Option.isNone_iff_eq_none] at hrest
    obtain ⟨m₂, hlater, htest⟩ := Run.exists_reach_of_check hsound hrest.2
    refine ⟨h, m₁, m₂, hget, hstep, ⟨fun c hc => ?_, 0, _, hcl, rfl, hrest.1⟩, hqueued, hlater, htest⟩
    rw [hact] at hc
    cases hc
  · cases hrest

/-- One byte of the answer is written, the other one is still queued. -/
theorem shutdown_graceful_answer :
    ∃ m₂ : Multiplexer, m₂.Graceful 2 (ascii "OK") ∧ wroteBytes 2 m₂.trace = ascii "O" := by
  have hrun : Run.check step (fun _ _ => true)
      (shutsDownTest (fun m label => writableTest 2 m && unfinishedTest 2 m label)
        (fun m₂ => wroteBytes 2 m₂.trace = ascii "O") (writeAnswer 1)) start readDisconnect = true := by
    decide +kernel
  obtain ⟨m, hreach, htest⟩ := Run.exists_reach_of_check (fun _ _ _ => trivial) hrun
  obtain ⟨h, m₁, m₂, hget, hstep, hshut, hqueued, hlater, hwrote⟩ := shutsDownTest_sound
    (fun m label => m.Writable 2 ∧ m.Unfinished 2 label)
    (fun m label hpass => ⟨writableTest_sound (Bool.and_eq_true_iff.mp hpass).1,
      unfinishedTest_sound (Bool.and_eq_true_iff.mp hpass).2⟩) htest
  have hgraceful := (shutdown_graceful (fun _ => zeroData) 3 4 m m₁ .tick 2 h hreach hstep hshut
    hget).2 m₂ hlater
  exact ⟨m₂, hqueued ▸ hgraceful.1, of_decide_eq_true hwrote⟩

/-- The answer is written completely, and its handler stays in the closing list with an empty
queue. -/
theorem drainedHandler_kept :
    ∃ m m₁ m₂, Run.Reach step (fun _ _ => True) (multiplexerInit (fun _ => zeroData) 3 4) m ∧
      m.step .tick = .ok m₁ ∧ m.ShutsDown .tick m₁ 2 ∧
      Run.Reach step (fun m _ => m.Writable 2) m₁ m₂ ∧
      ∃ h, m₂.handlers.get? 2 = some h ∧ h.closing = true ∧ h.out = [] := by
  have hrun : Run.check step (fun _ _ => true)
      (shutsDownTest (fun m _ => writableTest 2 m)
        (fun m₂ => (m₂.handlers.get? 2).any fun h => h.closing && h.out.isEmpty)
        (writeAnswer 2)) start readDisconnect = true := by
    decide +kernel
  obtain ⟨m, hreach, htest⟩ := Run.exists_reach_of_check (fun _ _ _ => trivial) hrun
  obtain ⟨-, m₁, m₂, -, hstep, hshut, -, hlater, hkept⟩ := shutsDownTest_sound
    (fun m _ => m.Writable 2) (fun m _ hpass => writableTest_sound hpass) htest
  rw [Option.any_eq_true] at hkept
  obtain ⟨h, hget, hboth⟩ := hkept
  rw [Bool.and_eq_true, List.isEmpty_iff] at hboth
  exact ⟨m, m₁, m₂, hreach, hstep, hshut, hlater, h, hget, hboth⟩

end AndroidRenderer.Qemud.Multiplexer
