import AndroidRenderer.Qemud.Queues

/-!
# What the functions of the daemon act on

One lemma for each function: what it keeps of the queues, and that it only acts on handlers with an
owner, on a new one, and on the one whose event is handled.
-/

namespace AndroidRenderer.Qemud.Multiplexer

variable {S : HandlerId → Prop} {m m' : Multiplexer}

/-! ## Handlers -/

variable {f : HandlerId} {p : Packet} {c : ClientId} {events : Events}

theorem fdhandlerEnqueue_within (hm : m.Sound)
    (hS : ∀ g, m.Owned g → S g) (hf : S f) (h : m.fdhandlerEnqueue f p = .ok m') :
    Within S m m' := by
  obtain ⟨hd, hget, heq⟩ := Run.bind_eq_ok.mp h
  rw [handler_eq_ok] at hget
  obtain rfl := Except.ok.inj heq
  refine .set (hd.enqueue p) hm hS hf hget rfl rfl rfl rfl ?_ FDHandler.enqueue_placed ?_
    fun _ hclosing => hclosing
  · intro e he g hg
    obtain rfl := List.mem_singleton.mp he
    exact (Option.some.inj hg).symm
  · intro hplaced
    rw [FDHandler.enqueue_pending hplaced]
    simp [queuedBytes, wroteBytes, Event.queuedOn, Event.wroteTo]

theorem fdhandlerFinish_within (hm : m.Sound) (hS : ∀ g, m.Owned g → S g)
    (hf : S f) (h : m.fdhandlerFinish f = .ok m') : Within S m m' := by
  obtain ⟨hd, -, heq⟩ := Run.bind_eq_ok.mp h
  obtain rfl := Except.ok.inj heq
  exact .remove hm hS hf rfl rfl rfl rfl

theorem Within.flags {hd : FDHandler} (closing : Bool) (receiver : Receiver)
    (hm : m.Sound) (hS : ∀ g, m.Owned g → S g) (hf : S f) (hget : m.handlers.get? f = some hd)
    (hclosing : m.Owned f → hd.closing = false → closing = false) :
    Within S m { m with
      handlers := m.handlers.set f { hd with closing := closing, receiver := receiver } } :=
  .set _ hm hS hf hget rfl rfl rfl (List.append_nil _).symm (fun _ he => nomatch he)
    (fun hplaced => hplaced) (fun _ => List.append_nil _) hclosing

theorem fdhandlerShutdown_within (hm : m.Sound) (hS : ∀ g, m.Owned g → S g)
    (hf : S f) (hun : ¬m.Owned f) (h : m.fdhandlerShutdown f = .ok m') : Within S m m' := by
  obtain ⟨hd, hget, heq⟩ := Run.bind_eq_ok.mp h
  rw [handler_eq_ok] at hget
  split at heq
  · obtain rfl := Except.ok.inj heq
    exact .flags _ _ hm hS hf hget fun howned => absurd howned hun
  · have hflags := Within.flags hd.closing
      { hd.receiver with close := false, post := false } hm hS hf hget
      fun _ hclosing => hclosing
    exact hflags.trans (fdhandlerFinish_within hflags.sound hflags.owned hf heq)

/-! ## Sending on the serial line -/

/-- Packets are taken and freed, and something is recorded that is not about a queue. -/
theorem Within.log {events : List Event} (hm : m.Sound) (hS : ∀ g, m.Owned g → S g)
    (hhandlers : m'.handlers = m.handlers) (hclients : m'.clients = m.clients)
    (hline : m'.serial.fdhandler = m.serial.fdhandler) (htrace : m'.trace = m.trace ++ events)
    (hevents : ∀ e ∈ events, e.queue = none) : Within S m m' :=
  .quiet events hm hS hhandlers (hclients ▸ Shrinks.refl _) hline htrace hevents

theorem Within.same (hm : m.Sound) (hS : ∀ g, m.Owned g → S g)
    (hhandlers : m'.handlers = m.handlers)
    (hclients : m'.clients = m.clients) (hline : m'.serial.fdhandler = m.serial.fdhandler)
    (htrace : m'.trace = m.trace) : Within S m m' :=
  .log hm hS hhandlers hclients hline (htrace.trans (List.append_nil _).symm)
    fun _ he => nomatch he

theorem serialSend_within (hm : m.Sound) (hS : ∀ g, m.Owned g → S g)
    (h : m.serialSend p = .ok m') : Within S m m' := by
  obtain ⟨m₁, hheader, hpayload⟩ := Run.bind_eq_ok.mp h
  have hlog : Within S m { m with
      pool := m.pool.packetAlloc.2, trace := m.trace ++ [Event.sent p.channel p.payload] } := by
    refine .log hm hS rfl rfl rfl rfl fun e he => ?_
    obtain rfl := List.mem_singleton.mp he
    rfl
  have hline : S m.serial.fdhandler := hS _ (.inl rfl)
  have h₁ := fdhandlerEnqueue_within hlog.sound hlog.owned hline hheader
  have hserial : m₁.serial = m.serial := (fdhandlerEnqueue_effect hheader).serial
  rw [hserial] at hpayload
  exact hlog.trans (h₁.trans (fdhandlerEnqueue_within h₁.sound h₁.owned hline hpayload))

theorem multiplexerOpenChannel_clients {service : Packet} {channel : Int}
    (hcall : m.multiplexerOpenChannel service = .ok (m', channel)) : m'.clients = m.clients := by
  refine (congrArg Mux.clients (multiplexerOpenChannel_effect hcall).1.mux).trans ?_
  unfold Mux.openChannel
  split
  · rfl
  · split <;> rfl

theorem multiplexerOpenChannel_within {service : Packet} {channel : Int} (hm : m.Sound)
    (hS : ∀ g, m.Owned g → S g) (h : m.multiplexerOpenChannel service = .ok (m', channel)) :
    Within S m m' := by
  simp only [multiplexerOpenChannel] at h
  split at h
  · cases h
  · rename_i last free hfind
    have hpool : Within S m { m with pool := m.pool.packetAlloc.2, lastChannel := last } :=
      .same hm hS rfl rfl rfl rfl
    split at h
    · obtain ⟨m₁, hsend, heq⟩ := Run.bind_eq_ok.mp h
      obtain ⟨rfl, -⟩ := Prod.mk.inj (Except.ok.inj heq)
      exact hpool.trans (serialSend_within hpool.sound hpool.owned hsend)
    · obtain ⟨rfl, -⟩ := Prod.mk.inj (Except.ok.inj h)
      exact .same hm hS rfl rfl rfl rfl

theorem multiplexerCloseChannel_within {channel : Int} (hm : m.Sound)
    (hS : ∀ g, m.Owned g → S g) (h : m.multiplexerCloseChannel channel = .ok m') :
    Within S m m' := by
  simp only [multiplexerCloseChannel] at h
  have hpool : Within S m { m with pool := m.pool.packetAlloc.2 } := .same hm hS rfl rfl rfl rfl
  split at h
  · exact hpool.trans (serialSend_within hpool.sound hpool.owned h)
  · grind

/-! ## Clients -/

theorem not_owned_remove {cl : Client} (hm : m.Sound)
    (hget : m.clients.get? c = some cl) (hf : cl.fdhandler = some f)
    (hclients : m'.clients = m.clients.remove c)
    (hline : m'.serial.fdhandler = m.serial.fdhandler) : ¬m'.Owned f := by
  obtain ⟨hne, hall⟩ := hm.sole c cl f hget hf
  rintro (hserial | ⟨c', cl', hget', hf'⟩)
  · exact hne (hserial.trans hline)
  · grind

theorem clientFree_within (hm : m.Sound) (hS : ∀ g, m.Owned g → S g)
    (h : m.clientFree c = .ok m') : Within S m m' := by
  obtain ⟨cl, hcl, heq⟩ := Run.bind_eq_ok.mp h
  rw [client_eq_ok] at hcl
  have hfree : Within S m { m with clients := m.clients.remove c } :=
    .quiet [] hm hS rfl (Within.Shrinks.remove _ c) rfl (List.append_nil _).symm
      fun _ he => nomatch he
  cases hf : cl.fdhandler with
  | none =>
      rw [hf] at heq
      obtain rfl := Except.ok.inj heq
      exact hfree
  | some f =>
      rw [hf] at heq
      refine hfree.trans (fdhandlerShutdown_within hfree.sound hfree.owned
        (hS f (.inr ⟨c, cl, hcl, hf⟩)) ?_ heq)
      exact not_owned_remove hm hcl hf rfl rfl

/-- A client changes, and may lose its handler. -/
theorem Within.setClient {cl cl' : Client} (hm : m.Sound)
    (hS : ∀ g, m.Owned g → S g) (hcl : m.clients.get? c = some cl)
    (hf : ∀ f ∈ cl'.fdhandler, f ∈ cl.fdhandler) :
    Within S m { m with clients := m.clients.set c cl' } :=
  .quiet [] hm hS rfl (Shrinks.set hcl hf) rfl (List.append_nil _).symm fun _ he => nomatch he

theorem clientFdReceive_within (hm : m.Sound)
    (hS : ∀ g, m.Owned g → S g) (h : m.clientFdReceive c p = .ok m') : Within S m m' := by
  obtain ⟨cl, hcl, heq⟩ := Run.bind_eq_ok.mp h
  rw [client_eq_ok] at hcl
  split at heq
  · exact serialSend_within hm hS heq
  split at heq
  · have hpool : Within S m (m.packetFree p) := .same hm hS rfl rfl rfl rfl
    exact hpool.trans (clientFree_within hpool.sound hpool.owned heq)
  · obtain ⟨⟨m₁, channel⟩, hopen, heq⟩ := Run.bind_eq_ok.mp heq
    have h₁ := multiplexerOpenChannel_within hm hS hopen
    have hclients : m₁.clients.get? c = some cl := by
      rw [multiplexerOpenChannel_clients hopen]
      exact hcl
    have hset : Within S m₁ { m₁ with clients := m₁.clients.set c { cl with channel := channel } } :=
      .setClient h₁.sound h₁.owned hclients fun _ hf => hf
    have hpool : Within S { m₁ with clients := m₁.clients.set c { cl with channel := channel } }
        (packetFree { m₁ with clients := m₁.clients.set c { cl with channel := channel } } p) :=
      .same hset.sound hset.owned rfl rfl rfl rfl
    dsimp only at heq
    split at heq
    · exact h₁.trans (hset.trans (hpool.trans (clientFree_within hpool.sound hpool.owned heq)))
    · obtain rfl := Except.ok.inj heq
      exact h₁.trans (hset.trans hpool)

theorem clientFdClose_within (hm : m.Sound) (hS : ∀ g, m.Owned g → S g)
    (h : m.clientFdClose c = .ok m') : Within S m m' := by
  obtain ⟨cl, hcl, heq⟩ := Run.bind_eq_ok.mp h
  rw [client_eq_ok] at hcl
  obtain ⟨m₁, hclose, hfree⟩ := Run.bind_eq_ok.mp heq
  have hset : Within S m { m with clients := m.clients.set c { cl with fdhandler := none } } :=
    .setClient hm hS hcl fun _ hf => nomatch hf
  have h₁ : Within S { m with clients := m.clients.set c { cl with fdhandler := none } } m₁ := by
    split at hclose
    · exact multiplexerCloseChannel_within hset.sound hset.owned hclose
    · obtain rfl := Except.ok.inj hclose
      exact .same hset.sound hset.owned rfl rfl rfl rfl
  exact hset.trans (h₁.trans (clientFree_within h₁.sound h₁.owned hfree))

theorem clientRegistration_within {registered : Bool} (hm : m.Sound)
    (hS : ∀ g, m.Owned g → S g) (h : m.clientRegistration c registered = .ok m') :
    Within S m m' := by
  obtain ⟨cl, hcl, heq⟩ := Run.bind_eq_ok.mp h
  rw [client_eq_ok] at hcl
  cases hf : cl.fdhandler with
  | none =>
      rw [hf] at heq
      cases heq
  | some f =>
      rw [hf] at heq
      obtain ⟨m₁, hqueue, heq⟩ := Run.bind_eq_ok.mp heq
      obtain rfl := Except.ok.inj heq
      have hpool : Within S m { m with pool := m.pool.packetAlloc.2 } := .same hm hS rfl rfl rfl rfl
      have h₁ := fdhandlerEnqueue_within hpool.sound hpool.owned (hS f (.inr ⟨c, cl, hcl, hf⟩)) hqueue
      have hclients : m₁.clients = m.clients := congrArg Mux.clients (fdhandlerEnqueue_effect hqueue).mux
      refine hpool.trans (h₁.trans (.quiet [.answered c registered] h₁.sound h₁.owned rfl
        (Within.Shrinks.set (hclients ▸ hcl) ?_) rfl rfl fun e he => ?_))
      · simp [hf]
      · obtain rfl := List.mem_singleton.mp he
        rfl

theorem clientSend_within (hm : m.Sound) (hS : ∀ g, m.Owned g → S g)
    (h : m.clientSend c p = .ok m') : Within S m m' := by
  obtain ⟨cl, hcl, heq⟩ := Run.bind_eq_ok.mp h
  rw [client_eq_ok] at hcl
  cases hf : cl.fdhandler with
  | none =>
      rw [hf] at heq
      cases heq
  | some f =>
      rw [hf] at heq
      exact fdhandlerEnqueue_within hm hS (hS f (.inr ⟨c, cl, hcl, hf⟩)) heq

theorem clientNew_within (hm : m.Sound) (hS : ∀ g, m.Owned g → S g) (hnew : S m.handlers.next)
    (fd : Nat) : Within S m (m.clientNew fd) := by
  have hget : ∀ g, (m.clientNew fd).handlers.get? g = if g = m.handlers.next then
      some ⟨fd, false, ⟨.client m.clients.next, true, true⟩, 0, []⟩ else m.handlers.get? g :=
    Registry.get?_insert _ _
  have hclient : ∀ c cl, (m.clientNew fd).clients.get? c = some cl →
      c = m.clients.next ∧ cl.fdhandler = some m.handlers.next ∨ m.clients.get? c = some cl := by
    grind [clientNew]
  have howned : ∀ g, (m.clientNew fd).Owned g → g = m.handlers.next ∨ m.Owned g := by
    rintro g (hline | ⟨c, cl, hc, hf⟩)
    · exact .inr (.inl hline)
    · obtain ⟨-, hnext⟩ | hold := hclient c cl hc
      · exact .inl (Option.some.inj (hf.symm.trans hnext))
      · exact .inr (.inr ⟨c, cl, hold, hf⟩)
  have hlt : ∀ g, m.Owned g → g ≠ m.handlers.next := fun g hg => Nat.ne_of_lt (hm.owned_lt g hg)
  refine ⟨fun g hg => ?_, ⟨[], (List.append_nil _).symm, fun _ he => nomatch he⟩, fun g hg => ?_,
    Nat.le_succ _, ⟨?_, ?_, ?_, ?_, ?_⟩⟩
  · grind
  · grind
  · exact fun e he g hg => Nat.lt_succ_of_lt (hm.known e he g hg)
  · intro g hd hg
    rw [hget] at hg
    split at hg
    · rename_i heq
      obtain rfl := Option.some.inj hg
      have hnone : ∀ e ∈ m.trace, g ∉ e.queue := fun e he hq =>
        absurd (hm.known e he g hq) (by rw [heq]; exact Nat.lt_irrefl _)
      change _ ∧ queuedBytes g m.trace = wroteBytes g m.trace ++ _
      rw [queuedBytes_eq_nil hnone, wroteBytes_eq_nil hnone]
      exact ⟨(fun _ hp => nomatch hp), rfl⟩
    · exact hm.fifo g hd hg
  · intro g hg
    obtain rfl | hold := howned g hg
    · exact Nat.lt_succ_self _
    · exact Nat.lt_succ_of_lt (hm.owned_lt g hold)
  · grind [hm.active]
  · intro c cl f hc hf
    obtain ⟨rfl, hnext⟩ | hold := hclient c cl hc
    · obtain rfl := Option.some.inj (hnext.symm.trans hf)
      refine ⟨fun heq => hlt _ (.inl rfl) heq.symm, fun c' cl' hc' hf' => ?_⟩
      obtain ⟨rfl, -⟩ | hold' := hclient c' cl' hc'
      · rfl
      · exact absurd rfl (hlt _ (.inr ⟨c', cl', hold', hf'⟩))
    · obtain ⟨hne, hall⟩ := hm.sole c cl f hold hf
      refine ⟨hne, fun c' cl' hc' hf' => ?_⟩
      obtain ⟨rfl, hnext⟩ | hold' := hclient c' cl' hc'
      · exact absurd (Option.some.inj (hf'.symm.trans hnext)) (hlt f (.inr ⟨c, cl, hold, hf⟩))
      · exact hall c' cl' hold' hf'

/-! ## Messages from the emulator -/

theorem multiplexerHandleControl_within (hm : m.Sound) (hS : ∀ g, m.Owned g → S g)
    (h : m.multiplexerHandleControl p = .ok m') : Within S m m' := by
  obtain ⟨m₁, hmessage, heq⟩ := Run.bind_eq_ok.mp h
  obtain rfl := Except.ok.inj heq
  suffices h₁ : Within S m m₁ from h₁.trans (.same h₁.sound h₁.owned rfl rfl rfl rfl)
  split at hmessage
  · split at hmessage
    · exact clientRegistration_within hm hS hmessage
    · obtain rfl := Except.ok.inj hmessage
      exact .same hm hS rfl rfl rfl rfl
  · split at hmessage
    · exact clientRegistration_within hm hS hmessage
    · obtain rfl := Except.ok.inj hmessage
      exact .same hm hS rfl rfl rfl rfl
  · split at hmessage
    · exact clientFree_within hm hS hmessage
    · obtain rfl := Except.ok.inj hmessage
      exact .same hm hS rfl rfl rfl rfl
  · obtain rfl := Except.ok.inj hmessage
    exact .same hm hS rfl rfl rfl rfl

theorem multiplexerSerialReceive_within (hm : m.Sound) (hS : ∀ g, m.Owned g → S g)
    (h : m.multiplexerSerialReceive p = .ok m') : Within S m m' := by
  simp only [multiplexerSerialReceive] at h
  have hlog : Within S m { m with trace := m.trace ++ [Event.posted p.channel p.payload] } := by
    refine .log hm hS rfl rfl rfl rfl fun e he => ?_
    obtain rfl := List.mem_singleton.mp he
    rfl
  refine hlog.trans ?_
  split at h
  · exact multiplexerHandleControl_within hlog.sound hlog.owned h
  · split at h
    · exact clientSend_within hlog.sound hlog.owned h
    · obtain rfl := Except.ok.inj h
      exact .same hlog.sound hlog.owned rfl rfl rfl rfl

/-! ## Closing -/

theorem receiverClose_within (hm : m.Sound) (hS : ∀ g, m.Owned g → S g) (hf : S f)
    (h : m.receiverClose f = .ok m') : Within S m m' := by
  obtain ⟨hd, -, heq⟩ := Run.bind_eq_ok.mp h
  obtain ⟨m₁, hclose, heq⟩ := Run.bind_eq_ok.mp heq
  obtain ⟨hd', hget, heq⟩ := Run.bind_eq_ok.mp heq
  rw [handler_eq_ok] at hget
  obtain rfl := Except.ok.inj heq
  have h₁ : Within S m m₁ := by
    split at hclose
    · grind [clientFdClose_within]
    · obtain rfl := Except.ok.inj hclose
      exact .same hm hS rfl rfl rfl rfl
  exact h₁.trans (.flags _ _ h₁.sound h₁.owned hf hget fun _ hclosing => hclosing)

theorem fdhandlerClose_within (hm : m.Sound) (hS : ∀ g, m.Owned g → S g) (hf : S f)
    (h : m.fdhandlerClose f = .ok m') : Within S m m' := by
  obtain ⟨m₁, hclose, hfinish⟩ := Run.bind_eq_ok.mp h
  have h₁ := receiverClose_within hm hS hf hclose
  exact h₁.trans (fdhandlerFinish_within h₁.sound h₁.owned hf hfinish)

/-! ## Events -/

theorem readEvent_within {n : Nat} {result : Option Read}
    (hm : m.Sound) (hS : ∀ g, m.Owned g → S g) (h : m.readEvent n f events result = .ok m') :
    Within S m m' := by
  obtain ⟨hd, -, heq⟩ := Run.bind_eq_ok.mp h
  have hpool : Within S m { m with
      pool := m.pool.packetAlloc.2, phase := .finishing n .fdhandlerEvent f events } :=
    .same hm hS rfl rfl rfl rfl
  cases result with
  | none =>
      obtain rfl := Except.ok.inj heq
      exact .same hm hS rfl rfl rfl rfl
  | some r =>
      dsimp only at heq
      split at heq
      · obtain rfl := Except.ok.inj heq
        exact hpool
      have hlog : Within S m { m with
          pool := m.pool.packetAlloc.2, phase := .finishing n .fdhandlerEvent f events
          trace := m.trace ++ [Event.read f r.bytes] } := by
        refine .log hm hS rfl rfl rfl rfl fun e he => ?_
        obtain rfl := List.mem_singleton.mp he
        rfl
      refine hlog.trans ?_
      split at heq
      · split at heq
        · obtain rfl := Except.ok.inj heq
          exact .same hlog.sound hlog.owned rfl rfl rfl rfl
        · exact clientFdReceive_within hlog.sound hlog.owned heq
        · cases heq
      · obtain rfl := Except.ok.inj heq
        exact .same hlog.sound hlog.owned rfl rfl rfl rfl

theorem acceptEvent_within {n : Nat} {result : Option Nat}
    (hm : m.Sound) (hS : ∀ g, m.Owned g → S g) (hnew : S m.handlers.next)
    (h : m.acceptEvent n f events result = .ok m') : Within S m m' := by
  obtain ⟨hd, -, heq⟩ := Run.bind_eq_ok.mp h
  cases result with
  | none =>
      obtain rfl := Except.ok.inj heq
      exact .same hm hS rfl rfl rfl rfl
  | some fd =>
      dsimp only at heq
      split at heq
      · cases heq
      have hpool : Within S m { m with
          pool := m.pool.packetAlloc.2, phase := .finishing n .fdhandlerAcceptEvent f events } :=
        .same hm hS rfl rfl rfl rfl
      refine hpool.trans ?_
      split at heq
      · split at heq
        · obtain rfl := Except.ok.inj heq
          have hclient := clientNew_within hpool.sound hpool.owned hnew fd
          exact hclient.trans (.same hclient.sound hclient.owned rfl rfl rfl rfl)
        · cases heq
      · obtain rfl := Except.ok.inj heq
        exact .same hpool.sound hpool.owned rfl rfl rfl rfl

theorem writeEvent_handler {hd : FDHandler} {out : List Packet}
    {len : Nat} (h : m.writeEvent f hd p out (some len) = .ok m') :
    len ≤ p.len - hd.outPos ∧ m'.handlers = m.handlers.set f (hd.written p out len) ∧
      m'.clients = m.clients ∧ m'.serial = m.serial ∧
      m'.trace = m.trace ++ [.wrote f ((p.payload.drop hd.outPos).take len)] := by
  simp only [writeEvent] at h
  unfold FDHandler.written
  split at h
  · cases h
  · rename_i hlen
    refine ⟨by omega, ?_⟩
    split at h
    · rename_i hdone
      obtain rfl := Except.ok.inj h
      rw [if_pos hdone]
      exact ⟨rfl, rfl, rfl, rfl⟩
    · grind

theorem writeEvent_within {hd : FDHandler} {out : List Packet}
    {result : Option Nat} (hm : m.Sound) (hS : ∀ g, m.Owned g → S g) (hf : S f)
    (hget : m.handlers.get? f = some hd) (hout : hd.out = p :: out)
    (h : m.writeEvent f hd p out result = .ok m') : Within S m m' := by
  cases result with
  | none =>
      obtain rfl := Except.ok.inj h
      exact .same hm hS rfl rfl rfl rfl
  | some len =>
      obtain ⟨-, hhandlers, hclients, hserial, htrace⟩ := writeEvent_handler h
      refine .set _ hm hS hf hget hhandlers hclients (congrArg Serial.fdhandler hserial) htrace ?_
        (fun _ => FDHandler.written_placed hout) ?_ fun _ hclosing => ?_
      · intro e he g hg
        obtain rfl := List.mem_singleton.mp he
        exact (Option.some.inj hg).symm
      · grind [queuedBytes, wroteBytes, Event.queuedOn, Event.wroteTo, FDHandler.written_pending]
      · grind [FDHandler.written]

/-- The events that act on the handler they are for: it is closed, or its queue is written. -/
def Acts (m : Multiplexer) (label : Label) (g : HandlerId) : Prop :=
  ∃ n func events, m.phase = .finishing n func g events ∧
    (events.disconnected = true ∨ ∃ result, label = .write result)

theorem finishEvent_within {n : Nat} {func : EventFunc}
    {label : Label} (hm : m.Sound) (hS : ∀ g, m.Owned g → S g)
    (hf : events.disconnected = true ∨ (∃ result, label = .write result) → S f)
    (h : m.finishEvent n func f events label = .ok m') : Within S m m' := by
  simp only [finishEvent] at h
  have hphase : Within S m { m with phase := .running (n + 1) } := .same hm hS rfl rfl rfl rfl
  refine hphase.trans ?_
  split at h
  · rename_i hdisc
    cases label with
    | tick => exact fdhandlerClose_within hphase.sound hphase.owned (hf (.inl hdisc)) h
    | _ => cases h
  · split at h
    · obtain ⟨hd, hget, heq⟩ := Run.bind_eq_ok.mp h
      rw [handler_eq_ok] at hget
      split at heq
      · obtain rfl := Except.ok.inj heq
        exact .same hphase.sound hphase.owned rfl rfl rfl rfl
      · rename_i hout
        exact writeEvent_within hphase.sound hphase.owned (hf (.inr ⟨_, rfl⟩)) hget hout heq
      · cases heq
    · cases label with
      | tick =>
          obtain rfl := Except.ok.inj h
          exact .same hphase.sound hphase.owned rfl rfl rfl rfl
      | _ => cases h

theorem hookEvent_within {n : Nat} {hook : LoopHook} {label : Label} (hm : m.Sound)
    (hS : ∀ g, m.Owned g → S g) (hnew : S m.handlers.next)
    (h : m.hookEvent n hook label = .ok m') : Within S m m' := by
  simp only [hookEvent] at h
  have hfire : Within S m { m with looper := m.looper.fire n } := .same hm hS rfl rfl rfl rfl
  refine hfire.trans ?_
  split at h
  · exact readEvent_within hfire.sound hfire.owned h
  · exact acceptEvent_within hfire.sound hfire.owned hnew h
  · obtain rfl := Except.ok.inj h
    exact .same hfire.sound hfire.owned rfl rfl rfl rfl
  · cases h

theorem receiveTurn_within {n : Nat}
    {unread : List UInt8} (hm : m.Sound) (hS : ∀ g, m.Owned g → S g)
    (h : m.receiveTurn n f events p unread = .ok m') : Within S m m' := by
  unfold receiveTurn at h
  split at h
  · obtain rfl := Except.ok.inj h
    exact .same hm hS rfl rfl rfl rfl
  · split at h
    · cases h
    · rename_i serial unread' hturn
      obtain rfl := Except.ok.inj h
      exact .same hm hS rfl rfl (Serial.receiveTurn_some hturn).2.2.2 rfl
    · rename_i serial inp unread' hturn
      have hline : serial.fdhandler = m.serial.fdhandler := (Serial.receiveTurn_some hturn).2.2.2
      have hserial : Within S m { m with serial := serial } := .same hm hS rfl rfl hline rfl
      obtain ⟨m₁, hreceive, heq⟩ := Run.bind_eq_ok.mp h
      obtain rfl := Except.ok.inj heq
      have h₁ := multiplexerSerialReceive_within hserial.sound hserial.owned hreceive
      exact hserial.trans (h₁.trans (.same h₁.sound h₁.owned rfl rfl rfl rfl))

/-- A step only acts on owned handlers, a new one, and one that it closes or writes from. -/
theorem step_within {label : Label} (hm : m.Sound) (hS : ∀ g, m.Owned g → S g)
    (hnew : S m.handlers.next) (hacts : ∀ g, m.Acts label g → S g) (h : m.step label = .ok m') :
    Within S m m' := by
  cases step_cases h with
  | wait => exact .same hm hS rfl rfl rfl rfl
  | skip => exact .same hm hS rfl rfl rfl rfl
  | hook _ _ _ hevent => exact hookEvent_within hm hS hnew hevent
  | sweep => exact .same hm hS rfl rfl rfl rfl
  | receive _ hturn => exact receiveTurn_within hm hS hturn
  | finish hphase hevent =>
      exact finishEvent_within hm hS (fun hacting => hacts _ ⟨_, _, _, hphase, hacting⟩) hevent

/-! ## Runs -/

theorem multiplexerInit_sound (heap : Nat → Buffer UInt8 MAX_PAYLOAD) (fd controlFd : Nat) :
    (multiplexerInit heap fd controlFd).Sound := by
  have hhandlers : ∀ f h, (multiplexerInit heap fd controlFd).handlers.get? f = some h →
      h.out = [] ∧ h.closing = false := by
    grind [multiplexerInit, fdhandlerNew, Registry.get?_empty]
  refine ⟨(fun _ he => nomatch he), fun f h hget => ?_, fun f hf => ?_,
    fun f h _ hget => (hhandlers f h hget).2, (fun c cl f hget => nomatch hget)⟩
  · obtain ⟨hout, -⟩ := hhandlers f h hget
    refine ⟨fun p hp => ?_, ?_⟩
    · rw [hout] at hp
      cases hp
    · rw [FDHandler.pending, hout]
      exact (List.drop_nil).symm
  · obtain rfl | ⟨c, cl, hget, -⟩ := hf
    · exact Nat.zero_lt_two
    · cases hget

theorem reach_sound {ok : Multiplexer → Label → Prop} {s t : Multiplexer} (hs : s.Sound)
    (h : Run.Reach step ok s t) : t.Sound :=
  h.invariant hs fun _ _ _ ht _ hstep =>
    (step_within (S := fun _ => True) ht (fun _ _ => trivial) trivial (fun _ _ => trivial) hstep).sound

end AndroidRenderer.Qemud.Multiplexer
