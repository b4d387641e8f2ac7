import AndroidRenderer.Qemud.Act

/-!
# Queues of handlers and who owns them

The bytes queued on a handler are those that were written from it and those that it still holds.
The daemon only acts on the handler of the event it handles, on the serial line and on handlers of
live clients (`Within`), and each of these belongs to one client or to the serial line (`Sound`).
-/

namespace AndroidRenderer.Qemud

/-! ## Queued and written bytes -/

def Event.queue : Event → Option HandlerId
  | .wrote f _ => some f
  | .queued f _ => some f
  | _ => none

def Event.queuedOn (f : HandlerId) : Event → List UInt8
  | .queued g bytes => if g = f then bytes else []
  | _ => []

def Event.wroteTo (f : HandlerId) : Event → List UInt8
  | .wrote g bytes => if g = f then bytes else []
  | _ => []

def queuedBytes (f : HandlerId) (trace : List Event) : List UInt8 :=
  trace.flatMap (Event.queuedOn f)

/-- The bytes written to its descriptor. -/
def wroteBytes (f : HandlerId) (trace : List Event) : List UInt8 := trace.flatMap (Event.wroteTo f)

@[simp] theorem queuedBytes_append (f : HandlerId) (trace events : List Event) :
    queuedBytes f (trace ++ events) = queuedBytes f trace ++ queuedBytes f events :=
  List.flatMap_append

@[simp] theorem wroteBytes_append (f : HandlerId) (trace events : List Event) :
    wroteBytes f (trace ++ events) = wroteBytes f trace ++ wroteBytes f events :=
  List.flatMap_append

theorem queuedBytes_eq_nil {f : HandlerId} {events : List Event} (h : ∀ e ∈ events, f ∉ e.queue) :
    queuedBytes f events = [] := by
  rw [queuedBytes, List.flatMap_eq_nil_iff]
  intro e he
  cases e with
  | queued g bytes => exact if_neg fun (heq : g = f) => h _ he (congrArg some heq)
  | _ => rfl

theorem wroteBytes_eq_nil {f : HandlerId} {events : List Event} (h : ∀ e ∈ events, f ∉ e.queue) :
    wroteBytes f events = [] := by
  rw [wroteBytes, List.flatMap_eq_nil_iff]
  intro e he
  cases e with
  | wrote g bytes => exact if_neg fun (heq : g = f) => h _ he (congrArg some heq)
  | _ => rfl

namespace FDHandler

/-- `out_pos` is in the first packet. -/
def Placed (h : FDHandler) : Prop := ∀ p ∈ h.out.head?, h.outPos ≤ p.len

variable {h : FDHandler} {p : Packet} {out : List Packet} {len : Nat}

/-- The handler behind `fdhandler_enqueue`. -/
def enqueue (h : FDHandler) (p : Packet) : FDHandler :=
  { h with out := h.out ++ [p], outPos := if h.out.isEmpty then 0 else h.outPos }

theorem enqueue_placed (hplaced : h.Placed) : (h.enqueue p).Placed := by
  obtain ⟨fd, closing, receiver, outPos, out⟩ := h
  cases out with
  | nil => exact fun _ _ => Nat.zero_le _
  | cons q out => exact fun q' hq => hplaced q' hq

theorem enqueue_pending (hplaced : h.Placed) : (h.enqueue p).pending = h.pending ++ p.payload := by
  obtain ⟨fd, closing, receiver, outPos, out⟩ := h
  cases out with
  | nil => simp [enqueue, pending]
  | cons q out =>
      have hle : outPos ≤ (q.payload ++ out.flatMap Packet.payload).length := by
        have := hplaced q rfl
        grind [Packet.payload_length]
      change ((q :: out ++ [p]).flatMap Packet.payload).drop outPos = _
      rw [List.flatMap_append, List.flatMap_cons, List.drop_append_of_le_length hle]
      simp [pending]

/-- The handler after `len` bytes of its first packet `p` are written. -/
def written (h : FDHandler) (p : Packet) (out : List Packet) (len : Nat) : FDHandler :=
  if p.len ≤ h.outPos + len then { h with outPos := 0, out := out }
  else { h with outPos := h.outPos + len }

theorem written_placed (hout : h.out = p :: out) : (h.written p out len).Placed := by
  unfold written
  split
  · exact fun _ _ => Nat.zero_le _
  · rename_i hmore
    intro q hq
    grind

variable (len) in
theorem written_pending (hout : h.out = p :: out) (hplaced : h.Placed) :
    (p.payload.drop h.outPos).take len ++ (h.written p out len).pending = h.pending := by
  have hpos : h.outPos ≤ p.len := hplaced p (by rw [hout]; rfl)
  have hpending : h.pending = p.payload.drop h.outPos ++ out.flatMap Packet.payload := by
    rw [pending, hout, List.flatMap_cons,
      List.drop_append_of_le_length (by rwa [Packet.payload_length])]
  rw [hpending, written]
  split
  · rename_i hdone
    rw [List.take_of_length_le (by rw [List.length_drop, Packet.payload_length]; omega)]
    rfl
  · rename_i hmore
    have hdrop : ({ h with outPos := h.outPos + len } : FDHandler).pending =
        p.payload.drop (h.outPos + len) ++ out.flatMap Packet.payload := by
      rw [pending]
      dsimp only
      rw [hout, List.flatMap_cons,
        List.drop_append_of_le_length (by rw [Packet.payload_length]; omega)]
    rw [hdrop, ← List.append_assoc, ← List.drop_drop, List.take_append_drop]

end FDHandler

namespace Multiplexer

/-! ## Owners -/

/-- The handler of the serial line or of a live client. -/
def Owned (m : Multiplexer) (f : HandlerId) : Prop :=
  f = m.serial.fdhandler ∨ ∃ c cl, m.clients.get? c = some cl ∧ cl.fdhandler = some f

/-- What holds of the queues and their owners in every state. -/
structure Sound (m : Multiplexer) : Prop where
  known : ∀ e ∈ m.trace, ∀ f ∈ e.queue, f < m.handlers.next
  fifo : ∀ f h, m.handlers.get? f = some h →
    h.Placed ∧ queuedBytes f m.trace = wroteBytes f m.trace ++ h.pending
  owned_lt : ∀ f, m.Owned f → f < m.handlers.next
  active : ∀ f h, m.Owned f → m.handlers.get? f = some h → h.closing = false
  sole : ∀ c cl f, m.clients.get? c = some cl → cl.fdhandler = some f →
    f ≠ m.serial.fdhandler ∧
      ∀ c' cl', m.clients.get? c' = some cl' → cl'.fdhandler = some f → c' = c

/-- A part of a step that only acts on handlers in `S`. -/
structure Within (S : HandlerId → Prop) (m m' : Multiplexer) : Prop where
  handler : ∀ g, ¬S g → m'.handlers.get? g = m.handlers.get? g
  trace : ∃ events, m'.trace = m.trace ++ events ∧ ∀ e ∈ events, ∀ g ∈ e.queue, S g
  owned : ∀ g, m'.Owned g → S g
  next : m.handlers.next ≤ m'.handlers.next
  sound : m'.Sound

namespace Within

variable {S : HandlerId → Prop} {m m₁ m' : Multiplexer}

theorem trans (h : Within S m m₁) (h' : Within S m₁ m') : Within S m m' where
  handler g hg := (h'.handler g hg).trans (h.handler g hg)
  trace := by
    obtain ⟨events, htrace, hevents⟩ := h.trace
    obtain ⟨events', htrace', hevents'⟩ := h'.trace
    refine ⟨events ++ events', by rw [htrace', htrace, List.append_assoc], fun e he => ?_⟩
    exact (List.mem_append.mp he).elim (hevents e) (hevents' e)
  owned := h'.owned
  next := Nat.le_trans h.next h'.next
  sound := h'.sound

/-- Clients may go, and lose their handlers. -/
def Shrinks (clients clients' : Registry Client) : Prop :=
  ∀ c cl' f, clients'.get? c = some cl' → cl'.fdhandler = some f →
    ∃ cl, clients.get? c = some cl ∧ cl.fdhandler = some f

theorem Shrinks.refl (clients : Registry Client) : Shrinks clients clients :=
  fun _ cl' _ hget hf => ⟨cl', hget, hf⟩

theorem Shrinks.remove (clients : Registry Client) (c : ClientId) :
    Shrinks clients (clients.remove c) := by
  intro c' cl' f hget hf
  grind

theorem Shrinks.set {clients : Registry Client} {c : ClientId} {cl cl' : Client}
    (hget : clients.get? c = some cl) (hf : ∀ f ∈ cl'.fdhandler, f ∈ cl.fdhandler) :
    Shrinks clients (clients.set c cl') := by
  intro i cl₁ f hget₁ hf₁
  rw [Registry.get?_set] at hget₁
  split at hget₁
  · rename_i hi
    obtain ⟨-, -, rfl⟩ := Option.map_eq_some_iff.mp hget₁
    exact ⟨cl, hi ▸ hget, hf f hf₁⟩
  · exact ⟨cl₁, hget₁, hf₁⟩

theorem owned_of_shrinks (hclients : Shrinks m.clients m'.clients)
    (hline : m'.serial.fdhandler = m.serial.fdhandler) {g : HandlerId} (h : m'.Owned g) :
    m.Owned g := by
  obtain rfl | ⟨c, cl', hget, hf⟩ := h
  · exact .inl hline
  · obtain ⟨cl, hcl⟩ := hclients c cl' g hget hf
    exact .inr ⟨c, cl, hcl⟩

theorem sole_of_shrinks (hclients : Shrinks m.clients m'.clients)
    (hline : m'.serial.fdhandler = m.serial.fdhandler) (h : m.Sound) {c : ClientId} {cl' : Client}
    {f : HandlerId} (hget : m'.clients.get? c = some cl') (hf : cl'.fdhandler = some f) :
    f ≠ m'.serial.fdhandler ∧
      ∀ c' cl', m'.clients.get? c' = some cl' → cl'.fdhandler = some f → c' = c := by
  obtain ⟨cl, hcl, hclf⟩ := hclients c cl' f hget hf
  obtain ⟨hne, hall⟩ := h.sole c cl f hcl hclf
  refine ⟨hline ▸ hne, fun c' cl₁ hget₁ hf₁ => ?_⟩
  obtain ⟨cl₂, hcl₂, hclf₂⟩ := hclients c' cl₁ f hget₁ hf₁
  exact hall c' cl₂ hcl₂ hclf₂

/-- Nothing happens to the handlers. -/
theorem quiet (events : List Event) (h : m.Sound) (hS : ∀ g, m.Owned g → S g)
    (hhandlers : m'.handlers = m.handlers) (hclients : Shrinks m.clients m'.clients)
    (hline : m'.serial.fdhandler = m.serial.fdhandler) (htrace : m'.trace = m.trace ++ events)
    (hevents : ∀ e ∈ events, e.queue = none) : Within S m m' where
  handler g _ := by rw [hhandlers]
  trace := ⟨events, htrace, fun e he g hg => by rw [hevents e he] at hg; cases hg⟩
  owned g hg := hS g (owned_of_shrinks hclients hline hg)
  next := by rw [hhandlers]
  sound := by
    have hnone : ∀ f, ∀ e ∈ events, f ∉ e.queue := fun f e he hf => by
      rw [hevents e he] at hf
      cases hf
    refine ⟨?_, ?_, ?_, ?_, fun c cl' f => sole_of_shrinks hclients hline h⟩
    · rw [htrace, hhandlers]
      intro e he f hf
      obtain he | he := List.mem_append.mp he
      · exact h.known e he f hf
      · exact absurd hf (hnone f e he)
    · intro f hd hget
      rw [hhandlers] at hget
      rw [htrace, queuedBytes_append, wroteBytes_append, queuedBytes_eq_nil (hnone f),
        wroteBytes_eq_nil (hnone f), List.append_nil, List.append_nil]
      exact h.fifo f hd hget
    · intro f hf
      rw [hhandlers]
      exact h.owned_lt f (owned_of_shrinks hclients hline hf)
    · grind [owned_of_shrinks, h.active]

/-- A handler in `S` changes as the events say. -/
theorem set {f : HandlerId} {hd : FDHandler} (hd' : FDHandler) (h : m.Sound)
    (hS : ∀ g, m.Owned g → S g) (hf : S f) {events : List Event} (hget : m.handlers.get? f = some hd)
    (hhandlers : m'.handlers = m.handlers.set f hd') (hclients : m'.clients = m.clients)
    (hline : m'.serial.fdhandler = m.serial.fdhandler) (htrace : m'.trace = m.trace ++ events)
    (hevents : ∀ e ∈ events, ∀ g ∈ e.queue, g = f) (hplaced : hd.Placed → hd'.Placed)
    (hpending : hd.Placed →
      hd.pending ++ queuedBytes f events = wroteBytes f events ++ hd'.pending)
    (hclosing : m.Owned f → hd.closing = false → hd'.closing = false) : Within S m m' := by
  have hshrinks : Shrinks m.clients m'.clients := hclients ▸ Shrinks.refl _
  have hget' : ∀ g, m'.handlers.get? g = if g = f then some hd' else m.handlers.get? g := fun g => by
    rw [hhandlers, Registry.get?_set, hget, Option.map_some]
  have hnext : m'.handlers.next = m.handlers.next := by
    rw [hhandlers]
    rfl
  refine ⟨fun g hg => ?_, ⟨events, htrace, fun e he g hge => hevents e he g hge ▸ hf⟩,
    fun g hg => hS g (owned_of_shrinks hshrinks hline hg), Nat.le_of_eq hnext.symm,
    ⟨?_, ?_, ?_, ?_, fun c cl' f => sole_of_shrinks hshrinks hline h⟩⟩
  · grind
  · rw [htrace, hnext]
    intro e he g hg
    obtain he | he := List.mem_append.mp he
    · exact h.known e he g hg
    · obtain rfl := hevents e he g hg
      exact Registry.lt_next_of_get? hget
  · intro g hd₁ hget₁
    rw [hget'] at hget₁
    rw [htrace, queuedBytes_append, wroteBytes_append]
    split at hget₁
    · rename_i hg
      obtain rfl := Option.some.inj hget₁
      grind [h.fifo]
    · rename_i hg
      have hnone : ∀ e ∈ events, g ∉ e.queue := fun e he hge => hg (hevents e he g hge)
      rw [queuedBytes_eq_nil hnone, wroteBytes_eq_nil hnone, List.append_nil, List.append_nil]
      exact h.fifo g hd₁ hget₁
  · intro g hg
    rw [hnext]
    exact h.owned_lt g (owned_of_shrinks hshrinks hline hg)
  · intro g hd₁ hg hget₁
    have howned := owned_of_shrinks hshrinks hline hg
    rw [hget'] at hget₁
    split at hget₁
    · rename_i hgf
      obtain rfl := Option.some.inj hget₁
      grind [h.active]
    · exact h.active g hd₁ howned hget₁

/-- A handler in `S` is freed. -/
theorem remove {f : HandlerId} (h : m.Sound) (hS : ∀ g, m.Owned g → S g) (hf : S f)
    (hhandlers : m'.handlers = m.handlers.remove f) (hclients : m'.clients = m.clients)
    (hline : m'.serial.fdhandler = m.serial.fdhandler) (htrace : m'.trace = m.trace) :
    Within S m m' := by
  have hshrinks : Shrinks m.clients m'.clients := hclients ▸ Shrinks.refl _
  have hget' : ∀ g, m'.handlers.get? g = if g = f then none else m.handlers.get? g := fun g => by
    rw [hhandlers, Registry.get?_remove]
  have hback : ∀ g hd, m'.handlers.get? g = some hd → m.handlers.get? g = some hd := by simp [hget']
  have hnext : m'.handlers.next = m.handlers.next := by
    rw [hhandlers]
    rfl
  refine ⟨fun g hg => ?_, ⟨[], by rw [htrace, List.append_nil], fun _ he => nomatch he⟩,
    fun g hg => hS g (owned_of_shrinks hshrinks hline hg), Nat.le_of_eq hnext.symm,
    ⟨?_, ?_, ?_, ?_, fun c cl' f => sole_of_shrinks hshrinks hline h⟩⟩
  · grind
  · rw [htrace, hnext]
    exact h.known
  · grind [h.fifo]
  · intro g hg
    rw [hnext]
    exact h.owned_lt g (owned_of_shrinks hshrinks hline hg)
  · grind [owned_of_shrinks, h.active]

end Within

end Multiplexer

end AndroidRenderer.Qemud
