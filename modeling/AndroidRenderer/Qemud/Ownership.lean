import AndroidRenderer.Qemud.Channels
import AndroidRenderer.Qemud.Queues

/-!
# Who owns a packet

A packet is free, or the one that the serial reader fills, or in the queue of one handler, or the
one whose bytes are being received. Every function that is given a packet passes it on or frees it.
Only a read of no bytes, from a connection that was closed, takes a packet and leaves it nowhere.
-/

namespace AndroidRenderer.Qemud

def packetsAt (addr : Nat) (ps : List Packet) : Nat := ps.countP fun p => p.addr = addr

@[simp] theorem packetsAt_nil (addr : Nat) : packetsAt addr [] = 0 := rfl

@[simp] theorem packetsAt_cons (addr : Nat) (p : Packet) (ps : List Packet) :
    packetsAt addr (p :: ps) = packetsAt addr [p] + packetsAt addr ps := by
  simp only [packetsAt, List.countP_cons, List.countP_nil]
  omega

@[simp] theorem packetsAt_append (addr : Nat) (ps qs : List Packet) :
    packetsAt addr (ps ++ qs) = packetsAt addr ps + packetsAt addr qs :=
  List.countP_append

theorem packetsAt_congr (addr : Nat) {p q : Packet} (h : p.addr = q.addr) :
    packetsAt addr [p] = packetsAt addr [q] := by
  simp only [packetsAt, List.countP_cons, h]

theorem packetsAt_self (p : Packet) : packetsAt p.addr [p] = 1 := by
  simp [packetsAt]

namespace PacketPool

variable {pool : PacketPool} {addr : Nat}

/-- Whether the packet at an address is free or not allocated yet. -/
def unused (pool : PacketPool) (addr : Nat) : Nat :=
  packetsAt addr pool.free + if pool.made ≤ addr then 1 else 0

theorem packetAlloc_unused : pool.packetAlloc.2.unused addr + packetsAt addr [pool.packetAlloc.1] =
    pool.unused addr := by
  unfold packetAlloc unused
  split
  · grind [packetsAt_cons, packetsAt_congr]
  · grind [packetsAt]

theorem packetFree_unused {p : Packet} :
    (pool.packetFree p).unused addr = pool.unused addr + packetsAt addr [p] := by
  unfold packetFree unused
  rw [packetsAt_cons]
  dsimp only
  omega

theorem foldl_packetFree_unused (ps : List Packet) :
    (ps.foldl PacketPool.packetFree pool).unused addr = pool.unused addr + packetsAt addr ps := by
  induction ps generalizing pool with
  | nil => rfl
  | cons p ps ih =>
      rw [List.foldl_cons, ih, packetFree_unused, packetsAt_cons addr p ps]
      omega

end PacketPool

/-- Where a packet can be. The callback that has one is `serial_fd_receive`. -/
inductive Place
  | free
  | reader
  | queue (f : HandlerId)
  | callback
  deriving DecidableEq, Repr

/-- The kernel answers a read with no bytes: the connection was closed. -/
def Label.emptyRead : Label → Bool
  | .read (some r) => r.bytes.isEmpty
  | _ => false

/-- The packet whose bytes are being received. -/
def Phase.received : Phase → List Packet
  | .receiving _ _ _ p _ => [p]
  | _ => []

namespace Multiplexer

variable {m m' : Multiplexer} {a : Nat}

/-- The packets in a place; between callbacks none is in a callback. -/
def packetsIn (m : Multiplexer) : Place → List Packet
  | .free => m.pool.free
  | .reader => [m.serial.inPacket]
  | .queue f => (m.handlers.get? f).elim [] FDHandler.out
  | .callback => m.phase.received

/-- Every packet that was ever allocated is in one place, and once there. -/
def OwnedOnce (m : Multiplexer) : Prop :=
  ∀ a < m.pool.made, ∃ place, packetsAt a (m.packetsIn place) = 1 ∧
    ∀ place', place' ≠ place → packetsAt a (m.packetsIn place') = 0

def NoEmptyRead (_ : Multiplexer) (label : Label) : Prop := label.emptyRead = false

/-! ## Counting -/

/-- The number of places of a packet, the heap included, but for the running callback. -/
def places (m : Multiplexer) (a : Nat) : Nat :=
  m.pool.unused a + packetsAt a [m.serial.inPacket] +
    m.handlers.sum fun h => packetsAt a h.out

/-- The number of all places of a packet. -/
def allPlaces (m : Multiplexer) (a : Nat) : Nat :=
  m.places a + packetsAt a (m.packetsIn .callback)

variable {f : HandlerId} {p : Packet} {c : ClientId} {events : Events} {label : Label}

theorem packetsIn_queue {h : FDHandler} (hget : m.handlers.get? f = some h) :
    m.packetsIn (.queue f) = h.out := by
  rw [packetsIn, hget]
  rfl

theorem allPlaces_eq (m : Multiplexer) (a : Nat) : m.allPlaces a =
    packetsAt a (m.packetsIn .free) + (if m.pool.made ≤ a then 1 else 0) +
      packetsAt a (m.packetsIn .reader) + (m.handlers.sum fun h => packetsAt a h.out) +
        packetsAt a (m.packetsIn .callback) :=
  rfl

/-- Two places count apart. -/
theorem add_le_allPlaces (m : Multiplexer) (a : Nat) {place place' : Place}
    (hne : place' ≠ place) :
    packetsAt a (m.packetsIn place) + packetsAt a (m.packetsIn place') ≤ m.allPlaces a := by
  have hall := m.allPlaces_eq a
  have hqueue : ∀ f, packetsAt a (m.packetsIn (.queue f)) ≤
      m.handlers.sum fun h => packetsAt a h.out := by
    intro f
    cases hget : m.handlers.get? f with
    | none => simp [packetsIn, hget]
    | some h =>
        have hsum := Registry.sum_remove hget fun h => packetsAt a h.out
        rw [packetsIn_queue hget]
        omega
  cases place with
  | queue f =>
      have hf := hqueue f
      cases place' with
      | queue f' =>
          have hf' := hqueue f'
          cases hget : m.handlers.get? f with
          | none => grind [packetsIn, packetsAt_nil]
          | some h =>
              cases hget' : m.handlers.get? f' with
              | none => grind [packetsIn, packetsAt_nil]
              | some h' =>
                  have hboth := Registry.add_le_sum hget hget' (fun heq => hne (heq ▸ rfl))
                    fun h => packetsAt a h.out
                  grind [packetsIn_queue]
      | _ => omega
  | _ =>
      cases place' with
      | queue f' =>
          have hf' := hqueue f'
          omega
      | _ => first | exact absurd rfl hne | omega

/-- A packet that was allocated and counts is somewhere. -/
theorem exists_place (hmade : a < m.pool.made) (hpos : 0 < m.allPlaces a) :
    ∃ place, 0 < packetsAt a (m.packetsIn place) := by
  rw [allPlaces_eq, if_neg (Nat.not_le.mpr hmade)] at hpos
  by_contra hnot
  have hnone : ∀ place, packetsAt a (m.packetsIn place) = 0 := fun place =>
    Nat.eq_zero_of_not_pos fun hplace => hnot ⟨place, hplace⟩
  rw [hnone, hnone, hnone] at hpos
  obtain ⟨f, h, hget, hqueued⟩ := Registry.exists_of_sum_pos
    (r := m.handlers) (f := fun h => packetsAt a h.out) (by omega)
  rw [← packetsIn_queue hget, hnone] at hqueued
  exact Nat.lt_irrefl 0 hqueued

theorem packetsAt_le_allPlaces (m : Multiplexer) (a : Nat) (place : Place) :
    packetsAt a (m.packetsIn place) ≤ m.allPlaces a := by
  by_cases hplace : place = .free
  · have hle := m.add_le_allPlaces a fun heq : Place.reader = place => nomatch heq.trans hplace
    omega
  · have hle := m.add_le_allPlaces a fun heq : Place.free = place => hplace heq.symm
    omega

theorem ownedOnce_of_allPlaces (h : ∀ a, m.allPlaces a = 1) : m.OwnedOnce := by
  intro a hmade
  have hone := h a
  obtain ⟨place, hpos⟩ := exists_place hmade (by omega)
  have hle := m.packetsAt_le_allPlaces a place
  refine ⟨place, by omega, fun place' hne => ?_⟩
  have hboth := m.add_le_allPlaces a hne
  omega

/-- A packet that does not count is nowhere. -/
theorem not_ownedOnce_of_allPlaces (hmade : a < m.pool.made) (h : m.allPlaces a = 0) :
    ¬m.OwnedOnce := by
  intro howned
  obtain ⟨place, hplace, -⟩ := howned a hmade
  have hle := m.packetsAt_le_allPlaces a place
  omega

/-! ## Handlers -/

theorem packetFree_places (m : Multiplexer) (p : Packet) :
    (m.packetFree p).places a = m.places a + packetsAt a [p] := by
  unfold places packetFree
  dsimp only
  rw [PacketPool.packetFree_unused]
  omega

theorem packetAlloc_places (m : Multiplexer) :
    ({ m with pool := m.pool.packetAlloc.2 } : Multiplexer).places a +
      packetsAt a [m.pool.packetAlloc.1] = m.places a := by
  have halloc := @PacketPool.packetAlloc_unused m.pool a
  unfold places
  dsimp only
  omega

theorem fdhandlerEnqueue_places (h : m.fdhandlerEnqueue f p = .ok m') :
    m'.places a = m.places a + packetsAt a [p] := by
  obtain ⟨hd, hget, heq⟩ := Run.bind_eq_ok.mp h
  rw [handler_eq_ok] at hget
  obtain rfl := Except.ok.inj heq
  have hsum := Registry.sum_set hget (hd.enqueue p) fun h => packetsAt a h.out
  have hqueue : packetsAt a (hd.enqueue p).out = packetsAt a hd.out + packetsAt a [p] :=
    packetsAt_append a hd.out [p]
  unfold places
  change m.pool.unused a + packetsAt a [m.serial.inPacket] +
    (m.handlers.set f (hd.enqueue p)).sum _ = _
  omega

theorem fdhandlerFinish_places (h : m.fdhandlerFinish f = .ok m') :
    m'.places a = m.places a := by
  obtain ⟨hd, hget, heq⟩ := Run.bind_eq_ok.mp h
  rw [handler_eq_ok] at hget
  obtain rfl := Except.ok.inj heq
  have hsum := Registry.sum_remove hget fun h => packetsAt a h.out
  have hfreed := @PacketPool.foldl_packetFree_unused m.pool a hd.out
  unfold places
  dsimp only
  omega

/-- A handler changes, and its queue stays. -/
theorem set_places {hd hd' : FDHandler} (hget : m.handlers.get? f = some hd)
    (hhandlers : m'.handlers = m.handlers.set f hd') (hpool : m'.pool = m.pool)
    (hserial : m'.serial = m.serial) (hout : hd'.out = hd.out) : m'.places a = m.places a := by
  have hsum := Registry.sum_set hget hd' fun h => packetsAt a h.out
  grind [places]

theorem fdhandlerShutdown_places (h : m.fdhandlerShutdown f = .ok m') :
    m'.places a = m.places a := by
  obtain ⟨hd, hget, heq⟩ := Run.bind_eq_ok.mp h
  rw [handler_eq_ok] at hget
  split at heq
  · obtain rfl := Except.ok.inj heq
    exact set_places hget rfl rfl rfl rfl
  · rw [fdhandlerFinish_places heq]
    exact set_places hget rfl rfl rfl rfl

/-! ## Sending on the serial line -/

theorem serialSend_places (h : m.serialSend p = .ok m') :
    m'.places a = m.places a + packetsAt a [p] := by
  obtain ⟨m₁, hheader, hpayload⟩ := Run.bind_eq_ok.mp h
  have halloc := @packetAlloc_places a m
  have hsame : packetsAt a [serialHeader m.pool.packetAlloc.1 p] =
      packetsAt a [m.pool.packetAlloc.1] := packetsAt_congr _ rfl
  have hfirst := fdhandlerEnqueue_places (a := a) hheader
  rw [fdhandlerEnqueue_places hpayload, hfirst, hsame]
  change ({ m with pool := m.pool.packetAlloc.2 } : Multiplexer).places a + _ + _ = _
  omega

theorem multiplexerOpenChannel_places {service : Packet} {channel : Int}
    (h : m.multiplexerOpenChannel service = .ok (m', channel)) :
    m'.places a = m.places a := by
  have halloc := @packetAlloc_places a m
  simp only [multiplexerOpenChannel] at h
  split at h
  · cases h
  · split at h
    · rename_i last free _ hlength
      obtain ⟨m₁, hsend, heq⟩ := Run.bind_eq_ok.mp h
      obtain ⟨rfl, -⟩ := Prod.mk.inj (Except.ok.inj heq)
      have hprinted : packetsAt a [(m.pool.packetAlloc.1.print _ hlength).withChannel
          CHANNEL_CONTROL] = packetsAt a [m.pool.packetAlloc.1] := packetsAt_congr _ rfl
      rw [serialSend_places hsend, hprinted]
      exact halloc
    · obtain ⟨rfl, -⟩ := Prod.mk.inj (Except.ok.inj h)
      rw [packetFree_places]
      exact halloc

theorem multiplexerCloseChannel_places {channel : Int}
    (h : m.multiplexerCloseChannel channel = .ok m') : m'.places a = m.places a := by
  have halloc := @packetAlloc_places a m
  simp only [multiplexerCloseChannel] at h
  rw [dif_pos (disconnectText_length channel)] at h
  have hprinted : packetsAt a [(m.pool.packetAlloc.1.print _
      (disconnectText_length channel)).withChannel CHANNEL_CONTROL] =
      packetsAt a [m.pool.packetAlloc.1] := packetsAt_congr _ rfl
  rw [serialSend_places h, hprinted]
  exact halloc

/-! ## Clients -/

theorem clientFree_places (h : m.clientFree c = .ok m') :
    m'.places a = m.places a := by
  obtain ⟨cl, -, heq⟩ := Run.bind_eq_ok.mp h
  cases hf : cl.fdhandler with
  | none =>
      rw [hf] at heq
      obtain rfl := Except.ok.inj heq
      rfl
  | some f =>
      rw [hf] at heq
      have hshutdown := fdhandlerShutdown_places (a := a) (show fdhandlerShutdown _ f = _ from heq)
      exact hshutdown

theorem clientFdReceive_places (h : m.clientFdReceive c p = .ok m') :
    m'.places a = m.places a + packetsAt a [p] := by
  obtain ⟨cl, -, heq⟩ := Run.bind_eq_ok.mp h
  split at heq
  · rw [serialSend_places heq]
    exact congrArg _ (packetsAt_congr _ rfl)
  split at heq
  · rw [clientFree_places heq, packetFree_places]
  · obtain ⟨⟨m₁, channel⟩, hopen, heq⟩ := Run.bind_eq_ok.mp heq
    rw [← multiplexerOpenChannel_places hopen]
    dsimp only at heq
    split at heq
    · rw [clientFree_places heq, packetFree_places]
      rfl
    · obtain rfl := Except.ok.inj heq
      rw [packetFree_places]
      rfl

theorem clientFdClose_places (h : m.clientFdClose c = .ok m') :
    m'.places a = m.places a := by
  obtain ⟨cl, -, heq⟩ := Run.bind_eq_ok.mp h
  obtain ⟨m₁, hclose, hfree⟩ := Run.bind_eq_ok.mp heq
  rw [clientFree_places hfree]
  split at hclose
  · have hcloses := multiplexerCloseChannel_places (a := a) hclose
    exact hcloses
  · obtain rfl := Except.ok.inj hclose
    rfl

theorem clientRegistration_places {registered : Bool}
    (h : m.clientRegistration c registered = .ok m') : m'.places a = m.places a := by
  obtain ⟨cl, -, heq⟩ := Run.bind_eq_ok.mp h
  cases hf : cl.fdhandler with
  | none =>
      rw [hf] at heq
      cases heq
  | some f =>
      rw [hf] at heq
      obtain ⟨m₁, hqueue, heq⟩ := Run.bind_eq_ok.mp heq
      obtain rfl := Except.ok.inj heq
      have halloc := @packetAlloc_places a m
      have hfilled : packetsAt a [m.pool.packetAlloc.1.fill (answerText registered)
          (answerText_length registered)] = packetsAt a [m.pool.packetAlloc.1] :=
        packetsAt_congr _ rfl
      have henqueue := fdhandlerEnqueue_places (a := a) hqueue
      rw [hfilled, halloc] at henqueue
      exact henqueue

theorem clientSend_places (h : m.clientSend c p = .ok m') :
    m'.places a = m.places a + packetsAt a [p] := by
  obtain ⟨cl, -, heq⟩ := Run.bind_eq_ok.mp h
  grind [fdhandlerEnqueue_places]

@[simp] theorem clientNew_places (m : Multiplexer) (fd : Nat) :
    (m.clientNew fd).places a = m.places a := by
  unfold places
  change _ + _ + Registry.sum (m.handlers.insert _) _ = _
  rw [Registry.sum_insert]
  dsimp only [packetsAt_nil]
  rw [Nat.zero_add]
  rfl

/-! ## Messages from the emulator -/

theorem multiplexerHandleControl_places (h : m.multiplexerHandleControl p = .ok m') :
    m'.places a = m.places a + packetsAt a [p] := by
  obtain ⟨m₁, hmessage, heq⟩ := Run.bind_eq_ok.mp h
  obtain rfl := Except.ok.inj heq
  rw [packetFree_places]
  refine congrArg (· + _) ?_
  split at hmessage
  · split at hmessage
    · exact clientRegistration_places hmessage
    · exact congrArg (places · a) (Except.ok.inj hmessage).symm
  · split at hmessage
    · exact clientRegistration_places hmessage
    · exact congrArg (places · a) (Except.ok.inj hmessage).symm
  · split at hmessage
    · exact clientFree_places hmessage
    · exact congrArg (places · a) (Except.ok.inj hmessage).symm
  · exact congrArg (places · a) (Except.ok.inj hmessage).symm

theorem multiplexerSerialReceive_places (h : m.multiplexerSerialReceive p = .ok m') :
    m'.places a = m.places a + packetsAt a [p] := by
  simp only [multiplexerSerialReceive] at h
  split at h
  · have hcontrol := multiplexerHandleControl_places (a := a) h
    exact hcontrol
  · split at h
    · have hsend := clientSend_places (a := a) h
      exact hsend
    · obtain rfl := Except.ok.inj h
      exact packetFree_places _ _

/-! ## Closing -/

theorem receiverClose_places (h : m.receiverClose f = .ok m') :
    m'.places a = m.places a := by
  obtain ⟨hd, -, heq⟩ := Run.bind_eq_ok.mp h
  obtain ⟨m₁, hclose, heq⟩ := Run.bind_eq_ok.mp heq
  obtain ⟨hd', hget, heq⟩ := Run.bind_eq_ok.mp heq
  rw [handler_eq_ok] at hget
  obtain rfl := Except.ok.inj heq
  have hclosed : m₁.places a = m.places a := by
    split at hclose
    · grind [clientFdClose_places]
    · exact congrArg (places · a) (Except.ok.inj hclose).symm
  grind [set_places]

theorem fdhandlerClose_places (h : m.fdhandlerClose f = .ok m') :
    m'.places a = m.places a := by
  obtain ⟨m₁, hclose, hfinish⟩ := Run.bind_eq_ok.mp h
  rw [fdhandlerFinish_places hfinish, receiverClose_places hclose]

/-! ## Events -/

theorem allPlaces_eq_places (hphase : m.phase.received = []) : m.allPlaces a = m.places a := by
  rw [allPlaces, packetsIn, hphase, packetsAt_nil, Nat.add_zero]

theorem readEvent_places {n : Nat} {result : Option Read}
    (h : m.readEvent n f events result = .ok m') :
    m'.allPlaces a + (if (Label.read result).emptyRead then packetsAt a [m.pool.packetAlloc.1] else 0) =
      m.places a := by
  obtain ⟨hd, -, heq⟩ := Run.bind_eq_ok.mp h
  have halloc := @packetAlloc_places a m
  cases result with
  | none =>
      obtain rfl := Except.ok.inj heq
      rw [allPlaces_eq_places rfl, packetFree_places]
      exact halloc
  | some r =>
      dsimp only at heq
      split at heq
      · rename_i hempty
        obtain rfl := Except.ok.inj heq
        have hread : (Label.read (some r)).emptyRead = true := hempty
        rw [hread, if_pos rfl, allPlaces_eq_places rfl]
        exact halloc
      · rename_i hempty
        have hfilled : packetsAt a [(m.pool.packetAlloc.1.fill r.bytes r.length_le).withChannel (-101)] =
            packetsAt a [m.pool.packetAlloc.1] := packetsAt_congr _ rfl
        have hread : (Label.read (some r)).emptyRead = false := Bool.eq_false_of_not_eq_true hempty
        rw [hread, if_neg Bool.false_ne_true, Nat.add_zero, ← halloc, ← hfilled]
        split at heq
        · split at heq
          · obtain rfl := Except.ok.inj heq
            rfl
          · have hphase := (clientFdReceive_effect heq).phase
            rw [allPlaces_eq_places (congrArg Phase.received hphase), clientFdReceive_places heq]
            rfl
          · cases heq
        · obtain rfl := Except.ok.inj heq
          rw [allPlaces_eq_places rfl, packetFree_places]
          rfl

theorem acceptEvent_places {n : Nat} {result : Option Nat}
    (h : m.acceptEvent n f events result = .ok m') : m'.allPlaces a = m.places a := by
  obtain ⟨hd, -, heq⟩ := Run.bind_eq_ok.mp h
  have halloc := @packetAlloc_places a m
  cases result with
  | none =>
      obtain rfl := Except.ok.inj heq
      rw [allPlaces_eq_places rfl]
      exact (packetFree_places _ _).trans halloc
  | some fd =>
      dsimp only at heq
      split at heq
      · cases heq
      · split at heq
        · split at heq
          · obtain rfl := Except.ok.inj heq
            rw [allPlaces_eq_places rfl, multiplexerControlAccept,
              packetFree_places, clientNew_places]
            exact halloc
          · cases heq
        · obtain rfl := Except.ok.inj heq
          rw [allPlaces_eq_places rfl]
          exact (packetFree_places _ _).trans halloc

theorem writeEvent_places {hd : FDHandler} {out : List Packet}
    {result : Option Nat} (hget : m.handlers.get? f = some hd) (hout : hd.out = p :: out)
    (h : m.writeEvent f hd p out result = .ok m') :
    m'.places a = m.places a ∧ m'.phase = m.phase := by
  cases result with
  | none =>
      obtain rfl := Except.ok.inj h
      exact ⟨rfl, rfl⟩
  | some len =>
      simp only [writeEvent] at h
      split at h
      · cases h
      · split at h
        · obtain rfl := Except.ok.inj h
          refine ⟨?_, rfl⟩
          grind [places, packetFree_places, packetsAt_cons, Registry.sum_set]
        · obtain rfl := Except.ok.inj h
          exact ⟨set_places hget rfl rfl rfl rfl, rfl⟩

theorem finishEvent_places {n : Nat} {func : EventFunc}
    (h : m.finishEvent n func f events label = .ok m') :
    label.emptyRead = false ∧ m'.allPlaces a = m.places a := by
  simp only [finishEvent] at h
  split at h
  · split at h
    · have hclose := fdhandlerClose_places (a := a) h
      rw [allPlaces_eq_places (congrArg Phase.received (fdhandlerClose_effect h).phase), hclose]
      exact ⟨rfl, rfl⟩
    · cases h
  · split at h
    · obtain ⟨hd, hget, heq⟩ := Run.bind_eq_ok.mp h
      rw [handler_eq_ok] at hget
      split at heq
      · obtain rfl := Except.ok.inj heq
        exact ⟨rfl, allPlaces_eq_places rfl⟩
      · rename_i hout
        obtain ⟨hwrite, hphase⟩ := writeEvent_places (a := a) hget hout heq
        rw [allPlaces_eq_places (congrArg Phase.received hphase), hwrite]
        exact ⟨rfl, rfl⟩
      · cases heq
    · split at h
      · obtain rfl := Except.ok.inj h
        exact ⟨rfl, allPlaces_eq_places rfl⟩
      · cases h

theorem hookEvent_places {n : Nat} {hook : LoopHook}
    (h : m.hookEvent n hook label = .ok m') :
    m'.allPlaces a + (if label.emptyRead then packetsAt a [m.pool.packetAlloc.1] else 0) =
      m.places a := by
  simp only [hookEvent] at h
  split at h
  · have hread := readEvent_places (a := a) h
    exact hread
  · have haccept := acceptEvent_places (a := a) h
    exact haccept
  · obtain rfl := Except.ok.inj h
    exact allPlaces_eq_places rfl
  · cases h

theorem receiveTurn_addr {s s' : Serial} {unread unread' : List UInt8} {inp : Option Packet}
    (h : s.receiveTurn unread = some (s', inp, unread')) :
    s'.inPacket.addr = s.inPacket.addr ∧ ∀ p ∈ inp, p.addr = s.inPacket.addr := by
  simp only [Serial.receiveTurn] at h
  split at h
  · split at h
    · grind
    split at h
    · obtain ⟨rfl, rfl, -⟩ := Prod.mk.inj (Option.some.inj h) |>.imp_right Prod.mk.inj
      exact ⟨rfl, fun p hp => by cases hp⟩
    split at h
    · obtain ⟨rfl, rfl, -⟩ := Prod.mk.inj (Option.some.inj h) |>.imp_right Prod.mk.inj
      exact ⟨rfl, fun p hp => by cases hp⟩
    · obtain ⟨rfl, rfl, -⟩ := Prod.mk.inj (Option.some.inj h) |>.imp_right Prod.mk.inj
      refine ⟨rfl, fun p hp => ?_⟩
      grind
  · cases h

theorem receiveTurn_places {n : Nat}
    {unread : List UInt8} (h : m.receiveTurn n f events p unread = .ok m') :
    m'.allPlaces a = m.places a + packetsAt a [p] := by
  unfold receiveTurn at h
  split at h
  · obtain rfl := Except.ok.inj h
    rw [allPlaces_eq_places rfl]
    exact packetFree_places m p
  · split at h
    · cases h
    · rename_i serial unread' hturn
      obtain rfl := Except.ok.inj h
      grind [allPlaces, places, packetsIn, Phase.received, packetsAt_congr, receiveTurn_addr]
    · rename_i serial inp unread' hturn
      obtain ⟨hserial, hinp⟩ := receiveTurn_addr hturn
      obtain ⟨m₁, hreceive, heq⟩ := Run.bind_eq_ok.mp h
      obtain rfl := Except.ok.inj heq
      have hserial₁ := (multiplexerSerialReceive_effect hreceive).serial
      have hplaces := multiplexerSerialReceive_places (a := a) hreceive
      have halloc := @PacketPool.packetAlloc_unused m₁.pool a
      -- the packet that is handed on is the one that is still in `in_packet`
      have hold := packetsAt_congr a hserial
      grind [allPlaces, places, packetsIn, Phase.received, packetsAt_congr]

/-- A step keeps the places of every packet but one into which no bytes are read. -/
theorem step_places (h : m.step label = .ok m') :
    m'.allPlaces a + (if label.emptyRead then packetsAt a [m.pool.packetAlloc.1] else 0) =
      m.allPlaces a := by
  cases step_cases h with
  | wait hphase =>
      rw [allPlaces_eq_places (m := m) (by rw [hphase]; rfl)]
      exact allPlaces_eq_places rfl
  | skip hphase =>
      rw [allPlaces_eq_places (m := m) (by rw [hphase]; rfl)]
      exact allPlaces_eq_places rfl
  | hook hphase _ _ hevent =>
      rw [allPlaces_eq_places (m := m) (by rw [hphase]; rfl)]
      exact hookEvent_places hevent
  | sweep hphase =>
      rw [allPlaces_eq_places (m := m) (by rw [hphase]; rfl)]
      exact allPlaces_eq_places rfl
  | receive hphase hturn =>
      have hreceived : m.packetsIn .callback = _ := congrArg Phase.received hphase
      rw [allPlaces, allPlaces, hreceived]
      exact receiveTurn_places hturn
  | finish hphase hevent =>
      obtain ⟨hlabel, hplaces⟩ := finishEvent_places (a := a) hevent
      rw [allPlaces_eq_places (m := m) (by rw [hphase]; rfl), hlabel]
      exact hplaces

/-! ## Runs -/

theorem multiplexerInit_allPlaces (heap : Nat → Buffer UInt8 MAX_PAYLOAD) (fd controlFd a : Nat) :
    (multiplexerInit heap fd controlFd).allPlaces a = 1 := by
  have halloc := @PacketPool.packetAlloc_unused ⟨[], 0, heap⟩ a
  have hnew : PacketPool.unused ⟨[], 0, heap⟩ a = 1 := by
    rw [PacketPool.unused, packetsAt_nil, if_pos (Nat.zero_le a)]
  rw [hnew] at halloc
  exact halloc

theorem packetAlloc_made (h : ∀ a, m.allPlaces a = 1) :
    m.pool.packetAlloc.1.addr < m.pool.packetAlloc.2.made := by
  unfold PacketPool.packetAlloc
  split
  · rename_i p free hfree
    dsimp only
    have hone := h p.addr
    have hself := packetsAt_self p
    have hcons := packetsAt_cons p.addr p free
    unfold allPlaces places PacketPool.unused at hone
    grind
  · exact Nat.lt_succ_self _

/-- A read with no bytes takes a packet. -/
theorem step_emptyRead (hread : label.emptyRead = true)
    (hstep : m.step label = .ok m') : m'.pool = m.pool.packetAlloc.2 := by
  cases step_cases hstep with
  | wait | skip | sweep | receive => cases hread
  | finish _ hevent => cases hread.symm.trans (finishEvent_places (a := 0) hevent).1
  | hook _ _ _ hevent =>
      simp only [hookEvent] at hevent
      split at hevent
      · rename_i result _ _
        obtain ⟨hd, -, heq⟩ := Run.bind_eq_ok.mp hevent
        cases result with
        | none => cases hread
        | some r =>
            dsimp only at heq
            rw [if_pos (show r.bytes.isEmpty = true from hread)] at heq
            obtain rfl := Except.ok.inj heq
            rfl
      · cases hread
      · cases hread
      · cases hevent

theorem step_ownedOnce_iff (h : ∀ a, m.allPlaces a = 1)
    (hstep : m.step label = .ok m') : m'.OwnedOnce ↔ label.emptyRead = false := by
  constructor
  · intro howned
    by_contra hread
    rw [Bool.not_eq_false] at hread
    have hplaces := step_places (a := m.pool.packetAlloc.1.addr) hstep
    rw [hread, if_pos rfl, packetsAt_self, h] at hplaces
    refine not_ownedOnce_of_allPlaces ?_ (Nat.add_right_cancel hplaces) howned
    rw [step_emptyRead hread hstep]
    exact packetAlloc_made h
  · intro hread
    refine ownedOnce_of_allPlaces fun a => ?_
    have hplaces := step_places (a := a) hstep
    rwa [hread, if_neg Bool.false_ne_true, Nat.add_zero, h] at hplaces

/-- In every run without reads of no bytes every packet is in one place, and the next step leaves
every packet in one place if and only if it is no such read either. -/
theorem packets_owned (heap : Nat → Buffer UInt8 MAX_PAYLOAD) (fd controlFd : Nat) (m : Multiplexer)
    (hreach : Run.Reach step NoEmptyRead (multiplexerInit heap fd controlFd) m) :
    m.OwnedOnce ∧ ∀ label m', m.step label = .ok m' → (m'.OwnedOnce ↔ m.NoEmptyRead label) := by
  have hplaces : ∀ a, m.allPlaces a = 1 := by
    refine hreach.invariant (I := fun m => ∀ a, m.allPlaces a = 1)
      (multiplexerInit_allPlaces heap fd controlFd) fun t label u ht hread hstep a => ?_
    have hnext := step_places (a := a) hstep
    rwa [show label.emptyRead = false from hread, if_neg Bool.false_ne_true, Nat.add_zero, ht] at hnext
  exact ⟨ownedOnce_of_allPlaces hplaces, fun label m' => step_ownedOnce_iff hplaces⟩

/-- A client asks for a service and is accepted. -/
theorem packets_owned_accepted :
    ∃ m : Multiplexer, m.clients.get? 0 = some ⟨1, true, some 2⟩ ∧ m.OwnedOnce := by
  have hrun : Run.check step (fun _ label => !label.emptyRead)
      (fun m => m.clients.get? 0 = some ⟨1, true, some 2⟩) start
      (acceptClient ++ requestService ++ acceptService 1) = true := by
    decide +kernel
  have hsound : ∀ m label, (!label.emptyRead) = true → NoEmptyRead m label :=
    fun _ _ => Bool.not_eq_eq_eq_not.mp
  obtain ⟨m, hreach, htest⟩ := Run.exists_reach_of_check hsound hrun
  exact ⟨m, of_decide_eq_true htest, (packets_owned (fun _ => zeroData) 3 4 m hreach).1⟩

/-- The loop waits, and the packet at an address that was allocated is nowhere. -/
def leaksTest (a : Nat) (m : Multiplexer) : Bool :=
  match m.phase with
  | .waiting => decide (a < m.pool.made) && m.allPlaces a == 0
  | _ => false

/-- A client hangs up, and the packet for its last bytes is lost. -/
theorem closedConnection_leaks :
    ∃ m, Run.Reach step (fun _ _ => True) (multiplexerInit (fun _ => zeroData) 3 4) m ∧
      m.phase = .waiting ∧ ¬m.OwnedOnce := by
  have hrun : Run.check step (fun _ _ => true) (leaksTest 1) start
      (acceptClient ++ [.wait [(5, ⟨true, false, true, false⟩)], .tick, .tick,
        .read (some ⟨[], by decide⟩), .tick, .tick]) = true := by
    decide +kernel
  obtain ⟨m, hreach, htest⟩ := Run.exists_reach_of_check (fun _ _ _ => trivial) hrun
  unfold leaksTest at htest
  split at htest
  · rename_i hphase
    rw [Bool.and_eq_true, decide_eq_true_eq, beq_iff_eq] at htest
    exact ⟨m, hreach, hphase, not_ownedOnce_of_allPlaces htest.1 htest.2⟩
  · cases htest

end Multiplexer

end AndroidRenderer.Qemud
