import AndroidRenderer.Lib.Run

/-!
# The threads of the render server

`RenderServer::Main` serves each connection in a thread of its own and keeps the threads in a set,
out of which it takes those that are finished. An object keeps its number when it is deleted, and
no other object gets it; a call of a method of a deleted object is a fault.
-/

namespace AndroidRenderer.OpenglRender.RenderServer

abbrev RenderThreadPtr := Nat
abbrev StreamPtr := Nat

def IOSTREAM_CLIENT_EXIT_SERVER : UInt32 := 1

/-- What happens while a connection is accepted: the flags, unless they cannot be read, the results
of `RenderThread::create` and `start`, and which threads are finished when they are asked. -/
structure Connection where
  clientFlags : Option UInt32
  create : Bool
  start : Bool
  isFinished : RenderThreadPtr → Bool

inductive ThreadFault
  | null
  | deleted
  deriving DecidableEq, Repr

/-- The set, in some order, and the objects: how many streams and threads there have been, which
threads were started, and everything that was deleted. -/
structure Server where
  threads : List RenderThreadPtr
  m_exiting : Bool
  accepted : Nat
  deletedStreams : List StreamPtr
  created : Nat
  started : List RenderThreadPtr
  deletedThreads : List RenderThreadPtr
  deriving DecidableEq, Repr

namespace Server

def new : Server := ⟨[], false, 0, [], 0, [], []⟩

def Live (s : Server) (p : RenderThreadPtr) : Prop := p < s.created ∧ p ∉ s.deletedThreads

instance (s : Server) (p : RenderThreadPtr) : Decidable (s.Live p) :=
  inferInstanceAs (Decidable (_ ∧ _))

def call (s : Server) : Option RenderThreadPtr → Except ThreadFault Unit
  | none => .error .null
  | some p => if s.Live p then .ok () else .error .deleted

/-- A stream is accepted; it is the last one. -/
def accept (s : Server) : Server := { s with accepted := s.accepted + 1 }

def deleteStream (s : Server) (stream : StreamPtr) : Server :=
  { s with deletedStreams := s.deletedStreams ++ [stream] }

def deleteThread (s : Server) (p : RenderThreadPtr) : Server :=
  { s with deletedThreads := s.deletedThreads ++ [p] }

/-- `RenderThread::create` -/
def createThread (s : Server) : Server × RenderThreadPtr :=
  ({ s with created := s.created + 1 }, s.created)

/-- `start` -/
def startThread (s : Server) (p : RenderThreadPtr) : Server :=
  { s with started := s.started ++ [p] }

def erase (s : Server) (p : RenderThreadPtr) : Server := { s with threads := s.threads.erase p }

def insert (s : Server) (p : RenderThreadPtr) : Server := { s with threads := s.threads.insert p }

/-- A turn of the loop over the set. -/
def removeIfFinished (isFinished : RenderThreadPtr → Bool) (s : Server) (t : RenderThreadPtr) :
    Except ThreadFault Server := do
  s.call (some t)
  if isFinished t then .ok ((s.deleteThread t).erase t) else .ok s

def removeFinished (isFinished : RenderThreadPtr → Bool) (s : Server) :
    Except ThreadFault Server :=
  s.threads.foldlM (removeIfFinished isFinished) s

/-- What follows `create`: the thread is started or deleted, and inserted after that. -/
def serve (s : Server) (c : Connection) (stream : StreamPtr) (rt : Option RenderThreadPtr) :
    Except ThreadFault Server := do
  s.call rt
  let p := rt.getD 0
  let s := if c.start then s.startThread p else (s.deleteStream stream).deleteThread p
  let s ← s.removeFinished c.isFinished
  .ok (s.insert p)

/-- A turn of the loop over the connections; after `IOSTREAM_CLIENT_EXIT_SERVER` there are none. -/
def turn (s : Server) (c : Connection) : Except ThreadFault Server :=
  if s.m_exiting then .ok s
  else
    let stream := s.accepted
    let s := s.accept
    match c.clientFlags with
    | none => .ok (s.deleteStream stream)
    | some clientFlags =>
        if clientFlags &&& IOSTREAM_CLIENT_EXIT_SERVER ≠ 0 then .ok { s with m_exiting := true }
        else if c.create then s.createThread.1.serve c stream s.createThread.2
        else (s.deleteStream stream).serve c stream none

/-- A turn of the last loop. -/
def waitFor (s : Server) (t : RenderThreadPtr) : Except ThreadFault Server := do
  s.call (some t)
  .ok (s.deleteThread t)

/-- What follows the loop over the connections. -/
def finish (s : Server) : Except ThreadFault Server := do
  let s ← s.threads.foldlM waitFor s
  .ok { s with threads := [] }

end Server

/-- The connections come one after another; then none is accepted any more. -/
def main (s : Server) (connections : List Connection) : Except ThreadFault Server := do
  let s ← connections.foldlM Server.turn s
  s.finish

/-! ## Sound states -/

namespace Server

def ThreadsLive (s : Server) : Prop := ∀ t ∈ s.threads, s.Live t ∧ t ∈ s.started

/-- The threads of the set live, and so do those that `Main` holds besides; all others are deleted
once, and numbers of streams and threads are used once. -/
structure Sound (held : List RenderThreadPtr) (s : Server) : Prop where
  nodup : s.threads.Nodup
  apart : ∀ t ∈ held, t ∉ s.threads
  started : ∀ t ∈ s.threads, t ∈ s.started
  created : ∀ t ∈ s.threads, t < s.created
  once : ∀ t < s.created, s.deletedThreads.count t = if t ∈ s.threads ∨ t ∈ held then 0 else 1
  deleted : ∀ t ∈ s.deletedThreads, t < s.created
  streams : ∀ x ∈ s.deletedStreams, x < s.accepted

theorem new_sound : Sound [] new := by
  constructor <;> simp [new]

variable {held : List RenderThreadPtr} {s s' : Server} {t p : RenderThreadPtr}

theorem Sound.live (h : s.Sound held) (ht : t ∈ s.threads) : s.Live t := by
  refine ⟨h.created t ht, ?_⟩
  have hcount := h.once t (h.created t ht)
  grind

theorem Sound.threadsLive (h : s.Sound held) : s.ThreadsLive :=
  fun t ht => ⟨h.live ht, h.started t ht⟩

theorem call_live (h : s.Live p) : s.call (some p) = .ok () := if_pos h

/-- A thread leaves the set when it is deleted. -/
theorem Sound.remove (h : s.Sound held) (ht : t ∈ s.threads) :
    ((s.deleteThread t).erase t).Sound held := by
  have hmem (u : RenderThreadPtr) : u ∈ s.threads.erase t ↔ u ≠ t ∧ u ∈ s.threads :=
    h.nodup.mem_erase_iff
  have hheld : t ∉ held := fun hin => h.apart t hin ht
  constructor
  · exact h.nodup.erase t
  · exact fun u hu hin => h.apart u hu ((hmem u).mp hin).2
  · exact fun u hu => h.started u ((hmem u).mp hu).2
  · exact fun u hu => h.created u ((hmem u).mp hu).2
  · intro u hu
    have honce := h.once u hu
    simp only [erase, deleteThread, List.count_append, hmem]
    grind
  · intro u hu
    obtain hu | hu := List.mem_append.mp hu
    · exact h.deleted u hu
    · obtain rfl := List.mem_singleton.mp hu
      exact h.created _ ht
  · exact h.streams

/-- Loops over the set touch only its threads. -/
structure Frame (s s' : Server) : Prop where
  m_exiting : s'.m_exiting = s.m_exiting
  accepted : s'.accepted = s.accepted
  deletedStreams : s'.deletedStreams = s.deletedStreams
  created : s'.created = s.created
  started : s'.started = s.started
  deleted : ∀ u ∈ s.deletedThreads, u ∈ s'.deletedThreads

theorem Frame.refl (s : Server) : Frame s s := ⟨rfl, rfl, rfl, rfl, rfl, fun _ h => h⟩

theorem Frame.deleteThread (h : Frame s s') : Frame s (s'.deleteThread t) :=
  ⟨h.m_exiting, h.accepted, h.deletedStreams, h.created, h.started,
    fun u hu => List.mem_append_left _ (h.deleted u hu)⟩

theorem Frame.erase (h : Frame s s') : Frame s (s'.erase t) :=
  ⟨h.m_exiting, h.accepted, h.deletedStreams, h.created, h.started, h.deleted⟩

theorem removeFinished_frame {isFinished : RenderThreadPtr → Bool}
    (h : s.removeFinished isFinished = .ok s') : Frame s s' := by
  apply Run.foldlM_invariant (I := Frame s) _ (Frame.refl s) h
  intro s₁ t s₂ hframe hturn
  obtain ⟨_, -, hturn⟩ := Run.bind_eq_ok.mp hturn
  grind [hframe.deleteThread.erase]

/-- The loop over a part of the set. -/
theorem removeLoop_sound {isFinished : RenderThreadPtr → Bool} (ts : List RenderThreadPtr)
    (hs : s.Sound held) (hnodup : ts.Nodup) (hts : ∀ t ∈ ts, t ∈ s.threads) :
    ∃ s', ts.foldlM (removeIfFinished isFinished) s = .ok s' ∧ s'.Sound held ∧
      ∀ u ∈ s'.threads, u ∈ s.threads := by
  induction ts generalizing s with
  | nil => exact ⟨s, rfl, hs, fun _ h => h⟩
  | cons t ts ih =>
      obtain ⟨hnotin, hnodup⟩ := List.nodup_cons.mp hnodup
      have ht := hts t List.mem_cons_self
      have hrest : ∀ u ∈ ts, u ∈ s.threads := fun u hu => hts u (List.mem_cons_of_mem _ hu)
      have hturn : removeIfFinished isFinished s t =
          if isFinished t then .ok ((s.deleteThread t).erase t) else .ok s := by
        rw [removeIfFinished, call_live (hs.live ht)]
        rfl
      rw [List.foldlM_cons, hturn]
      split
      · have hin : ∀ u ∈ ts, u ∈ ((s.deleteThread t).erase t).threads := by
          intro u hu
          apply hs.nodup.mem_erase_iff.mpr
          exact ⟨fun heq => hnotin (heq ▸ hu), hrest u hu⟩
        obtain ⟨s', hloop, hsound, hsub⟩ := ih (hs.remove ht) hnodup hin
        exact ⟨s', hloop, hsound, fun u hu => List.mem_of_mem_erase (hsub u hu)⟩
      · exact ih hs hnodup hrest

theorem Sound.removeFinished (hs : s.Sound held) (isFinished : RenderThreadPtr → Bool) :
    ∃ s', s.removeFinished isFinished = .ok s' ∧ s'.Sound held ∧ ∀ u ∈ s'.threads, u ∈ s.threads :=
  removeLoop_sound s.threads hs hs.nodup fun _ h => h

/-! ## One connection -/

theorem Sound.create (h : s.Sound []) : s.createThread.1.Sound [s.created] := by
  have hfresh : s.created ∉ s.deletedThreads := fun hin => Nat.lt_irrefl _ (h.deleted _ hin)
  have hnew : s.created ∉ s.threads := fun hin => Nat.lt_irrefl _ (h.created _ hin)
  constructor
  · exact h.nodup
  · intro t ht
    obtain rfl := List.mem_singleton.mp ht
    exact hnew
  · exact h.started
  · exact fun t ht => Nat.lt_succ_of_lt (h.created t ht)
  · intro t ht
    obtain hlt | rfl := Nat.lt_succ_iff_lt_or_eq.mp ht
    · have hne : t ∉ [s.created] := fun hin => absurd (List.mem_singleton.mp hin) (Nat.ne_of_lt hlt)
      have honce := h.once t hlt
      simp only [List.not_mem_nil, or_false] at honce
      simp only [createThread, hne, or_false]
      exact honce
    · rw [if_pos (.inr (List.mem_singleton.mpr rfl))]
      exact List.count_eq_zero.mpr hfresh
  · exact fun t ht => Nat.lt_succ_of_lt (h.deleted t ht)
  · exact h.streams

theorem Sound.start (h : s.Sound held) (p : RenderThreadPtr) : (s.startThread p).Sound held :=
  ⟨h.nodup, h.apart, fun t ht => List.mem_append_left _ (h.started t ht), h.created, h.once,
    h.deleted, h.streams⟩

/-- A thread that is held is put into the set. -/
theorem Sound.insert (h : s.Sound [p]) (hstarted : p ∈ s.started) (hcreated : p < s.created) :
    (s.insert p).Sound [] := by
  have hnew : p ∉ s.threads := h.apart p (List.mem_singleton.mpr rfl)
  have hthreads : (s.insert p).threads = p :: s.threads := List.insert_of_not_mem hnew
  constructor
  · grind [h.nodup]
  · exact fun _ hin => absurd hin List.not_mem_nil
  · rw [hthreads]
    intro t ht
    obtain rfl | ht := List.mem_cons.mp ht
    · exact hstarted
    · exact h.started t ht
  · rw [hthreads]
    intro t ht
    obtain rfl | ht := List.mem_cons.mp ht
    · exact hcreated
    · exact h.created t ht
  · intro t ht
    have hmem : t ∈ (s.insert p).threads ∨ t ∈ [] ↔ t ∈ s.threads ∨ t ∈ [p] := by grind
    simp only [hmem]
    exact h.once t ht
  · exact h.deleted
  · exact h.streams

end Server

namespace Connection

def exits (c : Connection) : Bool :=
  c.clientFlags.any fun clientFlags => clientFlags &&& IOSTREAM_CLIENT_EXIT_SERVER != 0

/-- If there is a thread to serve it, that is created and started. -/
def Good (c : Connection) : Prop :=
  c.clientFlags.isSome → c.exits = false → c.create = true ∧ c.start = true

end Connection

namespace Server

variable {s s' : Server} {c : Connection}

theorem turn_unread (hs : s.m_exiting = false) (hc : c.clientFlags = none) :
    s.turn c = .ok (s.accept.deleteStream s.accepted) := by
  rw [turn, hs, hc]
  rfl

theorem turn_exit (hs : s.m_exiting = false) (hc : c.exits = true) :
    s.turn c = .ok { s.accept with m_exiting := true } := by
  rw [Connection.exits] at hc
  cases hflags : c.clientFlags with
  | none => grind
  | some flags =>
      rw [hflags, Option.any_some, bne_iff_ne] at hc
      grind [turn]

theorem turn_serve (hs : s.m_exiting = false) (hflags : c.clientFlags.isSome)
    (hc : c.exits = false) :
    s.turn c =
      if c.create then s.accept.createThread.1.serve c s.accepted s.accept.createThread.2
      else (s.accept.deleteStream s.accepted).serve c s.accepted none := by
  obtain ⟨flags, heq⟩ := Option.isSome_iff_exists.mp hflags
  rw [Connection.exits, heq, Option.any_some, bne_eq_false_iff_eq] at hc
  grind [turn]

theorem serve_null (s : Server) (c : Connection) (stream : StreamPtr) :
    s.serve c stream none = .error .null := rfl

/-- A thread that is started is served after the finished ones are removed. -/
theorem Sound.serve (h : s.Sound []) (hstart : c.start = true) (stream : StreamPtr) :
    ∃ s', s.createThread.1.serve c stream s.createThread.2 = .ok s' ∧ s'.Sound [] ∧
      s'.m_exiting = s.m_exiting ∧ s'.accepted = s.accepted ∧
      s'.deletedStreams = s.deletedStreams := by
  obtain ⟨s₁, hremove, hsound, -⟩ := (h.create.start s.created).removeFinished c.isFinished
  have hframe := removeFinished_frame hremove
  have hlive : s.createThread.1.Live s.created :=
    ⟨Nat.lt_succ_self _, fun hin => Nat.lt_irrefl _ (h.deleted _ hin)⟩
  refine ⟨s₁.insert s.created, ?_, ?_, hframe.m_exiting, hframe.accepted, hframe.deletedStreams⟩
  · rw [Server.serve, hstart]
    change (s.createThread.1.call (some s.created) >>= fun _ =>
      (s.createThread.1.startThread s.created).removeFinished c.isFinished >>= fun s₁ =>
        .ok (s₁.insert s.created)) = _
    rw [call_live hlive, hremove]
    rfl
  · apply hsound.insert
    · rw [hframe.started]
      exact List.mem_append_right _ (List.mem_singleton.mpr rfl)
    · rw [hframe.created]
      exact Nat.lt_succ_self _

theorem Sound.accept (h : s.Sound []) : s.accept.Sound [] :=
  ⟨h.nodup, h.apart, h.started, h.created, h.once, h.deleted,
    fun x hx => Nat.lt_succ_of_lt (h.streams x hx)⟩

/-- A good connection keeps all in order. -/
theorem Sound.turn (h : s.Sound []) (hs : s.m_exiting = false) (hc : c.Good) :
    ∃ s', s.turn c = .ok s' ∧ s'.Sound [] ∧ s'.m_exiting = c.exits := by
  cases hflags : c.clientFlags with
  | none =>
      refine ⟨_, turn_unread hs hflags, ?_, ?_⟩
      · refine ⟨h.nodup, h.apart, h.started, h.created, h.once, h.deleted, ?_⟩
        intro x hx
        obtain hx | hx := List.mem_append.mp hx
        · exact Nat.lt_succ_of_lt (h.streams x hx)
        · obtain rfl := List.mem_singleton.mp hx
          exact Nat.lt_succ_self _
      · rw [Connection.exits, hflags]
        exact hs
  | some flags =>
      have hsome : c.clientFlags.isSome := by
        rw [hflags]
        rfl
      cases hexits : c.exits with
      | true =>
          have ha := h.accept
          exact ⟨_, turn_exit hs hexits,
            ⟨ha.nodup, ha.apart, ha.started, ha.created, ha.once, ha.deleted, ha.streams⟩, rfl⟩
      | false =>
          obtain ⟨hcreate, hstart⟩ := hc hsome hexits
          obtain ⟨s', hserve, hsound, hexiting, -⟩ := h.accept.serve hstart s.accepted
          refine ⟨s', ?_, hsound, hexiting.trans hs⟩
          grind [turn_serve]

/-- The pointer of a thread that was deleted is in the set. -/
theorem not_threadsLive_of_not_good (hs : s.m_exiting = false) (hc : ¬c.Good)
    (h : s.turn c = .ok s') : ¬s'.ThreadsLive := by
  rw [Connection.Good] at hc
  push Not at hc
  obtain ⟨hflags, hexits, hfails⟩ := hc
  rw [turn_serve hs hflags hexits] at h
  split at h
  · rename_i hcreate
    have hstart : c.start = false := Bool.eq_false_iff.mpr (hfails hcreate)
    rw [serve, hstart] at h
    obtain ⟨_, -, h⟩ := Run.bind_eq_ok.mp h
    obtain ⟨s₁, hremove, h⟩ := Run.bind_eq_ok.mp h
    obtain rfl := Except.ok.inj h
    have hframe := removeFinished_frame hremove
    intro hlive
    have hdeleted : s.created ∈ s₁.deletedThreads :=
      hframe.deleted _ (List.mem_append_right _ (List.mem_singleton.mpr rfl))
    exact (hlive s.created List.mem_insert_self).1.2 hdeleted
  · rw [serve_null] at h
    cases h

theorem turn_exiting (hs : s.m_exiting = true) (c : Connection) : s.turn c = .ok s := by
  rw [turn, if_pos hs]

/-! ## Streams -/

def Leaks (s : Server) : Prop := ∃ x < s.accepted, x ∉ s.deletedStreams

/-- A connection deletes its own stream at most. -/
theorem turn_streams (h : s.turn c = .ok s') :
    s.accepted ≤ s'.accepted ∧ ∀ x ∈ s'.deletedStreams, x ∈ s.deletedStreams ∨ x = s.accepted := by
  cases hs : s.m_exiting with
  | true => grind [turn_exiting]
  | false =>
      cases hexits : c.exits with
      | true =>
          rw [turn_exit hs hexits] at h
          cases h
          exact ⟨Nat.le_succ _, fun _ hx => .inl hx⟩
      | false =>
          cases hflags : c.clientFlags with
          | none =>
              rw [turn_unread hs hflags] at h
              cases h
              refine ⟨Nat.le_succ _, fun x hx => ?_⟩
              exact (List.mem_append.mp hx).imp id List.mem_singleton.mp
          | some flags =>
              rw [turn_serve hs (by rw [hflags]; rfl) hexits] at h
              split at h
              · obtain ⟨_, -, h⟩ := Run.bind_eq_ok.mp h
                obtain ⟨s₁, hremove, h⟩ := Run.bind_eq_ok.mp h
                obtain rfl := Except.ok.inj h
                have hframe := removeFinished_frame hremove
                change s.accepted ≤ s₁.accepted ∧ ∀ x ∈ s₁.deletedStreams, _
                rw [hframe.accepted, hframe.deletedStreams]
                split
                · exact ⟨Nat.le_succ _, fun _ hx => .inl hx⟩
                · refine ⟨Nat.le_succ _, fun x hx => ?_⟩
                  exact (List.mem_append.mp hx).imp id List.mem_singleton.mp
              · grind [serve_null]

theorem Leaks.turn (hs : s.Leaks) (h : s.turn c = .ok s') : s'.Leaks := by
  obtain ⟨x, hx, hnot⟩ := hs
  obtain ⟨hle, hdeleted⟩ := turn_streams h
  refine ⟨x, Nat.lt_of_lt_of_le hx hle, fun hin => ?_⟩
  grind

/-- The stream of a thread that is served, and the one of the client that ends the server, stay. -/
theorem Sound.leaks (h : s.Sound []) (hs : s.m_exiting = false) (hc : c.Good)
    (hflags : c.clientFlags.isSome) (hturn : s.turn c = .ok s') : s'.Leaks := by
  have hnew : s.accepted ∉ s.deletedStreams := fun hin => Nat.lt_irrefl _ (h.streams _ hin)
  cases hexits : c.exits with
  | true =>
      rw [turn_exit hs hexits] at hturn
      cases hturn
      exact ⟨s.accepted, Nat.lt_succ_self _, hnew⟩
  | false =>
      obtain ⟨hcreate, hstart⟩ := hc hflags hexits
      obtain ⟨s₁, hserve, -, -, haccepted, hdeleted⟩ := h.accept.serve hstart s.accepted
      rw [turn_serve hs hflags hexits, if_pos hcreate] at hturn
      obtain rfl := Except.ok.inj (hserve.symm.trans hturn)
      refine ⟨s.accepted, ?_, ?_⟩
      · rw [haccepted]
        exact Nat.lt_succ_self _
      · rw [hdeleted]
        exact hnew

/-! ## The end -/

theorem waitLoop_eq (ts : List RenderThreadPtr) (hnodup : ts.Nodup) (hlive : ∀ t ∈ ts, s.Live t) :
    ts.foldlM waitFor s = .ok { s with deletedThreads := s.deletedThreads ++ ts } := by
  induction ts generalizing s with
  | nil => rw [List.foldlM_nil, List.append_nil]; rfl
  | cons t ts ih =>
      obtain ⟨hnotin, hnodup⟩ := List.nodup_cons.mp hnodup
      have hturn : s.waitFor t = .ok (s.deleteThread t) := by
        rw [waitFor, call_live (hlive t List.mem_cons_self)]
        rfl
      have hrest : ∀ u ∈ ts, (s.deleteThread t).Live u := by
        intro u hu
        obtain ⟨hlt, hnot⟩ := hlive u (List.mem_cons_of_mem _ hu)
        refine ⟨hlt, fun hin => ?_⟩
        obtain hin | hin := List.mem_append.mp hin
        · exact hnot hin
        · exact hnotin (List.mem_singleton.mp hin ▸ hu)
      rw [List.foldlM_cons, hturn]
      change ts.foldlM waitFor (s.deleteThread t) = _
      rw [ih hnodup hrest, deleteThread]
      simp

/-- At the end every thread has been deleted, once. -/
theorem Sound.finish (h : s.Sound []) :
    s.finish = .ok { s with threads := [], deletedThreads := s.deletedThreads ++ s.threads } ∧
      ∀ t < s.created, (s.deletedThreads ++ s.threads).count t = 1 := by
  constructor
  · rw [Server.finish, waitLoop_eq s.threads h.nodup fun t ht => h.live ht]
    rfl
  · intro t ht
    have honce := h.once t ht
    simp only [List.not_mem_nil, or_false] at honce
    rw [List.count_append, honce]
    grind [h.nodup]

theorem finish_streams (h : s.finish = .ok s') :
    s'.accepted = s.accepted ∧ s'.deletedStreams = s.deletedStreams := by
  obtain ⟨s₁, hloop, h⟩ := Run.bind_eq_ok.mp h
  cases h
  apply Run.foldlM_invariant (I := fun u : Server =>
    u.accepted = s.accepted ∧ u.deletedStreams = s.deletedStreams) _ ⟨rfl, rfl⟩ hloop
  intro u t u' hu hturn
  obtain ⟨_, -, hturn⟩ := Run.bind_eq_ok.mp hturn
  cases hturn
  exact hu

end Server

/-! ## Runs -/

/-- The set is in order after every connection, no call is a fault, and at the end every thread has
been deleted once. -/
def KeepsThreads (s : Server) (connections : List Connection) : Prop :=
  (∀ k s', (connections.take k).foldlM Server.turn s = .ok s' → s'.ThreadsLive) ∧
    ∃ s', main s connections = .ok s' ∧ ∀ t < s'.created, s'.deletedThreads.count t = 1

/-- At the end every stream has been deleted once. -/
def KeepsStreams (s : Server) (connections : List Connection) : Prop :=
  ∃ s', main s connections = .ok s' ∧ ∀ x < s'.accepted, s'.deletedStreams.count x = 1

def served (connections : List Connection) : List Connection :=
  connections.takeWhile fun c => !c.exits

section Runs

variable {s s' : Server} {c : Connection} {connections : List Connection}

theorem foldlM_exiting (hs : s.m_exiting = true) (connections : List Connection) :
    connections.foldlM Server.turn s = .ok s := by
  induction connections with
  | nil => rfl
  | cons c connections ih =>
      rw [List.foldlM_cons, s.turn_exiting hs]
      exact ih

theorem main_cons (h : s.turn c = .ok s') :
    main s (c :: connections) = main s' connections := by
  rw [main, List.foldlM_cons, h]
  rfl

/-- Good connections. -/
theorem foldlM_sound (hs : s.Sound []) (hexiting : s.m_exiting = false)
    (hgood : ∀ c ∈ served connections, c.Good) :
    ∃ s', connections.foldlM Server.turn s = .ok s' ∧ s'.Sound [] := by
  induction connections generalizing s with
  | nil => exact ⟨s, rfl, hs⟩
  | cons c connections ih =>
      have hc : c.Good := by
        cases hexits : c.exits with
        | true => exact fun _ h => absurd (hexits.symm.trans h) (by decide)
        | false => grind [served, List.takeWhile_cons_of_pos]
      obtain ⟨s₁, hturn, hsound, hexits⟩ := hs.turn hexiting hc
      rw [List.foldlM_cons, hturn]
      cases hexit : c.exits with
      | true => exact ⟨s₁, foldlM_exiting (hexits.trans hexit) connections, hsound⟩
      | false =>
          apply ih hsound (hexits.trans hexit)
          grind [served, List.takeWhile_cons_of_pos]

theorem keepsThreads_of_good (hs : s.Sound []) (hexiting : s.m_exiting = false)
    (hgood : ∀ c ∈ served connections, c.Good) : KeepsThreads s connections := by
  constructor
  · intro k s' hrun
    have htake : ∀ c ∈ served (connections.take k), c.Good := by
      intro c hc
      rw [served, ← List.take_takeWhile] at hc
      exact hgood c (List.mem_of_mem_take hc)
    obtain ⟨s₁, hrun₁, hsound⟩ := foldlM_sound hs hexiting htake
    obtain rfl := Except.ok.inj (hrun₁.symm.trans hrun)
    exact hsound.threadsLive
  · obtain ⟨s₁, hrun, hsound⟩ := foldlM_sound hs hexiting hgood
    obtain ⟨hfinish, hcount⟩ := hsound.finish
    refine ⟨{ s₁ with threads := [], deletedThreads := s₁.deletedThreads ++ s₁.threads }, ?_,
      hcount⟩
    rw [main, hrun]
    exact hfinish

/-- The first connection that is not good shows. -/
theorem good_of_keepsThreads (hs : s.Sound []) (hexiting : s.m_exiting = false)
    (h : KeepsThreads s connections) : ∀ c ∈ served connections, c.Good := by
  induction connections generalizing s with
  | nil => exact fun _ hc => absurd hc List.not_mem_nil
  | cons c connections ih =>
      obtain ⟨hlive, s', hmain, hcount⟩ := h
      have hc : c.Good := by
        by_contra hbad
        obtain ⟨s₁, hrun, -⟩ := Run.bind_eq_ok.mp hmain
        rw [List.foldlM_cons] at hrun
        obtain ⟨s₂, hturn, -⟩ := Run.bind_eq_ok.mp hrun
        apply Server.not_threadsLive_of_not_good hexiting hbad hturn
        apply hlive 1 s₂
        rw [List.take_succ_cons, List.take_zero, List.foldlM_cons, hturn]
        rfl
      obtain ⟨s₁, hturn, hsound, hexits⟩ := hs.turn hexiting hc
      intro d hd
      cases hexit : c.exits with
      | true => grind [served, List.takeWhile_cons_of_neg]
      | false =>
          rw [served, List.takeWhile_cons_of_pos (by rw [hexit]; rfl)] at hd
          obtain rfl | hd := List.mem_cons.mp hd
          · exact hc
          · apply ih hsound (hexits.trans hexit) _ d hd
            refine ⟨fun k u hu => hlive (k + 1) u ?_, s', ?_, hcount⟩
            · rw [List.take_succ_cons, List.foldlM_cons, hturn]
              exact hu
            · rwa [main_cons hturn] at hmain

theorem exits_of_unread (h : c.clientFlags = none) : c.exits = false := by
  rw [Connection.exits, h]
  rfl

theorem good_of_unread (h : c.clientFlags = none) : c.Good := by
  intro hflags
  rw [h] at hflags
  cases hflags

/-- A stream that is not deleted stays so. -/
theorem not_keepsStreams (hs : s.Leaks) : ¬KeepsStreams s connections := by
  rintro ⟨s', hmain, hcount⟩
  obtain ⟨s₁, hrun, hfinish⟩ := Run.bind_eq_ok.mp hmain
  obtain ⟨x, hx, hnot⟩ := Run.foldlM_invariant (fun _ _ _ h => h.turn) hs hrun
  grind [Server.finish_streams]

theorem unread_of_keepsStreams (hs : s.Sound []) (hexiting : s.m_exiting = false)
    (hgood : ∀ c ∈ served connections, c.Good) (h : KeepsStreams s connections) :
    ∀ c ∈ connections, c.clientFlags = none := by
  induction connections generalizing s with
  | nil => exact fun _ hc => absurd hc List.not_mem_nil
  | cons c connections ih =>
      have hc : c.Good := by
        cases hexit : c.exits with
        | true => exact fun _ h => absurd (hexit.symm.trans h) (by decide)
        | false => grind [served, List.takeWhile_cons_of_pos]
      obtain ⟨s₁, hturn, hsound, hexits⟩ := hs.turn hexiting hc
      have hrest : KeepsStreams s₁ connections := by
        rw [KeepsStreams, ← main_cons hturn]
        exact h
      have hunread : c.clientFlags = none := by
        by_contra hflags
        have hleaks := hs.leaks hexiting hc (Option.isSome_iff_ne_none.mpr hflags) hturn
        exact not_keepsStreams hleaks hrest
      grind [served, List.takeWhile_cons_of_pos, exits_of_unread]

/-- Connections whose flags cannot be read. -/
theorem keepsStreams_of_unread (hs : s.Sound []) (hexiting : s.m_exiting = false)
    (hstreams : ∀ x < s.accepted, s.deletedStreams.count x = 1)
    (h : ∀ c ∈ connections, c.clientFlags = none) : KeepsStreams s connections := by
  induction connections generalizing s with
  | nil => exact ⟨_, hs.finish.1, hstreams⟩
  | cons c connections ih =>
      have hunread := h c List.mem_cons_self
      have hturn := Server.turn_unread hexiting hunread
      obtain ⟨s₁, hturn₁, hsound, hexits⟩ := hs.turn hexiting (good_of_unread hunread)
      obtain rfl := Except.ok.inj (hturn.symm.trans hturn₁)
      rw [KeepsStreams, main_cons hturn]
      apply ih hsound hexiting _ fun d hd => h d (List.mem_cons_of_mem _ hd)
      intro x hx
      change (s.deletedStreams ++ [s.accepted]).count x = 1
      rw [List.count_append]
      obtain hlt | rfl := Nat.lt_succ_iff_lt_or_eq.mp hx
      · grind
      · have hnew : s.accepted ∉ s.deletedStreams := fun hin =>
          Nat.lt_irrefl _ (hs.streams _ hin)
        grind

end Runs

/-- The threads are in order exactly when none fails to be created or to start, and the streams
besides exactly when no connection has flags that can be read. -/
theorem main_keeps_iff (connections : List Connection) :
    (KeepsThreads .new connections ↔ ∀ c ∈ served connections, c.Good) ∧
      (KeepsThreads .new connections ∧ KeepsStreams .new connections ↔
        ∀ c ∈ connections, c.clientFlags = none) := by
  have hgood : KeepsThreads .new connections → ∀ c ∈ served connections, c.Good :=
    good_of_keepsThreads Server.new_sound rfl
  refine ⟨⟨hgood, keepsThreads_of_good Server.new_sound rfl⟩, ?_⟩
  constructor
  · rintro ⟨hthreads, hstreams⟩
    exact unread_of_keepsStreams Server.new_sound rfl (hgood hthreads) hstreams
  · intro h
    have hall : ∀ c ∈ served connections, c.Good := fun c hc =>
      good_of_unread (h c (List.takeWhile_subset _ hc))
    refine ⟨keepsThreads_of_good Server.new_sound rfl hall, ?_⟩
    apply keepsStreams_of_unread Server.new_sound rfl _ h
    exact fun _ hx => absurd hx (Nat.not_lt_zero _)

/-- A thread is created, but does not start. -/
def notStarted : Connection := ⟨some 0, true, false, fun _ => false⟩

theorem not_keeps_notStarted :
    ¬(KeepsThreads .new [notStarted] ∧ KeepsStreams .new [notStarted]) := by
  rintro ⟨⟨hlive, -⟩, -⟩
  have hin := hlive 1 _ rfl 0 (by decide)
  exact absurd hin.2 (by decide)

end AndroidRenderer.OpenglRender.RenderServer
