import AndroidRenderer.Lib.Run

/-!
# Buffers of a window

A window surface holds one buffer of its window: it dequeues it when it is made, hands it back
with each swap, dequeues the next one, and cancels what it holds when it is destroyed. The window
and the connection with the host may fail at any call. A buffer has a new number each time it is
dequeued. The host's surface is kept with the guest's, as the color buffer last set for it.
-/

namespace AndroidRenderer.GuestEgl

abbrev BufferId := Nat

structure egl_window_surface_t where
  rcSurface : Option UInt32
  buffer : Option BufferId
  deriving DecidableEq, Repr

/-- What is done with a buffer that is not the surface's. -/
inductive BufferFault
  | null
  | returned
  deriving DecidableEq, Repr

/-- A window with its surfaces, the host handles of the buffers that have been dequeued, and those
that have been handed back. -/
structure WindowSystem where
  surfaces : List egl_window_surface_t
  buffers : List UInt32
  returned : List BufferId
  deriving DecidableEq, Repr

/-- Calls on the surfaces of a window, with what the window and the host answer: the host handle of
the buffer that is dequeued, and whether there is a connection each time one is asked for. -/
inductive WindowCall
  | eglCreateWindowSurface (dequeued : Option UInt32) (connected created : Bool)
  | eglSwapBuffers (surface : Nat) (connected connectedThen queued : Bool)
      (dequeued : Option UInt32)
  | eglDestroySurface (surface : Nat)

namespace WindowSystem

def initial : WindowSystem := ⟨[], [], []⟩

variable {x x' : WindowSystem} {call : WindowCall}

/-- `dequeueBuffer`, which leaves the pointer alone where it fails. -/
def dequeueBuffer (x : WindowSystem) : Option UInt32 → WindowSystem × Option BufferId
  | none => (x, none)
  | some hostHandle => ({ x with buffers := x.buffers ++ [hostHandle] }, some x.buffers.length)

/-- A buffer that is used has been dequeued and not been handed back. -/
def used (x : WindowSystem) : Option BufferId → Except BufferFault BufferId
  | none => .error .null
  | some b => if b ∈ x.returned then .error .returned else .ok b

/-- `queueBuffer`; the window does not take the buffer where it fails. -/
def queueBuffer (x : WindowSystem) (buffer : Option BufferId) (queued : Bool) :
    Except BufferFault WindowSystem :=
  (x.used buffer).map fun b => if queued then { x with returned := x.returned ++ [b] } else x

def cancelBuffer (x : WindowSystem) (buffer : Option BufferId) :
    Except BufferFault WindowSystem :=
  (x.used buffer).map fun b => { x with returned := x.returned ++ [b] }

/-- `rcSetWindowColorBuffer` with `buffer->handle` -/
def rcSetWindowColorBuffer (x : WindowSystem) (buffer : Option BufferId) :
    Except BufferFault egl_window_surface_t :=
  (x.used buffer).map fun b => ⟨x.buffers[b]?, buffer⟩

/-- `~egl_window_surface_t`; the surface on the host stays without a connection. -/
def delete (x : WindowSystem) (s : egl_window_surface_t) : Except BufferFault WindowSystem :=
  if s.buffer = none then .ok x else x.cancelBuffer s.buffer

/-- `egl_window_surface_t::init`: the surface, and whether it has been made. -/
def init (x : WindowSystem) (dequeued : Option UInt32) (connected created : Bool) :
    Except BufferFault (WindowSystem × egl_window_surface_t × Bool) :=
  let (x, buffer) := x.dequeueBuffer dequeued
  if buffer = none then .ok (x, ⟨none, none⟩, false)
  else if !connected then .ok (x, ⟨none, buffer⟩, false)
  else if !created then .ok (x, ⟨none, buffer⟩, false)
  else (x.rcSetWindowColorBuffer buffer).map fun s => (x, s, true)

/-- `egl_window_surface_t::create`, for a window with which a surface can be made. -/
def eglCreateWindowSurface (x : WindowSystem) (dequeued : Option UInt32)
    (connected created : Bool) : Except BufferFault WindowSystem := do
  let (x, s, made) ← x.init dequeued connected created
  if made then return { x with surfaces := x.surfaces ++ [s] }
  else x.delete s

def swapBuffers (x : WindowSystem) (i : Nat) (s : egl_window_surface_t) (connected queued : Bool)
    (dequeued : Option UInt32) : Except BufferFault WindowSystem :=
  if !connected then .ok x
  else do
    let x ← x.queueBuffer s.buffer queued
    let (x, buffer) := x.dequeueBuffer dequeued
    if buffer = none then return { x with surfaces := x.surfaces.set i { s with buffer } }
    else
      let s ← x.rcSetWindowColorBuffer buffer
      return { x with surfaces := x.surfaces.set i s }

def step (x : WindowSystem) : WindowCall → Except BufferFault WindowSystem
  | .eglCreateWindowSurface dequeued connected created =>
      x.eglCreateWindowSurface dequeued connected created
  | .eglSwapBuffers i connected connectedThen queued dequeued =>
      match x.surfaces[i]? with
      | none => .ok x
      | some s => if !connected then .ok x else x.swapBuffers i s connectedThen queued dequeued
  | .eglDestroySurface i =>
      match x.surfaces[i]? with
      | none => .ok x
      | some s => { x with surfaces := x.surfaces.eraseIdx i }.delete s

/-! ## Who holds a buffer -/

def held (x : WindowSystem) : List BufferId := x.surfaces.filterMap (·.buffer)

/-- Each buffer that has been dequeued has been handed back once or is held by one surface, whose
color buffer is that of the buffer. -/
structure Owned (x : WindowSystem) : Prop where
  once : (x.returned ++ x.held).Perm (List.range x.buffers.length)
  color : ∀ s ∈ x.surfaces, ∀ b, s.buffer = some b → s.rcSurface = x.buffers[b]?

/-- A swap has a buffer to hand back, and the window takes it. -/
def Hands (x : WindowSystem) : WindowCall → Prop
  | .eglSwapBuffers i connected connectedThen queued _ => ∀ s, x.surfaces[i]? = some s →
      connected = true → connectedThen = true → s.buffer ≠ none ∧ queued = true
  | _ => True

theorem initial_owned : initial.Owned :=
  ⟨List.Perm.refl _, fun _ h => nomatch h⟩

variable {b : BufferId} {s : egl_window_surface_t}

theorem Owned.lt_length (h : x.Owned) (hb : b ∈ x.returned ∨ b ∈ x.held) :
    b < x.buffers.length := by
  rw [← List.mem_range, ← h.once.mem_iff, List.mem_append]
  exact hb

theorem Owned.not_returned (h : x.Owned) (hb : b ∈ x.held) : b ∉ x.returned := by
  have hnodup := h.once.nodup_iff.mpr List.nodup_range
  exact fun hreturned => (List.nodup_append.mp hnodup).2.2 b hreturned b hb rfl

theorem Owned.used_held (h : x.Owned) (hb : b ∈ x.held) : x.used (some b) = .ok b :=
  if_neg (h.not_returned hb)

theorem Owned.used_new (h : x.Owned) : x.buffers.length ∉ x.returned := fun hreturned =>
  Nat.lt_irrefl _ (h.lt_length (.inl hreturned))

/-- A buffer goes from the middle of what is held to the end of what has been handed back. -/
theorem perm_hand (returned before after : List BufferId) (b : BufferId) :
    (returned ++ [b] ++ (before ++ after)).Perm (returned ++ (before ++ b :: after)) := by
  rw [List.append_assoc, List.singleton_append]
  exact List.Perm.append_left _ List.perm_middle.symm

/-- A surface among others. -/
theorem exists_split {i : Nat} (hs : x.surfaces[i]? = some s) :
    ∃ before after, x.surfaces = before ++ s :: after ∧
      (∀ s', x.surfaces.set i s' = before ++ s' :: after) ∧
      x.surfaces.eraseIdx i = before ++ after := by
  obtain ⟨hlt, rfl⟩ := List.getElem?_eq_some_iff.mp hs
  refine ⟨x.surfaces.take i, x.surfaces.drop (i + 1), by simp, fun s' => ?_, ?_⟩
  · exact List.set_eq_take_append_cons_drop.trans (if_pos hlt)
  · exact List.eraseIdx_eq_take_drop_succ x.surfaces i

/-! ## Calls -/

/-- A surface that is not made hands back what it has dequeued. -/
theorem Owned.create (h : x.Owned) (dequeued : Option UInt32) (connected created : Bool) :
    ∃ x', x.eglCreateWindowSurface dequeued connected created = .ok x' ∧ x'.Owned := by
  have hnew := h.used_new
  cases dequeued with
  | none => exact ⟨x, rfl, h⟩
  | some hostHandle =>
      have honce : (x.returned ++ x.held ++ [x.buffers.length]).Perm
          (List.range (x.buffers ++ [hostHandle]).length) := by
        rw [List.length_append, List.length_singleton, List.range_succ]
        exact h.once.append_right _
      have hkept : ∀ s ∈ x.surfaces, ∀ b, s.buffer = some b →
          s.rcSurface = (x.buffers ++ [hostHandle])[b]? := by
        intro s hs b hb
        rw [List.getElem?_append_left (h.lt_length (.inr (List.mem_filterMap.mpr ⟨s, hs, hb⟩)))]
        exact h.color s hs b hb
      by_cases hmade : connected = true ∧ created = true
      · refine ⟨⟨x.surfaces ++ [⟨some hostHandle, some x.buffers.length⟩],
          x.buffers ++ [hostHandle], x.returned⟩, ?_, ?_, ?_⟩
        · simp [eglCreateWindowSurface, init, dequeueBuffer, rcSetWindowColorBuffer, used, hnew,
            hmade, bind, Except.bind, Except.map, pure, Except.pure]
        · rw [held, List.filterMap_append, ← List.append_assoc]
          exact honce
        · grind
      · refine ⟨⟨x.surfaces, x.buffers ++ [hostHandle], x.returned ++ [x.buffers.length]⟩,
          ?_, ?_, hkept⟩
        · cases connected <;> cases created <;>
            simp_all [eglCreateWindowSurface, init, dequeueBuffer, delete, cancelBuffer, used,
              bind, Except.bind, Except.map]
        · refine List.Perm.trans ?_ honce
          rw [List.append_assoc, List.append_assoc]
          exact List.Perm.append_left _ List.perm_append_comm

theorem Owned.swapBuffers_eq (h : x.Owned) {i : Nat}
    (hs : s ∈ x.surfaces) (hb : s.buffer = some b) (queued : Bool)
    (dequeued : Option UInt32) :
    x.swapBuffers i s true queued dequeued = .ok {
      returned := if queued then x.returned ++ [b] else x.returned
      buffers := x.buffers ++ dequeued.toList
      surfaces := x.surfaces.set i
        ⟨if dequeued.isSome then dequeued else s.rcSurface,
          dequeued.map fun _ => x.buffers.length⟩ } := by
  have hheld : b ∈ x.held := List.mem_filterMap.mpr ⟨s, hs, hb⟩
  have hne : x.buffers.length ≠ b := Nat.ne_of_gt (h.lt_length (.inr hheld))
  have hqueue : x.queueBuffer s.buffer queued = .ok { x with
      returned := if queued then x.returned ++ [b] else x.returned } := by
    rw [hb, queueBuffer, h.used_held hheld]
    cases queued <;> rfl
  have hnew : x.buffers.length ∉ if queued then x.returned ++ [b] else x.returned := by
    have hnew := h.used_new
    split <;> simp [hnew, hne]
  rw [swapBuffers, hqueue]
  cases dequeued with
  | none => simp [dequeueBuffer, bind, Except.bind, pure, Except.pure]
  | some hostHandle =>
      simp [dequeueBuffer, bind, Except.bind, rcSetWindowColorBuffer, used, hnew, Except.map, pure,
        Except.pure]

/-- A swap keeps what it has to where the window takes the buffer. -/
theorem Owned.swap (h : x.Owned) {i : Nat}
    (hs : x.surfaces[i]? = some s) (hb : s.buffer = some b)
    (dequeued : Option UInt32) :
    ∃ x', x.swapBuffers i s true true dequeued = .ok x' ∧ x'.Owned := by
  obtain ⟨before, after, hsplit, hset, -⟩ := exists_split hs
  refine ⟨_, h.swapBuffers_eq (List.mem_of_getElem? hs) hb true dequeued, ?_⟩
  have honce := h.once
  rw [held, hsplit, List.filterMap_append, List.filterMap_cons_some hb] at honce
  have hfront := (perm_hand _ _ _ _).trans honce
  rw [hset]
  refine ⟨?_, fun s' hs' c hc => ?_⟩
  · rw [held, List.filterMap_append]
    cases dequeued with
    | none => simpa using hfront
    | some hostHandle =>
        rw [if_pos rfl, Option.toList_some, List.length_append, List.length_singleton,
          List.range_succ]
        refine List.Perm.trans ?_ (hfront.append_right [x.buffers.length])
        rw [List.append_assoc (x.returned ++ [b])]
        exact List.Perm.append_left _
          (List.perm_middle.trans (List.perm_append_singleton _ _).symm)
  · have hkept : s' ∈ x.surfaces → s'.rcSurface = (x.buffers ++ dequeued.toList)[c]? := by
      intro hin
      have hlt := h.lt_length (.inr (List.mem_filterMap.mpr ⟨s', hin, hc⟩))
      rw [List.getElem?_append_left hlt]
      exact h.color s' hin c hc
    cases dequeued <;> grind

/-- A surface cancels the buffer that it holds. -/
theorem Owned.destroy (h : x.Owned) {i : Nat}
    (hs : x.surfaces[i]? = some s) :
    ∃ x', { x with surfaces := x.surfaces.eraseIdx i }.delete s = .ok x' ∧ x'.Owned := by
  obtain ⟨before, after, hsplit, -, herase⟩ := exists_split hs
  have hcolor : ∀ s' ∈ before ++ after, ∀ b, s'.buffer = some b → s'.rcSurface = x.buffers[b]? :=
    fun s' hs' => h.color s' (by grind)
  have honce := h.once
  rw [held, hsplit, List.filterMap_append] at honce
  rw [herase, delete]
  cases hb : s.buffer with
  | none =>
      rw [List.filterMap_cons_none hb] at honce
      refine ⟨_, if_pos rfl, ?_, hcolor⟩
      rw [held, List.filterMap_append]
      exact honce
  | some b =>
      have hnot := h.not_returned (List.mem_filterMap.mpr ⟨s, List.mem_of_getElem? hs, hb⟩)
      rw [List.filterMap_cons_some hb] at honce
      refine ⟨⟨before ++ after, x.buffers, x.returned ++ [b]⟩, ?_, ?_, hcolor⟩
      · simp [cancelBuffer, used, hnot, Except.map]
      · rw [held, List.filterMap_append]
        exact (perm_hand _ _ _ _).trans honce

theorem Owned.step (h : x.Owned) (hhands : x.Hands call) :
    ∃ x', x.step call = .ok x' ∧ x'.Owned := by
  cases call with
  | eglCreateWindowSurface dequeued connected created =>
      exact h.create dequeued connected created
  | eglSwapBuffers i connected connectedThen queued dequeued =>
      rw [WindowSystem.step]
      cases hs : x.surfaces[i]? with
      | none => exact ⟨x, rfl, h⟩
      | some s =>
          cases connected with
          | false => exact ⟨x, rfl, h⟩
          | true =>
              cases connectedThen with
              | false => exact ⟨x, rfl, h⟩
              | true =>
                  obtain ⟨hbuffer, rfl⟩ := hhands s hs rfl rfl
                  obtain ⟨b, hb⟩ := Option.ne_none_iff_exists'.mp hbuffer
                  exact h.swap hs hb dequeued
  | eglDestroySurface i =>
      rw [WindowSystem.step]
      cases hs : x.surfaces[i]? with
      | none => exact ⟨x, rfl, h⟩
      | some s => exact h.destroy hs

/-- A swap that has no buffer hands back the null pointer, and a buffer that the window does not
take is lost. -/
theorem Owned.lost (h : x.Owned) (hhands : ¬x.Hands call) (hstep : x.step call = .ok x') :
    ¬x'.Owned := by
  intro howned
  refine hhands ?_
  cases call with
  | eglSwapBuffers i connected connectedThen queued dequeued =>
      rintro s hs rfl rfl
      simp only [WindowSystem.step, hs, swapBuffers] at hstep
      cases hb : s.buffer with
      | none => simp [hb, queueBuffer, used, Except.map, bind, Except.bind] at hstep
      | some b =>
          refine ⟨Option.some_ne_none b, ?_⟩
          by_contra hqueued
          rw [Bool.not_eq_true] at hqueued
          have hin := List.mem_of_getElem? hs
          have hheld : b ∈ x.held := List.mem_filterMap.mpr ⟨s, hin, hb⟩
          have hswap := h.swapBuffers_eq (i := i) hin hb false dequeued
          rw [hqueued] at hstep
          obtain rfl := Except.ok.inj (hswap.symm.trans hstep)
          obtain ⟨before, after, hsplit, hset, -⟩ := exists_split hs
          have hlt := h.lt_length (.inr hheld)
          have hnodup := (List.nodup_append.mp (h.once.nodup_iff.mpr List.nodup_range)).2.1
          rw [held, hsplit, List.filterMap_append, List.filterMap_cons_some hb] at hnodup
          have hback : b ∈ x.returned ++ ((before.filterMap (·.buffer)) ++
              (dequeued.map fun _ => x.buffers.length).toList ++ after.filterMap (·.buffer)) := by
            have hrange : b ∈ List.range (x.buffers ++ dequeued.toList).length := by
              rw [List.mem_range, List.length_append]
              exact Nat.lt_add_right _ hlt
            have hmem := howned.once.mem_iff.mpr hrange
            rw [held, hset, List.filterMap_append] at hmem
            cases dequeued <;> simpa using hmem
          rcases List.mem_append.mp hback with hback | hback
          · exact h.not_returned hheld hback
          · have hnew : b ∉ (dequeued.map fun _ => x.buffers.length).toList := by
              have hne := Nat.ne_of_lt hlt
              cases dequeued <;> simp [hne]
            grind
  | _ => trivial

/-- While each swap has a buffer to hand back that the window takes, every buffer is handed back
once and no other; and this fails with the first swap that has none, or is not taken. -/
theorem owned_of_hands (h : Run.Reach WindowSystem.step Hands initial x) :
    x.Owned ∧ ∀ call, (∃ x', x.step call = .ok x' ∧ x'.Owned) ↔ x.Hands call := by
  have howned : x.Owned := by
    refine h.invariant initial_owned ?_
    intro t call u ht hhands hstep
    obtain ⟨u', hu', howned⟩ := ht.step hhands
    rw [hstep] at hu'
    cases hu'
    exact howned
  refine ⟨howned, fun call => ⟨fun ⟨x', hstep, howned'⟩ => ?_, howned.step⟩⟩
  by_contra hhands
  exact howned.lost hhands hstep howned'

/-- A surface whose swap gets no buffer. -/
def swappedOut : WindowSystem := ⟨[⟨some 7, none⟩], [7], [0]⟩

theorem owned_of_hands_swappedOut : swappedOut.Owned ∧ ∀ call,
    (∃ x', swappedOut.step call = .ok x' ∧ x'.Owned) ↔ swappedOut.Hands call := by
  refine owned_of_hands (.step (.step .refl (a := .eglCreateWindowSurface (some 7) true true)
    trivial rfl) (a := .eglSwapBuffers 0 true true true none) ?_ rfl)
  rintro s hs - -
  cases hs
  exact ⟨Option.some_ne_none 0, rfl⟩

/-- The next swap queues the null pointer. -/
theorem null_queued : ¬∀ (x : WindowSystem) (call : WindowCall),
    Run.Reach WindowSystem.step (fun _ _ => True) initial x →
      ∃ x', x.step call = .ok x' ∧ x'.Owned := by
  intro h
  obtain ⟨x', hstep, -⟩ := h swappedOut (.eglSwapBuffers 0 true true true none)
    (.step (.step .refl (a := .eglCreateWindowSurface (some 7) true true) trivial rfl)
      (a := .eglSwapBuffers 0 true true true none) trivial rfl)
  cases hstep

end WindowSystem

end AndroidRenderer.GuestEgl
