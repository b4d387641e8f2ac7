import AndroidRenderer.Gralloc.Calls

/-!
# Closing the device

`gralloc_device_close` frees the head of the allocated list until there is none. A buffer with a
color buffer on the host stays the head as long as there is no connection.
-/

namespace AndroidRenderer.Gralloc

namespace Process

variable {p p' : Process} {connected : Nat → Bool}

/-- A process after some calls, and after copies of handles of other processes have arrived. -/
inductive Reached (pid : Int) : Process → Prop
  | initial : Reached pid (initial pid)
  | call {p p' : Process} {c : Call} {result : Int} (hp : Reached pid p)
      (h : p.call c = .ok (p', result)) : Reached pid p'
  | receive {p : Process} (hp : Reached pid p) (cb : cb_handle_t) (fd : Nat) :
      Reached pid (p.receive cb fd)

/-- The loop of `gralloc_device_close` from a turn on, if it ends within some turns; `connected` is
whether there is a connection in a turn. -/
def closeLoop (connected : Nat → Bool) : Nat → Nat → Process → Except MemoryFault (Option Process)
  | 0, _, _ => .ok none
  | fuel + 1, turn, p =>
      match p.allocList with
      | [] => .ok (some p)
      | h :: _ => do
          let r ← p.gralloc_free (some h) (connected turn)
          closeLoop connected fuel (turn + 1) r.1

/-- The loop ends and has freed each buffer on the list once. -/
def ClosesFrom (connected : Nat → Bool) (turn : Nat) (p : Process) : Prop :=
  ∃ fuel p', closeLoop connected fuel turn p = .ok (some p') ∧ p'.allocList = [] ∧
    p'.deleted = p.allocList.reverse ++ p.deleted

/-- Whether a buffer has a color buffer. -/
def onHost (p : Process) (h : HandleId) : Bool := p.handles[h]?.any (·.hostHandle != 0)

/-- Each buffer that is on the host finds a connection, in its turn or later. -/
def Connectable (connected : Nat → Bool) : List Bool → Nat → Prop
  | [], _ => True
  | false :: rest, turn => Connectable connected rest (turn + 1)
  | true :: rest, turn =>
      ∃ later, turn ≤ later ∧ connected later = true ∧ Connectable connected rest (later + 1)

theorem Connectable.earlier {hosts : List Bool} {turn turn' : Nat}
    (h : Connectable connected hosts turn') (hle : turn ≤ turn') :
    Connectable connected hosts turn := by
  induction hosts generalizing turn turn' with
  | nil => trivial
  | cons host rest ih =>
      cases host with
      | false => exact ih h (Nat.succ_le_succ hle)
      | true =>
          obtain ⟨later, hlater, hconnected, hrest⟩ := h
          exact ⟨later, by omega, hconnected, hrest⟩

/-! ## The list has live handles -/

def valid (p : Process) : List Bool := p.handles.map cb_handle_t.validate

/-- The allocated list has handles that are valid and not deleted, each once. -/
structure Live (p : Process) : Prop where
  nodup : p.allocList.Nodup
  live : ∀ h ∈ p.allocList, h ∉ p.deleted ∧ p.valid[h]? = some true
  deleted : ∀ h ∈ p.deleted, h < p.valid.length

theorem Live.congr (h : Live p) (hlist : p'.allocList = p.allocList)
    (hdeleted : p'.deleted = p.deleted) (hvalid : p'.valid = p.valid) : Live p' := by
  obtain ⟨hnodup, hlive, hlt⟩ := h
  exact ⟨hlist ▸ hnodup, by rwa [hlist, hdeleted, hvalid], by rwa [hdeleted, hvalid]⟩

theorem valid_modifyHandle {f : cb_handle_t → cb_handle_t} (p : Process) (h : HandleId)
    (hf : ∀ cb, (f cb).validate = cb.validate) : (p.modifyHandle h f).valid = p.valid := by
  apply List.ext_getElem?
  intro i
  rw [valid, valid, List.getElem?_map, modifyHandle_getElem?, Option.map_map, List.getElem?_map]
  grind

theorem valid_of_locksOnly (h : LocksOnly p p') : p'.valid = p.valid := by
  have hunlocked : ∀ q : Process, q.valid = (q.handles.map unlocked).map cb_handle_t.validate := by
    intro q
    rw [valid, List.map_map]
    rfl
  rw [hunlocked, hunlocked, h.handles]

/-- A new handle is put on the list, or deleted at once. -/
structure Grows (p p' : Process) : Prop where
  handles : ∃ cb : cb_handle_t, cb.validate = true ∧ p'.handles = p.handles ++ [cb]
  listed : p'.allocList = p.allocList ∧ p'.deleted = p.handles.length :: p.deleted ∨
    p'.allocList = p.handles.length :: p.allocList ∧ p'.deleted = p.deleted

theorem Live.grows (h : Live p) (hgrows : Grows p p') : Live p' := by
  obtain ⟨hnodup, hlive, hlt⟩ := h
  obtain ⟨⟨cb, hcb, hhandles⟩, hlisted⟩ := hgrows
  have hvalid : p'.valid = p.valid ++ [true] := by rw [valid, valid, hhandles]; simp [hcb]
  have hlength : p.valid.length = p.handles.length := List.length_map _
  have hold : ∀ i ∈ p.allocList, i < p.handles.length := fun i hi =>
    hlength ▸ (List.getElem?_eq_some_iff.mp (hlive i hi).2).1
  constructor
  · grind
  · intro i hi
    rw [hvalid]
    grind
  · intro i hi
    rw [hvalid, List.length_append]
    grind

theorem grows_allocColorBuffer {q : Process} {cb : cb_handle_t} {fd : Int} {usage : Usage}
    {host : Option UInt32} (hcb : cb.validate = true) (hhandles : q.handles = p.handles ++ [cb])
    (hlist : q.allocList = p.allocList) (hdeleted : q.deleted = p.deleted) :
    Grows p (q.allocColorBuffer p.handles.length fd usage host).1 := by
  unfold allocColorBuffer
  split
  · cases host with
    | none => exact ⟨⟨cb, hcb, hhandles⟩, .inl ⟨hlist, congrArg _ hdeleted⟩⟩
    | some hostHandle =>
        dsimp only
        split
        · exact ⟨⟨cb, hcb, hhandles⟩, .inl ⟨hlist, congrArg _ hdeleted⟩⟩
        · exact ⟨⟨{ cb with hostHandle := hostHandle }, hcb, modifyHandle_last hhandles _⟩,
            .inr ⟨congrArg _ hlist, hdeleted⟩⟩
  · exact ⟨⟨cb, hcb, hhandles⟩, .inr ⟨congrArg _ hlist, hdeleted⟩⟩

theorem grows_allocHandle {q : Process} {cb : cb_handle_t} {mmap : Except Errno Nat}
    {host : Option UInt32} (hcb : cb.validate = true) (hq : q.handles = p.handles)
    (hlist : q.allocList = p.allocList) (hdeleted : q.deleted = p.deleted) :
    Grows p (q.allocHandle cb mmap host).1 := by
  have hnew : (q.newHandle cb).handles = p.handles ++ [cb] := congrArg (· ++ [cb]) hq
  unfold allocHandle
  rw [hq]
  dsimp only
  split
  · rcases (q.newHandle cb).map_buffer_cases p.handles.length cb mmap with
      ⟨err, hmap, -, -⟩ | ⟨addr, -, -, -, hmap⟩
    · rw [hmap]
      exact ⟨⟨cb, hcb, hnew⟩, .inl ⟨hlist, congrArg _ hdeleted⟩⟩
    · rw [hmap]
      simp only [cb_handle_t.validate, Bool.and_eq_true, decide_eq_true_eq] at hcb
      have hmapped : (q.mappedHandle cb addr).validate = true := by
        simp only [cb_handle_t.validate, Bool.and_eq_true, decide_eq_true_eq]
        exact ⟨hcb.1, rfl⟩
      exact grows_allocColorBuffer hmapped (modifyHandle_last (modifyHandle_last hnew _) _) hlist
        hdeleted
  · exact grows_allocColorBuffer hcb hnew hlist hdeleted

@[simp] theorem validate_new (fd size : Int) (usage : Usage) (w h : Int)
    (glFormat glType : GLenum) :
    (cb_handle_t.new fd size usage w h glFormat glType).validate = true := by
  simp [cb_handle_t.new, cb_handle_t.validate]

/-- An allocation leaves the list of live handles. -/
theorem Live.gralloc_alloc (h : Live p) (args : Bool) (w h' format : Int) (usage : Usage)
    (ashmem mmap : Except Errno Nat) (host : Option UInt32) :
    Live (p.gralloc_alloc args w h' format usage ashmem mmap host).1 := by
  unfold Process.gralloc_alloc
  split
  · exact h
  · split
    · exact h
    · split
      · exact h
      · split
        · split
          · exact h
          · exact h.grows (grows_allocHandle (validate_new ..) rfl rfl rfl)
        · exact h.grows (grows_allocHandle (validate_new ..) rfl rfl rfl)

/-- What freeing a buffer does to the list. -/
theorem Live.freed (h : Live p) (i : HandleId) (cb : cb_handle_t)
    (hi : p.handles[i]? = some cb) : Live (p.freed i cb) := by
  obtain ⟨fds, heq⟩ := p.freed_eq i cb
  obtain ⟨hnodup, hlive, hlt⟩ := h
  rw [heq]
  refine ⟨hnodup.erase _, fun j hj => ?_, fun j hj => ?_⟩
  · obtain ⟨hne, hmem⟩ := (hnodup.mem_erase_iff).mp hj
    exact ⟨by simpa using ⟨hne, (hlive j hmem).1⟩, (hlive j hmem).2⟩
  · rcases List.mem_cons.mp hj with rfl | hmem
    · exact (List.length_map _).symm ▸ (List.getElem?_eq_some_iff.mp hi).1
    · exact hlt j hmem

theorem Live.call (h : Live p) {c : Call} {r : Process × Int} (hr : p.call c = .ok r) :
    Live r.1 := by
  cases c with
  | gralloc_alloc args w h' format usage ashmem mmap host =>
      cases hr
      exact h.gralloc_alloc ..
  | gralloc_free handle connected =>
      rcases gralloc_free_cases hr with hrefused | ⟨i, cb, hgets, -, rfl⟩
      · exact hrefused.unchanged ▸ h
      · exact h.freed i cb hgets.getElem
  | gralloc_register_buffer handle connected mmap =>
      rcases gralloc_register_buffer_cases hr with hrefused | ⟨i, cb, -, -, hr⟩
      · exact hrefused.unchanged ▸ h
      · have hopen : Live (p.openColorBuffer cb) := by
          unfold openColorBuffer
          split
          · exact h
          · exact h.congr rfl rfl rfl
        rcases registerMapping_cases hr.symm with ⟨rfl, -⟩ | ⟨-, ⟨heq, -⟩ | ⟨addr, -, -, rfl⟩⟩
        · exact hopen
        · exact heq ▸ hopen
        · rw [registered_eq]
          exact hopen.congr rfl rfl (valid_modifyHandle _ _ fun _ => rfl)
  | gralloc_unregister_buffer handle connected =>
      rcases gralloc_unregister_buffer_cases hr with hrefused | ⟨i, cb, -, -, rfl⟩
      · exact hrefused.unchanged ▸ h
      · have hclose : Live (p.closeColorBuffer cb) := by
          unfold closeColorBuffer
          split
          · exact h
          · exact h.congr rfl rfl rfl
        unfold unregisterMapping
        split
        · exact hclose.congr rfl rfl (valid_modifyHandle _ _ fun _ => rfl)
        · exact hclose
  | gralloc_lock handle usage left top width height host =>
      have hlocks := (gralloc_lock_locksOnly hr).1
      exact h.congr hlocks.allocList hlocks.deleted (valid_of_locksOnly hlocks)
  | gralloc_unlock handle connected =>
      have hlocks := (gralloc_unlock_locksOnly hr).1
      exact h.congr hlocks.allocList hlocks.deleted (valid_of_locksOnly hlocks)

theorem Live.newHandle (h : Live p) (cb : cb_handle_t) : Live (p.newHandle cb) := by
  obtain ⟨hnodup, hlive, hlt⟩ := h
  have hvalid : (p.newHandle cb).valid = p.valid ++ [cb.validate] := by
    simp [valid, Process.newHandle]
  refine ⟨hnodup, fun i hi => ⟨(hlive i hi).1, ?_⟩, fun i hi => ?_⟩
  · rw [hvalid]
    exact List.getElem?_append_left (List.getElem?_eq_some_iff.mp (hlive i hi).2).1 ▸ (hlive i hi).2
  · rw [hvalid, List.length_append]
    exact Nat.lt_add_right _ (hlt i hi)

/-- The allocated list of every process has live handles. -/
theorem Reached.live {pid : Int} (h : Reached pid p) : Live p := by
  induction h with
  | initial => exact ⟨.nil, by simp [Process.initial], by simp [Process.initial]⟩
  | call _ hr ih => exact ih.call hr
  | receive _ cb fd ih =>
      unfold Process.receive
      split
      · exact (ih.congr rfl rfl rfl : Live (openFd _ fd)).newHandle _
      · exact ih.newHandle cb

/-! ## The loop -/

/-- One turn of the loop: the head is freed, or it needs a connection that there is not. -/
theorem closeLoop_cons (hlive : Live p) {h : HandleId} {rest : List HandleId}
    (hlist : p.allocList = h :: rest) (turn : Nat) :
    ∃ q : Process, (∀ fuel, closeLoop connected (fuel + 1) turn p =
        closeLoop connected fuel (turn + 1) q) ∧
      if p.onHost h = true ∧ connected turn = false then q = p
      else Live q ∧ q.allocList = rest ∧ q.deleted = h :: p.deleted ∧ q.onHost = p.onHost := by
  obtain ⟨hnot, hvalid⟩ := hlive.live h (hlist ▸ List.mem_cons_self)
  rw [valid, List.getElem?_map] at hvalid
  obtain ⟨cb, hcb, hcbvalid⟩ := Option.map_eq_some_iff.mp hvalid
  have hhost : p.onHost h = (cb.hostHandle != 0) := by rw [onHost, hcb, Option.any_some]
  have hloop : ∀ fuel, closeLoop connected (fuel + 1) turn p =
      (p.gralloc_free (some h) (connected turn)).bind fun r =>
        closeLoop connected fuel (turn + 1) r.1 := by
    intro fuel
    rw [closeLoop, hlist]
    rfl
  simp only [hloop, gralloc_free, withHandle_some (handle_ok.mpr ⟨hcb, hnot⟩) hcbvalid, hhost]
  by_cases hstuck : (cb.hostHandle != 0) = true ∧ connected turn = false
  · refine ⟨p, fun fuel => ?_, if_pos hstuck ▸ rfl⟩
    rw [if_pos (by simpa using hstuck)]
    rfl
  · refine ⟨p.freed h cb, fun fuel => ?_, ?_⟩
    · rw [if_neg (by simpa using hstuck)]
      rfl
    · rw [if_neg hstuck]
      obtain ⟨fds, heq⟩ := p.freed_eq h cb
      refine ⟨hlive.freed h cb hcb, ?_⟩
      rw [heq, hlist, List.erase_cons_head]
      exact ⟨rfl, rfl, rfl⟩

theorem connectable_of_closeLoop (hlive : Live p) {fuel turn : Nat}
    (h : closeLoop connected fuel turn p = .ok (some p')) :
    Connectable connected (p.allocList.map p.onHost) turn := by
  induction fuel generalizing p turn with
  | zero => cases h
  | succ fuel ih =>
      cases hlist : p.allocList with
      | nil => trivial
      | cons i rest =>
          obtain ⟨q, hq, hturn⟩ := @closeLoop_cons _ connected hlive _ _ hlist turn
          rw [hq] at h
          rw [List.map_cons]
          split at hturn
          · rename_i hstuck
            subst hturn
            have hlater := ih hlive h
            rw [hlist, List.map_cons, hstuck.1] at hlater
            rw [hstuck.1]
            exact hlater.earlier (Nat.le_succ turn)
          · rename_i hfreed
            obtain ⟨hqlive, hqlist, -, hqhost⟩ := hturn
            have hrest := ih hqlive h
            rw [hqlist, hqhost] at hrest
            cases hhost : p.onHost i with
            | false => exact hrest
            | true => exact ⟨turn, Nat.le_refl turn, by simpa [hhost] using hfreed, hrest⟩

/-- With connections the loop ends. -/
theorem closesFrom_of_connectable (hlive : Live p) {l : List HandleId} (hlist : p.allocList = l)
    {turn : Nat} (h : Connectable connected (l.map p.onHost) turn) :
    ClosesFrom connected turn p := by
  induction l generalizing p turn with
  | nil => exact ⟨1, p, by rw [closeLoop, hlist], hlist, by rw [hlist]; rfl⟩
  | cons i rest ih =>
      have hstep : ∀ turn, ¬(p.onHost i = true ∧ connected turn = false) →
          Connectable connected (rest.map p.onHost) (turn + 1) → ClosesFrom connected turn p := by
        intro turn hfree hrest
        obtain ⟨q, hq, hturn⟩ := @closeLoop_cons _ connected hlive _ _ hlist turn
        rw [if_neg hfree] at hturn
        obtain ⟨hqlive, hqlist, hqdeleted, hqhost⟩ := hturn
        obtain ⟨fuel, p', hclose, hempty, hdeleted⟩ := ih hqlive hqlist (hqhost ▸ hrest)
        refine ⟨fuel + 1, p', (hq fuel).trans hclose, hempty, ?_⟩
        rw [hdeleted, hqdeleted, hqlist, hlist, List.reverse_cons, List.append_assoc]
        rfl
      cases hhost : p.onHost i with
      | false =>
          rw [List.map_cons, hhost] at h
          exact hstep turn (by simp [hhost]) h
      | true =>
          rw [List.map_cons, hhost] at h
          obtain ⟨later, hlater, hconnected, hrest⟩ := h
          -- the head stays until there is a connection
          obtain ⟨wait, rfl⟩ := Nat.exists_eq_add_of_le hlater
          clear hlater
          induction wait generalizing turn with
          | zero => exact hstep turn (by simp_all) hrest
          | succ wait ihWait =>
              have hwait : turn + (wait + 1) = turn + 1 + wait := by omega
              rw [hwait] at hconnected hrest
              by_cases hnow : connected turn = true
              · exact hstep turn (by simp [hnow]) (hrest.earlier (by omega))
              · obtain ⟨fuel, p', hclose, hdone⟩ := ihWait hconnected hrest
                obtain ⟨q, hq, hturn⟩ := @closeLoop_cons _ connected hlive _ _ hlist turn
                rw [if_pos ⟨hhost, by simpa using hnow⟩] at hturn
                exact ⟨fuel + 1, p', (hq fuel).trans (hturn ▸ hclose), hdone⟩

/-- The device of a process is closed, and each buffer on its list freed once, where each that is
on the host finds a connection. -/
theorem device_close_iff {pid : Int} (h : Reached pid p) :
    ClosesFrom connected 0 p ↔ Connectable connected (p.allocList.map p.onHost) 0 :=
  ⟨fun ⟨_, _, hclose, _⟩ => connectable_of_closeLoop h.live hclose,
    closesFrom_of_connectable h.live rfl⟩

/-- A buffer that the host textures from is allocated. -/
def allocates (ashmem mmap : Nat) (host : UInt32) : Call :=
  .gralloc_alloc true 2 2 HAL_PIXEL_FORMAT_RGBA_8888 ⟨false, false, true, false, false, true⟩
    (.ok ashmem) (.ok mmap) (some host)

def withBuffer : Process :=
  ((initial 1).gralloc_alloc true 2 2 HAL_PIXEL_FORMAT_RGBA_8888
    ⟨false, false, true, false, false, true⟩ (.ok 5) (.ok 4096) (some 7)).1

theorem withBuffer_reached : Reached 1 withBuffer :=
  .call (c := allocates 5 4096 7) .initial rfl

def withBuffers : Process :=
  (withBuffer.gralloc_alloc true 2 2 HAL_PIXEL_FORMAT_RGBA_8888
    ⟨false, false, true, false, false, true⟩ (.ok 6) (.ok 8192) (some 8)).1

/-- Two buffers find their connections in the second and in the fourth turn. -/
theorem device_close_second_turn : ClosesFrom (fun turn => turn % 2 == 1) 0 withBuffers :=
  (device_close_iff (.call (c := allocates 6 8192 8) withBuffer_reached rfl)).mpr
    ⟨1, by decide, rfl, 3, by decide, rfl, trivial⟩

/-- Without a connection the device is not closed. -/
theorem device_close_stuck : Reached 1 withBuffer ∧ ¬ClosesFrom (fun _ => false) 0 withBuffer := by
  refine ⟨withBuffer_reached, fun ⟨_, _, hclose, _⟩ => ?_⟩
  obtain ⟨later, -, hconnected, -⟩ := connectable_of_closeLoop withBuffer_reached.live hclose
  cases hconnected

end Process

end AndroidRenderer.Gralloc
