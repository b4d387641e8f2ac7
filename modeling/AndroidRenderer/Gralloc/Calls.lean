import AndroidRenderer.Gralloc.Gralloc

/-!
# What calls do to a process

The cases of each call: what it does when it succeeds, and what it leaves when it fails.
-/

namespace AndroidRenderer.Gralloc

theorem neg_EIO : - EIO < 0 := by decide

theorem neg_EINVAL : -EINVAL < 0 := by decide

theorem neg_EACCES : -EACCES < 0 := by decide

theorem neg_EBUSY : -EBUSY < 0 := by decide

theorem neg_errno (errno : Errno) : -(errno : Int) < 0 := Int.neg_neg_of_pos errno.property

/-- The references that a message adds to those of a color buffer on the host. -/
def HostCall.references (H : UInt32) : HostCall → Int
  | .rcCreateColorBuffer hostHandle => if hostHandle = H then 1 else 0
  | .rcOpenColorBuffer hostHandle => if hostHandle = H then 1 else 0
  | .rcCloseColorBuffer hostHandle => if hostHandle = H then -1 else 0
  | .rcColorBufferCacheFlush _ => 0
  | .rcUpdateColorBuffer _ => 0

namespace Process

variable {p p' q : Process}

/-- The creates and opens minus the closes that have been sent for a color buffer. -/
def references (p : Process) (H : UInt32) : Int := (p.sent.map (HostCall.references H)).sum

theorem references_of_sent (h : p'.sent = p.sent) (H : UInt32) :
    p'.references H = p.references H := by
  rw [references, h, references]

@[simp] theorem references_send (p : Process) (call : HostCall) (H : UInt32) :
    (p.send call).references H = p.references H + call.references H := by
  simp [references, send]

/-! ## Handles -/

variable {h : HandleId} {cb : cb_handle_t} {handle : Option HandleId} {r : Process × Int}
  {usage : Usage} {host : Option UInt32} {mmap : Except Errno Nat} {connected : Bool}

@[grind =] theorem handle_ok :
    p.handle h = .ok cb ↔ p.handles[h]? = some cb ∧ h ∉ p.deleted := by
  unfold handle
  grind

structure Gets (p : Process) (handle : Option HandleId) (h : HandleId) (cb : cb_handle_t) :
    Prop where
  some : handle = some h
  live : p.handle h = .ok cb
  valid : cb.validate = true

theorem Gets.getElem (hgets : p.Gets handle h cb) : p.handles[h]? = .some cb :=
  (handle_ok.mp hgets.live).1

theorem Gets.unique {h' : HandleId} {cb' : cb_handle_t}
    (hgets : p.Gets handle h cb) (hgets' : p.Gets handle h' cb') : h' = h ∧ cb' = cb := by
  have heq : h' = h := Option.some.inj (hgets'.some.symm.trans hgets.some)
  subst heq
  exact ⟨rfl, Except.ok.inj (hgets'.live.symm.trans hgets.live)⟩

/-- A call has no valid handle, or goes on with the one it gets. -/
theorem withHandle_cases {body : HandleId → cb_handle_t → Except MemoryFault (Process × Int)}
    (h : p.withHandle handle body = .ok r) :
    (r = (p, -EINVAL) ∧ ∀ h cb, ¬p.Gets handle h cb) ∨
      ∃ h cb, p.Gets handle h cb ∧ body h cb = .ok r := by
  obtain ⟨validated, hvalidated, h⟩ := Run.bind_eq_ok.mp h
  cases handle with
  | none =>
      cases hvalidated
      cases h
      exact .inl ⟨rfl, fun h cb hgets => nomatch hgets.some⟩
  | some h₀ =>
      obtain ⟨cb, hcb, rfl⟩ := Run.map_eq_ok.mp hvalidated
      split at h
      · rename_i hnone
        split at hnone
        · cases hnone
        · rename_i hinvalid
          cases h
          refine .inl ⟨rfl, fun h cb' hgets => ?_⟩
          cases hgets.some
          cases Except.ok.inj (hgets.live.symm.trans hcb)
          exact hinvalid hgets.valid
      · rename_i h' cb' hsome
        split at hsome
        · rename_i hvalid
          cases hsome
          exact .inr ⟨h₀, cb, ⟨rfl, hcb, hvalid⟩, h⟩
        · cases hsome

theorem withHandle_some (hcb : p.handle h = .ok cb)
    (hvalid : cb.validate = true)
    (body : HandleId → cb_handle_t → Except MemoryFault (Process × Int)) :
    p.withHandle (some h) body = body h cb := by
  have hvalidated : p.validated (some h) = .ok (some (h, cb)) := by
    rw [validated, hcb]
    simp [Except.map, hvalid]
  rw [withHandle, hvalidated]
  rfl

theorem modifyHandle_last {handles : List cb_handle_t}
    (h : q.handles = handles ++ [cb]) (f : cb_handle_t → cb_handle_t) :
    (q.modifyHandle handles.length f).handles = handles ++ [f cb] := by
  rw [modifyHandle, h]
  apply List.ext_getElem?
  grind

theorem modifyHandle_getElem? (p : Process) (h h' : HandleId) (f : cb_handle_t → cb_handle_t) :
    (p.modifyHandle h f).handles[h']? =
      (p.handles[h']?).map fun cb => if h = h' then f cb else cb := by
  rw [modifyHandle, List.getElem?_modify]
  rfl

theorem map_buffer_cases (p : Process) (h : HandleId) (cb : cb_handle_t)
    (mmap : Except Errno Nat) :
    (∃ err, p.map_buffer h cb mmap = .error err ∧ err < 0 ∧
        ¬((0 ≤ cb.fd ∧ 0 < cb.ashmemSize) ∧ ∃ addr, mmap = .ok addr)) ∨
      ∃ addr, mmap = .ok addr ∧ 0 ≤ cb.fd ∧ 0 < cb.ashmemSize ∧ p.map_buffer h cb mmap = .ok
        ((p.addMapping ⟨addr, cb.ashmemSize.toNat, h⟩).modifyHandle h fun cb =>
          { cb with ashmemBase := addr, ashmemBasePid := p.pid }) := by
  unfold map_buffer
  split
  · grind [neg_EINVAL]
  · grind

/-! ## `gralloc_alloc` -/

structure NewHandle (p p' : Process) (cb : cb_handle_t) (mapped : List Mapping) : Prop where
  pid : p'.pid = p.pid
  handles : p'.handles = p.handles ++ [cb]
  mappings : p'.mappings = mapped ++ p.mappings

/-- The state of a `gralloc_alloc` with a handle and its descriptor, before the color buffer. -/
structure Prepared (p q : Process) (cb : cb_handle_t) (mapped : List Mapping) : Prop
    extends NewHandle p q cb mapped where
  deleted : q.deleted = p.deleted
  allocList : q.allocList = p.allocList
  sent : q.sent = p.sent
  fds : (q.close cb.fd).fds = p.fds
  hostHandle : cb.hostHandle = 0
  mappedPid : cb.mappedPid = 0

/-- The new handle is deleted again, and all but its mapping undone. -/
structure Discarded (p p' : Process) : Prop where
  deleted : p'.deleted = p.handles.length :: p.deleted
  allocList : p'.allocList = p.allocList
  fds : p'.fds = p.fds
  references : ∀ H, H ≠ 0 → p'.references H = p.references H

/-- The new handle is put on the list, with a reference to its color buffer. -/
structure Kept (p p' : Process) (cb : cb_handle_t) : Prop where
  deleted : p'.deleted = p.deleted
  allocList : p'.allocList = p.handles.length :: p.allocList
  references : ∀ H, H ≠ 0 →
    p'.references H = p.references H + if cb.hostHandle = H then 1 else 0

def NoColorBuffer (usage : Usage) (host : Option UInt32) : Prop :=
  usage.HW = true ∧ (host = none ∨ host = some 0)

structure SameRegion (cb cb' : cb_handle_t) : Prop where
  ashmemSize : cb'.ashmemSize = cb.ashmemSize
  ashmemBase : cb'.ashmemBase = cb.ashmemBase
  ashmemBasePid : cb'.ashmemBasePid = cb.ashmemBasePid
  mappedPid : cb'.mappedPid = cb.mappedPid

theorem SameRegion.refl (cb : cb_handle_t) : SameRegion cb cb := ⟨rfl, rfl, rfl, rfl⟩

theorem Prepared.discarded {mapped : List Mapping} (h : Prepared p q cb mapped)
    (hsent : ∀ H, H ≠ 0 → q.references H = p.references H) (error : Int) :
    NewHandle p (q.allocFailure p.handles.length cb.fd error).1 cb mapped ∧
      Discarded p (q.allocFailure p.handles.length cb.fd error).1 :=
  ⟨⟨h.pid, h.handles, h.mappings⟩,
    ⟨congrArg (p.handles.length :: ·) h.deleted, h.allocList, h.fds, hsent⟩⟩

theorem allocColorBuffer_cases {mapped : List Mapping} (h : Prepared p q cb mapped)
    (hr : q.allocColorBuffer p.handles.length cb.fd usage host = r) :
    (NoColorBuffer usage host ∧ NewHandle p r.1 cb mapped ∧ Discarded p r.1 ∧ r.2 < 0) ∨
      (¬NoColorBuffer usage host ∧ r.2 = 0 ∧ ∃ cb', NewHandle p r.1 cb' mapped ∧
        SameRegion cb cb' ∧ Kept p r.1 cb' ∧
        (cb'.hostHandle ≠ 0 → host = some cb'.hostHandle)) := by
  unfold allocColorBuffer at hr
  split at hr
  · rename_i hHW
    cases host with
    | none =>
        cases hr
        obtain ⟨hnew, hdiscarded⟩ := h.discarded (fun H _ => references_of_sent h.sent H) (- EIO)
        exact .inl ⟨⟨hHW, .inl rfl⟩, hnew, hdiscarded, neg_EIO⟩
    | some hostHandle =>
        dsimp only at hr
        split at hr
        · rename_i hzero
          subst hzero
          cases hr
          refine .inl ⟨⟨hHW, .inr rfl⟩, ⟨h.pid, h.handles, h.mappings⟩, ⟨?_, h.allocList, h.fds,
            fun H hH => ?_⟩, neg_EIO⟩
          · exact congrArg (p.handles.length :: ·) h.deleted
          · have hreferences : (q.send (.rcCreateColorBuffer 0)).references H =
                p.references H := by
              rw [references_send, references_of_sent h.sent, HostCall.references,
                if_neg (Ne.symm hH), Int.add_zero]
            exact hreferences
        · rename_i hne
          cases hr
          refine .inr ⟨?_, rfl, { cb with hostHandle := hostHandle }, ⟨h.pid, ?_, h.mappings⟩,
            ⟨rfl, rfl, rfl, rfl⟩, ⟨h.deleted, ?_, fun H _ => ?_⟩, fun _ => rfl⟩
          · rintro ⟨-, hnone | hzero⟩
            · cases hnone
            · exact hne (Option.some.inj hzero)
          · exact modifyHandle_last h.handles _
          · exact congrArg (p.handles.length :: ·) h.allocList
          · have hreferences : (q.send (.rcCreateColorBuffer hostHandle)).references H =
                p.references H + if hostHandle = H then 1 else 0 := by
              rw [references_send, references_of_sent h.sent]
              rfl
            exact hreferences
  · rename_i hHW
    cases hr
    refine .inr ⟨fun hno => hHW hno.1, rfl, cb, ⟨h.pid, h.handles, h.mappings⟩,
      ⟨rfl, rfl, rfl, rfl⟩, ⟨h.deleted, ?_, fun H hH => ?_⟩, fun hne => absurd h.hostHandle hne⟩
    · exact congrArg (p.handles.length :: ·) h.allocList
    · rw [h.hostHandle, if_neg (Ne.symm hH), Int.add_zero]
      exact references_of_sent h.sent H

/-- The size of the region of a new handle, 0 or less where it has none. -/
def regionSize (w h format : Int) (usage : Usage) : Int :=
  (pixelLayout format usage).elim 0 fun l =>
    if 0 < ashmemSize l w h usage then roundToPage (ashmemSize l w h usage)
    else ashmemSize l w h usage

/-- A `gralloc_alloc` that fails once it has mapped the region. -/
structure LeaksMapping (args : Bool) (w h format : Int) (usage : Usage)
    (ashmem mmap : Except Errno Nat) (host : Option UInt32) : Prop where
  args : args = true
  allowed : ¬(usage.HW_RENDER && usage.SW_WRITE) = true
  region : 0 < regionSize w h format usage
  ashmem : ∃ fd, ashmem = .ok fd
  mmap : ∃ addr, mmap = .ok addr
  noColorBuffer : NoColorBuffer usage host

def MapsRegion (p : Process) (cb : cb_handle_t) (mmap : Except Errno Nat)
    (mapped : List Mapping) : Prop :=
  (mapped = [] ∧ cb.ashmemSize ≤ 0) ∨
    ∃ addr, mmap = .ok addr ∧ mapped = [⟨addr, cb.ashmemSize.toNat, p.handles.length⟩] ∧
      0 < cb.ashmemSize ∧ cb.ashmemBase = addr ∧ cb.ashmemBasePid = p.pid

/-- A `gralloc_alloc` that leaves nothing behind. -/
structure AllocFails (p : Process) (r : Process × Int) : Prop where
  undone : r.1 = p ∨ ∃ cb, NewHandle p r.1 cb [] ∧ Discarded p r.1
  negative : r.2 < 0

/-- A `gralloc_alloc` that leaves a mapping of size `size` behind. -/
structure AllocLeaks (p : Process) (r : Process × Int) (size : Int) : Prop where
  leaked : ∃ cb addr, cb.ashmemSize = size ∧
    NewHandle p r.1 cb [⟨addr, size.toNat, p.handles.length⟩] ∧ Discarded p r.1
  negative : r.2 < 0

/-- A `gralloc_alloc` that succeeds. -/
structure AllocDone (p : Process) (r : Process × Int) (size : Int) (mmap : Except Errno Nat)
    (host : Option UInt32) (cb : cb_handle_t) (mapped : List Mapping) : Prop where
  zero : r.2 = 0
  new : NewHandle p r.1 cb mapped
  kept : Kept p r.1 cb
  maps : MapsRegion p cb mmap mapped
  ashmemSize : cb.ashmemSize = size
  mappedPid : cb.mappedPid = 0
  host : cb.hostHandle ≠ 0 → host = some cb.hostHandle

/-- The state with the descriptor of the region, if there is one. -/
structure Opened (p₀ p : Process) (fd : Int) : Prop where
  pid : p.pid = p₀.pid
  handles : p.handles = p₀.handles
  mappings : p.mappings = p₀.mappings
  deleted : p.deleted = p₀.deleted
  allocList : p.allocList = p₀.allocList
  sent : p.sent = p₀.sent
  fds : (p.close fd).fds = p₀.fds

theorem opened_openFd {fd : Nat} (h : fd ∉ p.fds) : Opened p (p.openFd fd) fd := by
  refine ⟨rfl, rfl, rfl, rfl, rfl, rfl, ?_⟩
  rw [close, openFd, List.filter_cons_of_neg (by simp)]
  apply List.filter_eq_self.mpr
  grind

theorem opened_none (p : Process) : Opened p p (-1) := by
  refine ⟨rfl, rfl, rfl, rfl, rfl, rfl, ?_⟩
  apply List.filter_eq_self.mpr
  simp

theorem prepared_new {p₀ : Process} (h : Opened p₀ p cb.fd)
    (hhost : cb.hostHandle = 0) (hpid : cb.mappedPid = 0) : Prepared p₀ (p.newHandle cb) cb [] :=
  ⟨⟨h.pid, congrArg (· ++ [cb]) h.handles, h.mappings⟩, h.deleted, h.allocList, h.sent, h.fds,
    hhost, hpid⟩

def mappedHandle (p : Process) (cb : cb_handle_t) (addr : Nat) : cb_handle_t :=
  { cb with ashmemBase := addr, ashmemBasePid := p.pid }.setFd cb.fd

theorem prepared_mapped {p₀ : Process} (h : Opened p₀ p cb.fd)
    (hhost : cb.hostHandle = 0) (hpid : cb.mappedPid = 0) (addr : Nat) :
    Prepared p₀ ((((p.newHandle cb).addMapping
        ⟨addr, cb.ashmemSize.toNat, p₀.handles.length⟩).modifyHandle p₀.handles.length fun cb =>
          { cb with ashmemBase := addr, ashmemBasePid := p.pid }).modifyHandle p₀.handles.length
        fun cb => cb.setFd cb.fd)
      (p.mappedHandle cb addr) [⟨addr, cb.ashmemSize.toNat, p₀.handles.length⟩] := by
  have hnew : ((p.newHandle cb).addMapping
      ⟨addr, cb.ashmemSize.toNat, p₀.handles.length⟩).handles = p₀.handles ++ [cb] :=
    congrArg (· ++ [cb]) h.handles
  refine ⟨⟨h.pid, ?_, ?_⟩, h.deleted, h.allocList, h.sent, h.fds, hhost, hpid⟩
  · exact modifyHandle_last (modifyHandle_last hnew _) _
  · exact congrArg (⟨addr, cb.ashmemSize.toNat, p₀.handles.length⟩ :: ·) h.mappings

/-- The part of `gralloc_alloc` for a region that exists, or for none. -/
theorem allocHandle_cases {p₀ : Process} (h : Opened p₀ p cb.fd)
    (hhost : cb.hostHandle = 0) (hpid : cb.mappedPid = 0) (hfd : 0 < cb.ashmemSize → 0 ≤ cb.fd)
    (hr : p.allocHandle cb mmap host = r) :
    (AllocFails p₀ r ∧
        ¬(0 < cb.ashmemSize ∧ (∃ addr, mmap = .ok addr) ∧ NoColorBuffer cb.usage host)) ∨
      (AllocLeaks p₀ r cb.ashmemSize ∧ 0 < cb.ashmemSize ∧ (∃ addr, mmap = .ok addr) ∧
        NoColorBuffer cb.usage host) ∨
      (¬NoColorBuffer cb.usage host ∧
        ∃ cb' mapped, AllocDone p₀ r cb.ashmemSize mmap host cb' mapped) := by
  have hprepared := prepared_new h hhost hpid
  unfold allocHandle at hr
  dsimp only at hr
  split at hr
  · rename_i hsize
    have hfd₀ := hfd hsize
    rcases (p.newHandle cb).map_buffer_cases p.handles.length cb mmap with
      ⟨err, hmap, herr, hnot⟩ | ⟨addr, haddr, -, -, hmap⟩
    · rw [hmap, h.handles] at hr
      subst hr
      obtain ⟨hnew, hdiscarded⟩ :=
        hprepared.discarded (fun H _ => references_of_sent hprepared.sent H) err
      refine .inl ⟨⟨.inr ⟨cb, hnew, hdiscarded⟩, herr⟩, ?_⟩
      grind
    · rw [hmap, h.handles] at hr
      have hmapped := prepared_mapped h hhost hpid addr
      rcases allocColorBuffer_cases hmapped hr with
        ⟨hno, hnew, hdiscarded, hneg⟩ | ⟨hcolor, hzero, cb', hnew, hregion, hkept, hhost'⟩
      · exact .inr (.inl ⟨⟨⟨p.mappedHandle cb addr, addr, rfl, hnew, hdiscarded⟩, hneg⟩, hsize,
          ⟨addr, haddr⟩, hno⟩)
      · have hsize' : cb'.ashmemSize = cb.ashmemSize := hregion.ashmemSize
        refine .inr (.inr ⟨hcolor, cb', _, ⟨hzero, hnew, hkept, .inr ⟨addr, haddr, ?_⟩, hsize',
          hregion.mappedPid.trans hpid, hhost'⟩⟩)
        exact ⟨by rw [hsize'], by omega, hregion.ashmemBase,
          hregion.ashmemBasePid.trans h.pid⟩
  · rename_i hsize
    rw [h.handles] at hr
    rcases allocColorBuffer_cases hprepared hr with
      ⟨hno, hnew, hdiscarded, hneg⟩ | ⟨hcolor, hzero, cb', hnew, hregion, hkept, hhost'⟩
    · exact .inl ⟨⟨.inr ⟨cb, hnew, hdiscarded⟩, hneg⟩, fun hleaks => hsize hleaks.1⟩
    · refine .inr (.inr ⟨hcolor, cb', [], ⟨hzero, hnew, hkept, .inl ⟨rfl, ?_⟩, hregion.ashmemSize,
        hregion.mappedPid.trans hpid, hhost'⟩⟩)
      rw [hregion.ashmemSize]
      omega

theorem gralloc_alloc_cases {args : Bool} {w h format : Int}
    {ashmem : Except Errno Nat}
    (hfresh : ∀ fd, ashmem = .ok fd → fd ∉ p.fds)
    (hr : p.gralloc_alloc args w h format usage ashmem mmap host = r) :
    (AllocFails p r ∧ ¬LeaksMapping args w h format usage ashmem mmap host) ∨
      (AllocLeaks p r (regionSize w h format usage) ∧
        LeaksMapping args w h format usage ashmem mmap host) ∨
      ¬LeaksMapping args w h format usage ashmem mmap host ∧
        ∃ cb mapped, AllocDone p r (regionSize w h format usage) mmap host cb mapped := by
  unfold gralloc_alloc at hr
  split at hr
  · rename_i hargs
    subst hr
    refine .inl ⟨⟨.inl rfl, neg_EINVAL⟩, fun hleaks => ?_⟩
    simp [hleaks.args] at hargs
  · rename_i hargs
    split at hr
    · rename_i hdenied
      subst hr
      exact .inl ⟨⟨.inl rfl, neg_EINVAL⟩, fun hleaks => hleaks.allowed hdenied⟩
    · rename_i hallowed
      cases hlayout : pixelLayout format usage with
      | none =>
          rw [hlayout] at hr
          subst hr
          refine .inl ⟨⟨.inl rfl, neg_EINVAL⟩, fun hleaks => ?_⟩
          grind [regionSize, hleaks.region]
      | some l =>
          rw [hlayout] at hr
          dsimp only at hr
          split at hr
          · rename_i hpos
            have hregion : regionSize w h format usage =
                roundToPage (ashmemSize l w h usage) := by grind [regionSize]
            cases ashmem with
            | error errno =>
                subst hr
                refine .inl ⟨⟨.inl rfl, neg_errno errno⟩, fun hleaks => ?_⟩
                grind [hleaks.ashmem]
            | ok fd =>
                rw [hregion]
                have hopened : Opened p (p.openFd fd) (cb_handle_t.new fd
                    (roundToPage (ashmemSize l w h usage)) usage w h l.glFormat l.glType).fd :=
                  opened_openFd (hfresh fd rfl)
                rcases allocHandle_cases hopened rfl rfl (fun _ => Int.natCast_nonneg fd) hr with
                  ⟨hfails, hnot⟩ | ⟨hleaks, hsize, hmmap, hno⟩ | ⟨hcolor, cb, mapped, hdone⟩
                · refine .inl ⟨hfails, fun hleaks => hnot ⟨?_, hleaks.mmap, hleaks.noColorBuffer⟩⟩
                  exact hregion ▸ hleaks.region
                · exact .inr (.inl ⟨hleaks, by simpa using hargs, hallowed, hregion.symm ▸ hsize,
                    ⟨fd, rfl⟩, hmmap, hno⟩)
                · exact .inr (.inr ⟨fun hleaks => hcolor hleaks.noColorBuffer, cb, mapped, hdone⟩)
          · rename_i hpos
            have hregion : regionSize w h format usage = ashmemSize l w h usage := by
              grind [regionSize]
            rw [hregion]
            have hsize : ¬0 < regionSize w h format usage := hregion.symm ▸ hpos
            rcases allocHandle_cases p.opened_none rfl rfl (fun hsize => absurd hsize hpos) hr with
              ⟨hfails, -⟩ | ⟨-, hleaks, -⟩ | ⟨hcolor, cb, mapped, hdone⟩
            · exact .inl ⟨hfails, fun hleaks => hsize hleaks.region⟩
            · exact absurd hleaks hpos
            · exact .inr (.inr ⟨fun hleaks => hsize hleaks.region, cb, mapped, hdone⟩)

/-! ## The other calls -/

/-- The host can be told of what becomes of the color buffer, if there is one. -/
def Connects (cb : cb_handle_t) (connected : Bool) : Prop :=
  cb.hostHandle = 0 ∨ connected = true

/-- A call that fails before it does anything. -/
structure Refused (p : Process) (r : Process × Int) (handle : Option HandleId)
    (connected : Bool) : Prop where
  unchanged : r.1 = p
  negative : r.2 < 0
  refused : ∀ h cb, p.Gets handle h cb → ¬Connects cb connected

/-- A call is refused, or goes on with a handle whose color buffer can be told of. -/
theorem withHandle_connects {body : HandleId → cb_handle_t → Process × Int}
    (h : p.withHandle handle (fun h cb =>
      if cb.hostHandle ≠ 0 ∧ !connected then .ok (p, - EIO) else .ok (body h cb)) = .ok r) :
    Refused p r handle connected ∨
      ∃ h cb, p.Gets handle h cb ∧ Connects cb connected ∧ r = body h cb := by
  rcases withHandle_cases h with ⟨rfl, hnone⟩ | ⟨h', cb, hgets, hbody⟩
  · exact .inl ⟨rfl, neg_EINVAL, fun h cb hgets => absurd hgets (hnone h cb)⟩
  · split at hbody
    · rename_i hno
      cases hbody
      refine .inl ⟨rfl, neg_EIO, fun h cb' hgets' hconnects => ?_⟩
      obtain ⟨rfl, rfl⟩ := hgets.unique hgets'
      rcases hconnects with hzero | hconnected
      · exact hno.1 hzero
      · simp [hconnected] at hno
    · rename_i hyes
      cases hbody
      refine .inr ⟨h', cb, hgets, ?_, rfl⟩
      by_cases hzero : cb.hostHandle = 0
      · exact .inl hzero
      · right
        by_contra hconnected
        exact hyes ⟨hzero, by simpa using hconnected⟩

/-- What is left of a buffer that has been freed. -/
def freed (p : Process) (h : HandleId) (cb : cb_handle_t) : Process :=
  (((p.closeColorBuffer cb).detachAshmem cb).removeAllocated h).deleteHandle h

def freedMappings (p : Process) (cb : cb_handle_t) : List Mapping :=
  if 0 < cb.fd ∧ 0 < cb.ashmemSize ∧ cb.ashmemBase ≠ 0 then
    AddressSpace.unmap p.mappings cb.ashmemBase cb.ashmemSize.toNat
  else p.mappings

/-- The buffer is taken off the list and deleted; of the rest only messages, mappings and descriptors
change. -/
theorem freed_eq (p : Process) (h : HandleId) (cb : cb_handle_t) :
    ∃ fds, p.freed h cb = { p with
      mappings := p.freedMappings cb, fds := fds, sent := (p.closeColorBuffer cb).sent,
      allocList := p.allocList.erase h, deleted := h :: p.deleted } := by
  have hclose : p.closeColorBuffer cb = { p with sent := (p.closeColorBuffer cb).sent } := by
    unfold closeColorBuffer
    split <;> rfl
  have hdetach : ∀ q : Process, ∃ fds,
      q.detachAshmem cb = { q with mappings := q.freedMappings cb, fds := fds } := by
    intro q
    unfold detachAshmem freedMappings
    by_cases hfd : 0 < cb.fd
    · by_cases hmapped : 0 < cb.ashmemSize ∧ cb.ashmemBase ≠ 0
      · rw [if_pos hfd, if_pos hmapped, if_pos ⟨hfd, hmapped⟩]
        exact ⟨_, rfl⟩
      · rw [if_pos hfd, if_neg hmapped, if_neg fun hall => hmapped hall.2]
        exact ⟨_, rfl⟩
    · rw [if_neg hfd, if_neg fun hall => hfd hall.1]
      exact ⟨_, rfl⟩
  obtain ⟨fds, heq⟩ := hdetach (p.closeColorBuffer cb)
  refine ⟨fds, ?_⟩
  rw [freed, heq, removeAllocated, deleteHandle, hclose]
  rfl

theorem gralloc_free_cases (hr : p.gralloc_free handle connected = .ok r) :
    Refused p r handle connected ∨
      ∃ h cb, p.Gets handle h cb ∧ Connects cb connected ∧ r = (p.freed h cb, 0) :=
  withHandle_connects hr

theorem gralloc_register_buffer_cases
    (hr : p.gralloc_register_buffer handle connected mmap = .ok r) :
    Refused p r handle connected ∨
      ∃ h cb, p.Gets handle h cb ∧ Connects cb connected ∧
        r = (p.openColorBuffer cb).registerMapping h cb mmap :=
  withHandle_connects hr

theorem gralloc_unregister_buffer_cases (hr : p.gralloc_unregister_buffer handle connected = .ok r)
    :
    Refused p r handle connected ∨
      ∃ h cb, p.Gets handle h cb ∧ Connects cb connected ∧
        r = ((p.closeColorBuffer cb).unregisterMapping h cb, 0) :=
  withHandle_connects hr

/-- The mapping that a registration makes. -/
def registered (p : Process) (h : HandleId) (cb : cb_handle_t) (addr : Nat) : Process :=
  ((p.addMapping ⟨addr, cb.ashmemSize.toNat, h⟩).modifyHandle h fun cb =>
    { cb with ashmemBase := addr, ashmemBasePid := p.pid }).modifyHandle h fun cb =>
      { cb with mappedPid := p.pid }

theorem registered_eq (p : Process) (h : HandleId) (cb : cb_handle_t) (addr : Nat) :
    p.registered h cb addr = { p.modifyHandle h fun cb => { cb with
        ashmemBase := addr, ashmemBasePid := p.pid, mappedPid := p.pid } with
      mappings := ⟨addr, cb.ashmemSize.toNat, h⟩ :: p.mappings } := by
  unfold registered modifyHandle addMapping
  dsimp only
  rw [List.modify_modify_eq]
  rfl

theorem registerMapping_cases (hr : p.registerMapping h cb mmap = r) :
    (r = (p, 0) ∧ ¬(0 < cb.ashmemSize ∧ cb.mappedPid ≠ p.pid)) ∨
      ((0 < cb.ashmemSize ∧ cb.mappedPid ≠ p.pid) ∧
        ((r.1 = p ∧ 0 < r.2 ∧ ¬(0 ≤ cb.fd ∧ ∃ addr, mmap = .ok addr)) ∨
          ∃ addr, mmap = .ok addr ∧ 0 ≤ cb.fd ∧ r = (p.registered h cb addr, 0))) := by
  unfold registerMapping at hr
  split at hr
  · rename_i hneeds
    refine .inr ⟨hneeds, ?_⟩
    rcases p.map_buffer_cases h cb mmap with ⟨err, hmap, herr, hnot⟩ | ⟨addr, haddr, hfd, -, hmap⟩
    · grind
    · rw [hmap] at hr
      exact .inr ⟨addr, haddr, hfd, hr.symm⟩
  · grind

/-- A handle without the region that is kept while it is locked. -/
def unlocked (cb : cb_handle_t) : cb_handle_t :=
  { cb with lockedLeft := 0, lockedTop := 0, lockedWidth := 0, lockedHeight := 0 }

/-- Nothing is changed but the regions of handles that are locked. -/
structure LocksOnly (p p' : Process) : Prop where
  pid : p'.pid = p.pid
  handles : p'.handles.map unlocked = p.handles.map unlocked
  deleted : p'.deleted = p.deleted
  mappings : p'.mappings = p.mappings
  fds : p'.fds = p.fds
  allocList : p'.allocList = p.allocList
  references : ∀ H, p'.references H = p.references H

theorem LocksOnly.refl (p : Process) : LocksOnly p p :=
  ⟨rfl, rfl, rfl, rfl, rfl, rfl, fun _ => rfl⟩

theorem LocksOnly.trans {p'' : Process} (h : LocksOnly p p') (h' : LocksOnly p' p'') :
    LocksOnly p p'' :=
  ⟨h'.pid.trans h.pid, h'.handles.trans h.handles, h'.deleted.trans h.deleted,
    h'.mappings.trans h.mappings, h'.fds.trans h.fds, h'.allocList.trans h.allocList,
    fun H => (h'.references H).trans (h.references H)⟩

theorem LocksOnly.send {call : HostCall} (hcall : ∀ H, call.references H = 0) :
    LocksOnly p (p.send call) := by
  refine ⟨rfl, rfl, rfl, rfl, rfl, rfl, fun H => ?_⟩
  rw [references_send, hcall, Int.add_zero]

theorem LocksOnly.modifyHandle {f : cb_handle_t → cb_handle_t}
    (hf : ∀ cb, unlocked (f cb) = unlocked cb) (h : HandleId) :
    LocksOnly p (p.modifyHandle h f) := by
  refine ⟨rfl, ?_, rfl, rfl, rfl, rfl, fun _ => rfl⟩
  apply List.ext_getElem?
  intro i
  rw [List.getElem?_map, modifyHandle_getElem?, Option.map_map, List.getElem?_map]
  grind

theorem keepLocked_locksOnly (p : Process) (h : HandleId) (usage : Usage)
    (left top width height : Int) :
    LocksOnly p (p.keepLocked h usage left top width height) := by
  unfold keepLocked
  split
  · apply LocksOnly.modifyHandle
    intro cb
    rfl
  · exact .refl p

def HostLocks (cb : cb_handle_t) (host : Option Int) : Prop :=
  cb.hostHandle = 0 ∨ ∃ hostSyncStatus, host = some hostSyncStatus ∧ 0 ≤ hostSyncStatus

theorem lockColorBuffer_zero {host : Option Int} (hhost : HostLocks cb host)
    (p : Process) (h : HandleId) (usage : Usage) (left top width height : Int) :
    (p.lockColorBuffer h cb usage left top width height host).2 = 0 := by
  unfold lockColorBuffer
  split
  · rfl
  · rename_i hne
    obtain ⟨hostSyncStatus, rfl, hstatus⟩ := hhost.resolve_left hne
    grind

/-- A lock that the usage and the host allow succeeds where this process has mapped the region
last, and the post counter can be read. -/
theorem gralloc_lock_succeeds_iff {left top width height : Int} {host : Option Int}
    (hcb : p.handle h = .ok cb)
    (hvalid : cb.validate = true) (hallowed : lockAllowed cb usage = true)
    (hhost : HostLocks cb host) :
    (∃ p', p.gralloc_lock (some h) usage left top width height host = .ok (p', 0)) ↔
      (cb.ashmemBasePid = p.pid ∧ cb.ashmemBase ≠ 0) ∧ p.readPostCount cb = .ok () := by
  have hsoftware : (cb.canBePosted || usage.SW_READ || usage.SW_WRITE) = true := by
    unfold lockAllowed at hallowed
    grind
  unfold gralloc_lock
  rw [withHandle_some hcb hvalid, hallowed, hsoftware]
  by_cases hmapped : cb.ashmemBasePid = p.pid ∧ cb.ashmemBase ≠ 0
  · have hnot : ¬(cb.ashmemBasePid ≠ p.pid ∨ cb.ashmemBase = 0) := by
      rintro (hpid | hbase)
      · exact hpid hmapped.1
      · exact hmapped.2 hbase
    simp only [Bool.not_true, Bool.false_eq_true, if_false, true_and, if_neg hnot]
    constructor
    · grind [Run.map_eq_ok]
    · rintro ⟨-, hread⟩
      refine ⟨(p.lockColorBuffer h cb usage left top width height host).1, ?_⟩
      rw [hread]
      have hzero := lockColorBuffer_zero hhost p h usage left top width height
      exact congrArg Except.ok (Prod.ext rfl hzero)
  · have hrefused : cb.ashmemBasePid ≠ p.pid ∨ cb.ashmemBase = 0 := by
      by_cases hpid : cb.ashmemBasePid = p.pid
      · exact .inr (not_not.mp fun hbase => hmapped ⟨hpid, hbase⟩)
      · exact .inl hpid
    simp only [Bool.not_true, Bool.false_eq_true, if_false, true_and, if_pos hrefused]
    refine iff_of_false ?_ fun hyes => hmapped hyes.1
    rintro ⟨p', hp'⟩
    have heq : -EACCES = 0 := congrArg Prod.snd (Except.ok.inj hp')
    exact absurd heq (by decide)

theorem gralloc_lock_locksOnly {left top width height : Int} {host : Option Int}
    (hr : p.gralloc_lock handle usage left top width height host = .ok r) :
    LocksOnly p r.1 ∧ (r.2 ≠ 0 → r.2 < 0) := by
  rcases withHandle_cases hr with ⟨rfl, -⟩ | ⟨h, cb, -, hbody⟩
  · exact ⟨.refl p, fun _ => neg_EINVAL⟩
  · split at hbody
    · cases hbody
      exact ⟨.refl p, fun _ => neg_EINVAL⟩
    · split at hbody
      · cases hbody
        exact ⟨.refl p, fun _ => neg_EACCES⟩
      · obtain ⟨-, -, rfl⟩ := Run.map_eq_ok.mp hbody
        have hflush : LocksOnly p (p.send (.rcColorBufferCacheFlush cb.hostHandle)) :=
          .send fun _ => rfl
        unfold lockColorBuffer
        split
        · exact ⟨p.keepLocked_locksOnly h usage left top width height, fun hne => absurd rfl hne⟩
        · split
          · exact ⟨.refl p, fun _ => neg_EIO⟩
          · split
            · exact ⟨hflush, fun _ => neg_EBUSY⟩
            · exact ⟨hflush.trans (keepLocked_locksOnly _ h usage left top width height),
                fun hne => absurd rfl hne⟩

theorem gralloc_unlock_locksOnly (hr : p.gralloc_unlock handle connected = .ok r) :
    LocksOnly p r.1 ∧ (r.2 ≠ 0 → r.2 < 0) := by
  rcases withHandle_cases hr with ⟨rfl, -⟩ | ⟨h, cb, -, hbody⟩
  · exact ⟨.refl p, fun _ => neg_EINVAL⟩
  · have hdrop : ∀ q : Process, LocksOnly q (q.dropLocked h) := by
      intro q
      apply LocksOnly.modifyHandle
      intro cb
      rfl
    split at hbody
    · split at hbody
      · cases hbody
        exact ⟨.refl p, fun _ => neg_EIO⟩
      · obtain ⟨-, -, hbody⟩ := Run.bind_eq_ok.mp hbody
        cases hbody
        have hupdate : LocksOnly p (p.send (.rcUpdateColorBuffer cb.hostHandle)) :=
          .send fun _ => rfl
        exact ⟨hupdate.trans (hdrop _), fun hne => absurd rfl hne⟩
    · grind

end Process

/-! ## Counts of registrations -/

namespace Counted

variable {κ : Type} [DecidableEq κ] {key : HandleId → cb_handle_t → κ} {s : Counted κ}

/-- A call that fails is not counted. -/
theorem count_of_ne {handle : Option HandleId} {result n : Int} (h : result ≠ 0) :
    s.count key handle result n = s.registered := by
  unfold count
  grind

theorem count_of_gets {handle : Option HandleId} {h : HandleId} {cb : cb_handle_t}
    (hgets : s.process.Gets handle h cb) (n : Int) (k : κ) :
    s.count key handle 0 n k = s.registered k + if key h cb = k then n else 0 := by
  unfold count
  grind [hgets.some, hgets.getElem]

/-- The descriptor of a new region is not open. -/
def freshTest (fds : List Nat) : Except Errno Nat → Bool
  | .ok fd => fd ∉ fds
  | .error _ => true

end Counted

end AndroidRenderer.Gralloc
