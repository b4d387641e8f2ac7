import AndroidRenderer.Lib.AddressSpace
import AndroidRenderer.Lib.Run
import AndroidRenderer.OpenglCodecCommon.GL

/-!
# Graphics buffers of a process

A buffer handle of the gralloc module holds the descriptor of an ashmem region for software
access, the address at which it was last mapped and by which process, and the handle of a color
buffer on the host. A process makes handles by `gralloc_alloc`, or receives copies of those of
other processes. What the kernel and the host answer is a parameter of the calls; there is no
fallback module.
-/

namespace AndroidRenderer.Gralloc

/-- The number of a handle of a process. Numbers of deleted handles are not given again. -/
abbrev HandleId := Nat

/-- A positive error number. -/
abbrev Errno := { errno : Int // 0 < errno }

def EIO : Int := 5
def EACCES : Int := 13
def EBUSY : Int := 16
def EINVAL : Int := 22

def HAL_PIXEL_FORMAT_RGBA_8888 : Int := 1
def HAL_PIXEL_FORMAT_RGBX_8888 : Int := 2
def HAL_PIXEL_FORMAT_RGB_888 : Int := 3
def HAL_PIXEL_FORMAT_RGB_565 : Int := 4
def HAL_PIXEL_FORMAT_BGRA_8888 : Int := 5
def HAL_PIXEL_FORMAT_RGBA_5551 : Int := 6
def HAL_PIXEL_FORMAT_RGBA_4444 : Int := 7
def HAL_PIXEL_FORMAT_RAW_SENSOR : Int := 0x20

def PAGE_SIZE : Int := 4096

/-- Which masks of usage bits a usage meets. -/
structure Usage where
  SW_READ : Bool
  SW_WRITE : Bool
  HW_TEXTURE : Bool
  HW_RENDER : Bool
  HW_FB : Bool
  HW : Bool
  deriving DecidableEq, Repr

structure cb_handle_t where
  version : Int
  numFds : Int
  numInts : Int
  fd : Int
  magic : Int
  usage : Usage
  width : Int
  height : Int
  glFormat : GLenum
  glType : GLenum
  ashmemSize : Int
  ashmemBase : Nat
  ashmemBasePid : Int
  mappedPid : Int
  lockedLeft : Int
  lockedTop : Int
  lockedWidth : Int
  lockedHeight : Int
  hostHandle : UInt32
  deriving DecidableEq, Repr

def BUFFER_HANDLE_MAGIC : Int := GLint 0xabfabfab

/-- `sizeof(native_handle)` -/
def sizeof_native_handle : Int := 12

/-- `sizeof(cb_handle_t)` is 76. -/
def CB_HANDLE_NUM_INTS (nfds : Int) : Int := (76 - nfds * 4) / 4

namespace cb_handle_t

/-- `cb_handle_t::cb_handle_t` -/
def new (p_fd p_ashmemSize : Int) (p_usage : Usage) (p_width p_height : Int)
    (p_glFormat p_glType : GLenum) : cb_handle_t where
  version := sizeof_native_handle
  numFds := 0
  numInts := CB_HANDLE_NUM_INTS 0
  fd := p_fd
  magic := BUFFER_HANDLE_MAGIC
  usage := p_usage
  width := p_width
  height := p_height
  glFormat := p_glFormat
  glType := p_glType
  ashmemSize := p_ashmemSize
  ashmemBase := 0
  ashmemBasePid := 0
  mappedPid := 0
  lockedLeft := 0
  lockedTop := 0
  lockedWidth := 0
  lockedHeight := 0
  hostHandle := 0

def setFd (cb : cb_handle_t) (p_fd : Int) : cb_handle_t :=
  let numFds := if 0 ≤ p_fd then 1 else 0
  { cb with numFds := numFds, fd := p_fd, numInts := CB_HANDLE_NUM_INTS numFds }

def validate (hnd : cb_handle_t) : Bool :=
  hnd.version = sizeof_native_handle && hnd.magic = BUFFER_HANDLE_MAGIC &&
    hnd.numInts = CB_HANDLE_NUM_INTS hnd.numFds

def canBePosted (cb : cb_handle_t) : Bool := cb.usage.HW_FB

end cb_handle_t

/-- A mapping of an ashmem region into a process, with the handle through whose descriptor it has
been mapped. -/
abbrev Mapping := AddressSpace.Mapping HandleId

inductive HostCall
  | rcCreateColorBuffer (hostHandle : UInt32)
  | rcOpenColorBuffer (hostHandle : UInt32)
  | rcCloseColorBuffer (hostHandle : UInt32)
  | rcColorBufferCacheFlush (hostHandle : UInt32)
  | rcUpdateColorBuffer (hostHandle : UInt32)
  deriving DecidableEq, Repr

/-- A process with its gralloc device. -/
structure Process where
  pid : Int
  handles : List cb_handle_t
  deleted : List HandleId
  mappings : List Mapping
  fds : List Nat
  allocList : List HandleId
  sent : List HostCall
  deriving DecidableEq, Repr

namespace Process

def initial (pid : Int) : Process := ⟨pid, [], [], [], [], [], []⟩

/-- An access through a pointer to a handle. -/
def handle (p : Process) (h : HandleId) : Except MemoryFault cb_handle_t :=
  match p.handles[h]? with
  | none => .error .outOfBounds
  | some cb => if h ∈ p.deleted then .error .useAfterFree else .ok cb

/-- The handle behind a pointer, if it passes `cb_handle_t::validate`. -/
def validated (p : Process) :
    Option HandleId → Except MemoryFault (Option (HandleId × cb_handle_t))
  | none => .ok none
  | some h => (p.handle h).map fun cb => if cb.validate then some (h, cb) else none

/-- The part of a call that follows the validation of its handle. -/
def withHandle (p : Process) (handle : Option HandleId)
    (body : HandleId → cb_handle_t → Except MemoryFault (Process × Int)) :
    Except MemoryFault (Process × Int) := do
  match ← p.validated handle with
  | none => return (p, -EINVAL)
  | some (h, cb) => body h cb

/-- `new cb_handle_t` -/
def newHandle (p : Process) (cb : cb_handle_t) : Process := { p with handles := p.handles ++ [cb] }

/-- `delete cb` -/
def deleteHandle (p : Process) (h : HandleId) : Process := { p with deleted := h :: p.deleted }

def modifyHandle (p : Process) (h : HandleId) (f : cb_handle_t → cb_handle_t) : Process :=
  { p with handles := p.handles.modify h f }

def openFd (p : Process) (fd : Nat) : Process := { p with fds := fd :: p.fds }

/-- `close`, which does nothing where the descriptor is not open. -/
def close (p : Process) (fd : Int) : Process :=
  { p with fds := p.fds.filter fun fd' => (fd' : Int) ≠ fd }

def addMapping (p : Process) (m : Mapping) : Process := { p with mappings := m :: p.mappings }

/-- `munmap`; a mapping that loses addresses is no longer one of its region. -/
def munmap (p : Process) (addr size : Nat) : Process :=
  { p with mappings := AddressSpace.unmap p.mappings addr size }

def send (p : Process) (call : HostCall) : Process := { p with sent := p.sent ++ [call] }

def insertAllocated (p : Process) (h : HandleId) : Process :=
  { p with allocList := h :: p.allocList }

def removeAllocated (p : Process) (h : HandleId) : Process :=
  { p with allocList := p.allocList.erase h }

/-- `map_buffer`; `mmap` is the address or the error. -/
def map_buffer (p : Process) (h : HandleId) (cb : cb_handle_t) (mmap : Except Errno Nat) :
    Except Int Process :=
  if cb.fd < 0 ∨ cb.ashmemSize ≤ 0 then .error (-EINVAL)
  else
    match mmap with
    | .error errno => .error (-errno)
    | .ok addr => .ok
        ((p.addMapping ⟨addr, cb.ashmemSize.toNat, h⟩).modifyHandle h fun cb =>
          { cb with ashmemBase := addr, ashmemBasePid := p.pid })

/-! ## Allocation -/

structure PixelLayout where
  bpp : Int
  align : Int
  glFormat : GLenum
  glType : GLenum
  deriving DecidableEq, Repr

/-- The `switch` of `gralloc_alloc` over formats. -/
def pixelLayout (format : Int) (usage : Usage) : Option PixelLayout :=
  if format = HAL_PIXEL_FORMAT_RGBA_8888 ∨ format = HAL_PIXEL_FORMAT_RGBX_8888 ∨
      format = HAL_PIXEL_FORMAT_BGRA_8888 then
    some ⟨4, 1, GL_RGBA, GL_UNSIGNED_BYTE⟩
  else if format = HAL_PIXEL_FORMAT_RGB_888 then some ⟨3, 1, GL_RGB, GL_UNSIGNED_BYTE⟩
  else if format = HAL_PIXEL_FORMAT_RGB_565 then some ⟨2, 1, GL_RGB, GL_UNSIGNED_SHORT_5_6_5⟩
  else if format = HAL_PIXEL_FORMAT_RGBA_5551 then
    some ⟨2, 1, GL_RGB5_A1_OES, GL_UNSIGNED_SHORT_5_5_5_1⟩
  else if format = HAL_PIXEL_FORMAT_RGBA_4444 then
    some ⟨2, 1, GL_RGBA4_OES, GL_UNSIGNED_SHORT_4_4_4_4⟩
  else if format = HAL_PIXEL_FORMAT_RAW_SENSOR then
    if usage.SW_READ && usage.SW_WRITE then some ⟨2, 32, GL_LUMINANCE, GL_UNSIGNED_SHORT⟩ else none
  else none

/-- `bpr`, the bytes of a row, as a `size_t` of 32 bits. -/
def bytesPerRow (l : PixelLayout) (w : Int) : Int :=
  let bytes := GLint (w * l.bpp + (l.align - 1))
  (bytes - bytes % l.align) % 2 ^ 32

/-- The size of the region before it is rounded: the post counter, and the image where there is
software access. -/
def ashmemSize (l : PixelLayout) (w h : Int) (usage : Usage) : Int :=
  let counter := if usage.HW_FB then 4 else 0
  if usage.SW_READ || usage.SW_WRITE then GLint (counter + bytesPerRow l w * h) else counter

def stride (l : PixelLayout) (w : Int) (usage : Usage) : Int :=
  if usage.SW_READ || usage.SW_WRITE then GLint (bytesPerRow l w / l.bpp) else w

/-- `(ashmem_size + (PAGE_SIZE-1)) & ~(PAGE_SIZE-1)` -/
def roundToPage (ashmem_size : Int) : Int :=
  let size := GLint (ashmem_size + (PAGE_SIZE - 1))
  size - size % PAGE_SIZE

/-- The end of a `gralloc_alloc` that fails after the handle has been made. -/
def allocFailure (p : Process) (h : HandleId) (fd error : Int) : Process × Int :=
  ((p.close fd).deleteHandle h, error)

/-- The creation of the color buffer, for hardware access, and the insertion into the list. `host`
is what `rcCreateColorBuffer` returns, or `none` without a connection. -/
def allocColorBuffer (p : Process) (h : HandleId) (fd : Int) (usage : Usage)
    (host : Option UInt32) : Process × Int :=
  if usage.HW then
    match host with
    | none => p.allocFailure h fd (- EIO)
    | some hostHandle =>
        if hostHandle = 0 then
          (p.send (.rcCreateColorBuffer hostHandle)).allocFailure h fd (- EIO)
        else
          (((p.send (.rcCreateColorBuffer hostHandle)).modifyHandle h fun cb =>
            { cb with hostHandle := hostHandle }).insertAllocated h, 0)
  else (p.insertAllocated h, 0)

/-- The part of `gralloc_alloc` that follows the creation of the region. -/
def allocHandle (p : Process) (cb : cb_handle_t) (mmap : Except Errno Nat)
    (host : Option UInt32) : Process × Int :=
  let h := p.handles.length
  if 0 < cb.ashmemSize then
    match (p.newHandle cb).map_buffer h cb mmap with
    | .error err => (p.newHandle cb).allocFailure h cb.fd err
    | .ok p => (p.modifyHandle h fun cb => cb.setFd cb.fd).allocColorBuffer h cb.fd cb.usage host
  else (p.newHandle cb).allocColorBuffer h cb.fd cb.usage host

/-- `gralloc_alloc`; `ashmem` is the new descriptor or the error. The handle gets the next number;
the stride that goes with it is `stride`. `args` says that no argument is null. -/
def gralloc_alloc (p : Process) (args : Bool) (w h format : Int) (usage : Usage)
    (ashmem : Except Errno Nat) (mmap : Except Errno Nat) (host : Option UInt32) :
    Process × Int :=
  if !args then (p, -EINVAL)
  else if usage.HW_RENDER && usage.SW_WRITE then (p, -EINVAL)
  else
    match pixelLayout format usage with
    | none => (p, -EINVAL)
    | some l =>
        if 0 < ashmemSize l w h usage then
          match ashmem with
          | .error errno => (p, -errno)
          | .ok fd => (p.openFd fd).allocHandle
              (.new fd (roundToPage (ashmemSize l w h usage)) usage w h l.glFormat l.glType)
              mmap host
        else
          p.allocHandle (.new (-1) (ashmemSize l w h usage) usage w h l.glFormat l.glType) mmap host

/-! ## The other calls -/

/-- `rcCloseColorBuffer`, where there is a color buffer. -/
def closeColorBuffer (p : Process) (cb : cb_handle_t) : Process :=
  if cb.hostHandle = 0 then p else p.send (.rcCloseColorBuffer cb.hostHandle)

def openColorBuffer (p : Process) (cb : cb_handle_t) : Process :=
  if cb.hostHandle = 0 then p else p.send (.rcOpenColorBuffer cb.hostHandle)

/-- The region is unmapped and its descriptor closed. -/
def detachAshmem (p : Process) (cb : cb_handle_t) : Process :=
  if 0 < cb.fd then
    (if 0 < cb.ashmemSize ∧ cb.ashmemBase ≠ 0 then p.munmap cb.ashmemBase cb.ashmemSize.toNat
      else p).close cb.fd
  else p

def gralloc_free (p : Process) (handle : Option HandleId) (connected : Bool) :
    Except MemoryFault (Process × Int) :=
  p.withHandle handle fun h cb =>
    if cb.hostHandle ≠ 0 ∧ !connected then .ok (p, - EIO)
    else .ok ((((p.closeColorBuffer cb).detachAshmem cb).removeAllocated h).deleteHandle h, 0)

def registerMapping (p : Process) (h : HandleId) (cb : cb_handle_t) (mmap : Except Errno Nat) :
    Process × Int :=
  if 0 < cb.ashmemSize ∧ cb.mappedPid ≠ p.pid then
    match p.map_buffer h cb mmap with
    | .error err => (p, -err)
    | .ok p => (p.modifyHandle h fun cb => { cb with mappedPid := p.pid }, 0)
  else (p, 0)

def gralloc_register_buffer (p : Process) (handle : Option HandleId) (connected : Bool)
    (mmap : Except Errno Nat) : Except MemoryFault (Process × Int) :=
  p.withHandle handle fun h cb =>
    if cb.hostHandle ≠ 0 ∧ !connected then .ok (p, - EIO)
    else .ok ((p.openColorBuffer cb).registerMapping h cb mmap)

/-- The region is unmapped if this process has registered it. -/
def unregisterMapping (p : Process) (h : HandleId) (cb : cb_handle_t) : Process :=
  if 0 < cb.ashmemSize ∧ cb.mappedPid = p.pid then
    (p.munmap cb.ashmemBase cb.ashmemSize.toNat).modifyHandle h fun cb =>
      { cb with ashmemBase := 0, mappedPid := 0 }
  else p

def gralloc_unregister_buffer (p : Process) (handle : Option HandleId) (connected : Bool) :
    Except MemoryFault (Process × Int) :=
  p.withHandle handle fun h cb =>
    if cb.hostHandle ≠ 0 ∧ !connected then .ok (p, - EIO)
    else .ok ((p.closeColorBuffer cb).unregisterMapping h cb, 0)

def access (p : Process) (addr : Nat) : Except MemoryFault Unit :=
  if p.mappings.any fun m => m.Overlaps addr 1 then .ok () else .error .outOfBounds

def readPostCount (p : Process) (cb : cb_handle_t) : Except MemoryFault Unit :=
  if cb.canBePosted then p.access cb.ashmemBase else .ok ()

def lockAllowed (cb : cb_handle_t) (usage : Usage) : Bool :=
  !((usage.HW_TEXTURE || usage.HW_RENDER) || (!usage.SW_READ && !usage.SW_WRITE) ||
    (usage.SW_READ && !cb.usage.SW_READ) || (usage.SW_WRITE && !cb.usage.SW_WRITE))

/-- The region that is locked for a write is kept. -/
def keepLocked (p : Process) (h : HandleId) (usage : Usage) (left top width height : Int) :
    Process :=
  if usage.SW_WRITE then
    p.modifyHandle h fun cb => { cb with
      lockedLeft := left, lockedTop := top, lockedWidth := width, lockedHeight := height }
  else p

def lockColorBuffer (p : Process) (h : HandleId) (cb : cb_handle_t) (usage : Usage)
    (left top width height : Int) (host : Option Int) : Process × Int :=
  if cb.hostHandle = 0 then (p.keepLocked h usage left top width height, 0)
  else
    match host with
    | none => (p, - EIO)
    | some hostSyncStatus =>
        if hostSyncStatus < 0 then (p.send (.rcColorBufferCacheFlush cb.hostHandle), -EBUSY)
        else
          ((p.send (.rcColorBufferCacheFlush cb.hostHandle)).keepLocked h usage left top width
            height, 0)

/-- `gralloc_lock`; `host` is what `rcColorBufferCacheFlush` returns, or `none` without a
connection. The address that it gives is `ashmemBase`, or 4 more after a post counter. -/
def gralloc_lock (p : Process) (handle : Option HandleId) (usage : Usage)
    (left top width height : Int) (host : Option Int) : Except MemoryFault (Process × Int) :=
  p.withHandle handle fun h cb =>
    if !lockAllowed cb usage then .ok (p, -EINVAL)
    else if (cb.canBePosted || usage.SW_READ || usage.SW_WRITE) ∧
        (cb.ashmemBasePid ≠ p.pid ∨ cb.ashmemBase = 0) then
      .ok (p, -EACCES)
    else
      (p.readPostCount cb).map fun () => p.lockColorBuffer h cb usage left top width height host

/-- The region is no longer locked. -/
def dropLocked (p : Process) (h : HandleId) : Process :=
  p.modifyHandle h fun cb => { cb with lockedWidth := 0, lockedHeight := 0 }

/-- `gralloc_unlock`; the data goes to the host if the region was locked for a write. -/
def gralloc_unlock (p : Process) (handle : Option HandleId) (connected : Bool) :
    Except MemoryFault (Process × Int) :=
  p.withHandle handle fun h cb =>
    if 0 < cb.lockedWidth ∧ 0 < cb.lockedHeight ∧ cb.hostHandle ≠ 0 then
      if !connected then .ok (p, - EIO)
      else do
        p.access cb.ashmemBase
        return ((p.send (.rcUpdateColorBuffer cb.hostHandle)).dropLocked h, 0)
    else .ok (p.dropLocked h, 0)

/-- A copy of a handle of another process arrives, with a descriptor of its own. -/
def receive (p : Process) (cb : cb_handle_t) (fd : Nat) : Process :=
  if cb.numFds = 1 then (p.openFd fd).newHandle { cb with fd := fd } else p.newHandle cb

/-! ## Calls -/

inductive Call
  | gralloc_alloc (args : Bool) (w h format : Int) (usage : Usage) (ashmem : Except Errno Nat)
      (mmap : Except Errno Nat) (host : Option UInt32)
  | gralloc_free (handle : Option HandleId) (connected : Bool)
  | gralloc_register_buffer (handle : Option HandleId) (connected : Bool)
      (mmap : Except Errno Nat)
  | gralloc_unregister_buffer (handle : Option HandleId) (connected : Bool)
  | gralloc_lock (handle : Option HandleId) (usage : Usage) (left top width height : Int)
      (host : Option Int)
  | gralloc_unlock (handle : Option HandleId) (connected : Bool)

def call (p : Process) : Call → Except MemoryFault (Process × Int)
  | .gralloc_alloc args w h format usage ashmem mmap host =>
      .ok (p.gralloc_alloc args w h format usage ashmem mmap host)
  | .gralloc_free handle connected => p.gralloc_free handle connected
  | .gralloc_register_buffer handle connected mmap =>
      p.gralloc_register_buffer handle connected mmap
  | .gralloc_unregister_buffer handle connected => p.gralloc_unregister_buffer handle connected
  | .gralloc_lock handle usage left top width height host =>
      p.gralloc_lock handle usage left top width height host
  | .gralloc_unlock handle connected => p.gralloc_unlock handle connected

end Process

/-! ## Runs -/

/-- What happens to a process. -/
inductive Event
  | call (c : Process.Call)
  | receive (cb : cb_handle_t) (fd : Nat)

/-- A process, and its successful registrations minus unregistrations, counted for keys of
handles. -/
structure Counted (κ : Type) where
  process : Process
  registered : κ → Int

namespace Counted

variable {κ : Type} [DecidableEq κ] (key : HandleId → cb_handle_t → κ)

def initial (pid : Int) : Counted κ := ⟨.initial pid, fun _ => 0⟩

/-- The count after `n` more registrations of a handle, where the call has succeeded. -/
def count (s : Counted κ) (handle : Option HandleId) (result n : Int) : κ → Int :=
  match handle.bind fun h => (s.process.handles[h]?).map (key h) with
  | none => s.registered
  | some k => fun k' =>
      if result = 0 ∧ k' = k then s.registered k' + n else s.registered k'

def registeredAfter (s : Counted κ) (c : Process.Call) (result : Int) : κ → Int :=
  match c with
  | .gralloc_register_buffer handle _ _ => s.count key handle result 1
  | .gralloc_unregister_buffer handle _ => s.count key handle result (-1)
  | _ => s.registered

def call (s : Counted κ) (c : Process.Call) : Except MemoryFault (Counted κ × Int) :=
  (s.process.call c).map fun r => (⟨r.1, s.registeredAfter key c r.2⟩, r.2)

def step (s : Counted κ) : Event → Except MemoryFault (Counted κ)
  | .call c => (s.call key c).map Prod.fst
  | .receive cb fd => .ok { s with process := s.process.receive cb fd }

end Counted

end AndroidRenderer.Gralloc
