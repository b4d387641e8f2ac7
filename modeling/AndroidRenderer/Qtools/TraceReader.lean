import AndroidRenderer.Lib.BinarySearch
import AndroidRenderer.Lib.KeyedVector
import AndroidRenderer.Lib.Registry
import AndroidRenderer.Qtools.ElfSymbols

/-!
# Processes and regions of a trace

`TraceReader` follows the pid events of a trace. Every process has an address space manager,
itself or the process it was cloned from, and a manager has an array of regions, sorted by their
start addresses. A region may be in several arrays; `refs` counts its entries beyond the first.
The regions are also found by their paths in a hash table.
-/

namespace AndroidRenderer.Qtools.Trace

/-- A `ProcessState` object. -/
abbrev ProcessRef := Nat

inductive TraceFault
  /-- The program ends with a message. -/
  | exit
  | assertion
  | nullDereference
  | outOfBounds
  | deletedRegion
  deriving DecidableEq, Repr

structure RegionFlags where
  kIsKernelRegion : Bool
  kSharedSymbols : Bool
  kIsLibraryRegion : Bool
  kIsUserMappedRegion : Bool
  deriving DecidableEq, Repr

/-- `region_entry`; `symbols` is one of the arrays of symbols, and `nsymbols` its length. -/
structure Region where
  refs : Nat
  path : String
  vstart : BitVec 32
  vend : BitVec 32
  base_addr : BitVec 32
  file_offset : BitVec 32
  flags : RegionFlags
  symbols : Nat
  deriving DecidableEq, Repr

namespace Region

/-- `region_entry::region_entry`, and the members that are set behind it. -/
def new (path : String) (vstart vend file_offset : BitVec 32) : Region :=
  ⟨0, path, vstart, vend, 0, file_offset, ⟨false, false, false, false⟩, 0⟩

def MakePrivateCopy (r : Region) : Region := { r with refs := 0 }

end Region

structure ProcessFlags where
  kCalledExec : Bool
  kCalledExit : Bool
  kIsClone : Bool
  kHasKernelRegion : Bool
  kHasFirstMmap : Bool
  deriving DecidableEq, Repr

structure MethodFrame where
  addr : BitVec 32
  isNative : Bool
  deriving DecidableEq, Repr

/-- `nregions` is the length of the array `regions`, which has room for `max_regions` entries and
is `none` before it is allocated. -/
structure ProcessState where
  cpu_time : BitVec 64
  start_time : BitVec 64
  end_time : BitVec 64
  tgid : Int
  pid : Int
  parent_pid : Int
  exit_val : Int
  flags : ProcessFlags
  argv : List String
  name : Option String
  max_regions : Nat
  regions : Option (List RegionId)
  parent : Option ProcessRef
  addr_manager : ProcessRef
  method_stack : List MethodFrame
  current_method_sym : Option SymbolRef

namespace ProcessState

def kInitialNumRegions : Nat := 10

def kMaxMethodStackSize : Nat := 1000

/-- `ProcessState::ProcessState` -/
def new (self : ProcessRef) : ProcessState where
  cpu_time := 0
  start_time := 0
  end_time := 0
  tgid := 0
  pid := 0
  parent_pid := 0
  exit_val := 0
  flags := ⟨false, false, false, false, false⟩
  argv := []
  name := none
  max_regions := 0
  regions := none
  parent := none
  addr_manager := self
  method_stack := []
  current_method_sym := none

/-- The entries of the array in use. -/
def entries (p : ProcessState) : List RegionId := p.regions.getD []

/-- The array is allocated for its first entry. -/
def allocated (p : ProcessState) : ProcessState :=
  match p.regions with
  | none => { p with max_regions := kInitialNumRegions, regions := some [] }
  | some _ => p

/-- A full array is replaced by one of twice the size. -/
def grown (p : ProcessState) : ProcessState :=
  if p.max_regions ≤ p.entries.length then { p with max_regions := p.max_regions <<< 1 } else p

end ProcessState

/-- The flags of a record of the trace of Java methods; all `others` stand for returns. -/
inductive MethodFlags
  | kMethodEnter
  | kNativeEnter
  | kNativeExit
  | kNativeException
  | others
  deriving DecidableEq, Repr

structure MethodRec where
  time : BitVec 64
  addr : BitVec 32
  pid : Int
  flags : MethodFlags
  deriving DecidableEq, Repr

structure PidEvent.Mmap where
  vstart : BitVec 32
  vend : BitVec 32
  offset : BitVec 32
  path : String

inductive PidEvent
  | kPidFork (time : BitVec 64) (tgid pid : Int)
  | kPidClone (time : BitVec 64) (tgid pid : Int)
  | kPidSwitch (time : BitVec 64) (pid : Int)
  | kPidExit (pid : Int)
  | kPidMunmap (vstart vend : BitVec 32)
  | kPidMmap (event : PidEvent.Mmap)
  | kPidExec (argv : List String)
  | kPidName (time : BitVec 64) (pid : Int) (path : String)
  | kPidKthreadName (time : BitVec 64) (tgid pid : Int) (path : String)
  | kPidNoAction
  | kPidSymbolAdd
  | kPidSymbolRemove

structure DexSym where
  addr : BitVec 32
  name : String

/-- What the reader uses that is not in the trace of pids; `zeroFlags` are the flags whose value
is zero. -/
structure TraceFiles where
  qsort : Qsort
  root_ : String
  elf : String → Option ElfFile
  demangle : String → Option String
  dex_hash_ : String → Option (List DexSym)
  methods : List MethodRec
  zeroFlags : MethodFlags

/-- The `ProcessState` objects and the arrays of symbols stay while the reader lives;
`internal_method_reader_` has the records that are still to be read. -/
structure TraceReader where
  cached_pid_ : Int
  cached_func_ : Option SymbolRef
  processes_ : Int → Option ProcessRef
  current_ : ProcessRef
  next_method_ : MethodRec
  internal_method_reader_ : List MethodRec
  function_start_time_ : BitVec 64
  hash_ : KeyedVector String RegionId
  states : ProcessRef → ProcessState
  nstates : Nat
  regions : Registry Region
  tables : List (List Symbol)

def kNumPids : Int := 32768

namespace TraceReader

/-! ## Objects of the reader -/

def setState (s : TraceReader) (p : ProcessRef) (st : ProcessState) : TraceReader :=
  { s with states := Function.update s.states p st }

/-- `new ProcessState`; its reference is `nstates`. -/
def newState (s : TraceReader) (st : ProcessState) : TraceReader :=
  { s with states := Function.update s.states s.nstates st, nstates := s.nstates + 1 }

def setProcess (s : TraceReader) (pid : Int) (p : ProcessRef) : TraceReader :=
  { s with processes_ := Function.update s.processes_ pid (some p) }

def setRegion (s : TraceReader) (region : RegionId) (r : Region) : TraceReader :=
  { s with regions := s.regions.set region r }

def region (s : TraceReader) (region : RegionId) : Except TraceFault Region :=
  match s.regions.get? region with
  | none => .error .deletedRegion
  | some r => .ok r

def process (s : TraceReader) (pid : Int) : Except TraceFault ProcessRef :=
  match s.processes_ pid with
  | none => .error .nullDereference
  | some p => .ok p

def manager (s : TraceReader) (pstate : ProcessRef) : ProcessRef := (s.states pstate).addr_manager

/-- The array of the address space of a process. -/
def managerEntries (s : TraceReader) (pstate : ProcessRef) : List RegionId :=
  (s.states (s.manager pstate)).entries

/-- The entries of all arrays. -/
def holders (s : TraceReader) : List RegionId :=
  (List.range s.nstates).flatMap fun p => (s.states p).entries

def symbolsOf (s : TraceReader) (r : Region) : List Symbol := s.tables.getD r.symbols []

/-! ## The arrays of regions -/

/-- The key of `cmp_region_addr`. -/
def vstart (s : TraceReader) (region : RegionId) : Nat :=
  ((s.regions.get? region).map fun r => r.vstart.toNat).getD 0

/-- `qsort`, which reads every region unless there is only one. -/
def sortRegions (f : TraceFiles) (s : TraceReader) (regions : List RegionId) :
    Except TraceFault (List RegionId) :=
  if regions.length ≤ 1 ∨ regions.all (fun region => (s.regions.get? region).isSome) then
    .ok (f.qsort.sort s.vstart regions)
  else .error .deletedRegion

def AddRegion (f : TraceFiles) (s : TraceReader) (pstate : ProcessRef) (region : RegionId) :
    Except TraceFault TraceReader :=
  let m := (s.states (s.manager pstate)).allocated.grown
  if m.entries.length < m.max_regions then
    s.sortRegions f (m.entries ++ [region]) >>= fun regions =>
      .ok (s.setState (s.manager pstate) { m with regions := some regions })
  else .error .outOfBounds

/-- A turn of the loop of `CopyKernelRegion`. -/
def copyKernelEntry (f : TraceFiles) (manager : ProcessRef) (s : TraceReader)
    (region : RegionId) : Except TraceFault TraceReader :=
  s.region region >>= fun r =>
    if r.flags.kIsKernelRegion then
      s.AddRegion f manager region >>= fun s =>
        .ok (s.setRegion region { r with refs := r.refs + 1 })
    else .ok s

def CopyKernelRegion (f : TraceFiles) (s : TraceReader) (pstate : ProcessRef) :
    Except TraceFault TraceReader :=
  let manager := s.manager pstate
  if (s.states manager).flags.kHasKernelRegion then .ok s
  else
    s.process 0 >>= fun first =>
      (s.states first).entries.foldlM (copyKernelEntry f manager) s >>= fun s =>
        let m := s.states manager
        .ok (s.setState manager { m with flags := { m.flags with kHasKernelRegion := true } })

def dropEntry (regions : Registry Region) (region : RegionId) :
    Except TraceFault (Registry Region) :=
  match regions.get? region with
  | none => .error .deletedRegion
  | some r =>
      if 0 < r.refs then .ok (regions.set region { r with refs := r.refs - 1 })
      else .ok (regions.remove region)

def ClearRegions (f : TraceFiles) (s : TraceReader) (pstate : ProcessRef) :
    Except TraceFault TraceReader :=
  let p := s.states pstate
  if p.pid = 0 then .error .assertion
  else
    p.entries.foldlM dropEntry s.regions >>= fun regions =>
      CopyKernelRegion f
        (({ s with regions := regions } : TraceReader).setState pstate
          { p with
            regions := none
            max_regions := 0
            addr_manager := pstate
            flags := { p.flags with kIsClone := false, kHasKernelRegion := false } })
        pstate

def shareEntry (regions : Registry Region) (region : RegionId) :
    Except TraceFault (Registry Region) :=
  match regions.get? region with
  | none => .error .deletedRegion
  | some r => .ok (regions.set region { r with refs := r.refs + 1 })

def CopyRegions (s : TraceReader) (parent child : ProcessRef) : Except TraceFault TraceReader :=
  let m := s.states (s.manager parent)
  m.entries.foldlM shareEntry s.regions >>= fun regions =>
    .ok (({ s with regions := regions } : TraceReader).setState child
      { s.states child with regions := some m.entries, max_regions := m.max_regions })

def entryAt (entries : List RegionId) (index : Nat) : Except TraceFault RegionId :=
  match entries[index]? with
  | none => .error .outOfBounds
  | some region => .ok region

/-- The start address that the searches read. -/
def vstartAt (s : TraceReader) (entries : List RegionId) (index : Nat) : Except TraceFault Nat :=
  entryAt entries index >>= fun region => (s.region region).map fun r => r.vstart.toNat

def FindRegionIndex (s : TraceReader) (addr : BitVec 32) (entries : List RegionId) :
    Except TraceFault Nat :=
  (BinarySearch.search (s.vstartAt entries) addr.toNat entries.length 0 entries.length).map
    fun place => place.closest.getD 0

def FindRegion (s : TraceReader) (addr : BitVec 32) (entries : List RegionId) :
    Except TraceFault RegionId :=
  s.FindRegionIndex addr entries >>= entryAt entries

/-- A region that is unmapped as a whole loses its entry; the last entry takes its place. -/
def removeEntry (f : TraceFiles) (s : TraceReader) (manager : ProcessRef) (index : Nat)
    (region : RegionId) (r : Region) : Except TraceFault TraceReader :=
  let m := s.states manager
  let last := m.entries.getLastD region
  let s :=
    if r.refs = 0 then
      { s with hash_ := s.hash_.remove r.path, regions := s.regions.remove region }
    else s.setRegion region { r with refs := r.refs - 1 }
  if 1 < m.entries.length then
    s.sortRegions f (m.entries.set index last).dropLast >>= fun regions =>
      .ok (s.setState manager { m with regions := some regions })
  else .ok (s.setState manager { m with regions := some [] })

/-- The end of a region is unmapped; where the region is shared its entry gets a copy. -/
def truncateEntry (s : TraceReader) (manager : ProcessRef) (index : Nat) (region : RegionId)
    (r : Region) (vstart : BitVec 32) : TraceReader :=
  if r.refs = 0 then s.setRegion region { r with vend := vstart }
  else
    let m := s.states manager
    let regions := s.regions.set region { r with refs := r.refs - 1 }
    ({ s with
        regions := regions.insert { r.MakePrivateCopy with vend := vstart } } : TraceReader).setState
      manager { m with regions := some (m.entries.set index regions.next) }

def FindAndRemoveRegion (f : TraceFiles) (s : TraceReader) (pstate : ProcessRef)
    (vstart vend : BitVec 32) : Except TraceFault TraceReader :=
  let manager := s.manager pstate
  let entries := s.managerEntries pstate
  s.FindRegionIndex vstart entries >>= fun index =>
    entryAt entries index >>= fun region =>
      s.region region >>= fun r =>
        if vstart < r.vstart ∨ r.vend < vend then .ok s
        else if vstart = r.vstart ∧ vend = r.vend then s.removeEntry f manager index region r
        else if r.vstart < vstart ∧ vend = r.vend then
          .ok (s.truncateEntry manager index region r vstart)
        else .ok s

/-! ## Symbols of new regions -/

def fullPath (f : TraceFiles) (path : String) : String :=
  if f.root_ = "/" then path else f.root_ ++ path

/-- `ReadElfSymbols`; a region whose file cannot be read begins at zero. -/
def ReadElfSymbols (f : TraceFiles) (includeLocal : Bool) (region : RegionId) (r : Region) :
    Region × List Symbol :=
  match f.elf (fullPath f r.path) with
  | none => ({ r with vstart := 0 }, [⟨0, "(unknown)", none, region, .zero⟩])
  | some file =>
      let functions := file.functions includeLocal region r.path f.qsort f.demangle
      let min_addr := if file.zero_found includeLocal then 0 else functions[1]?.elim 0 Symbol.addr
      ({ r with vstart := if r.vstart = 0 then min_addr else r.vstart }, functions)

def PopulateSymbolsFromDexFile (region : RegionId) (dexsyms : List DexSym) : List Symbol :=
  let flags := { SymbolFlags.zero with kIsMethod := true }
  dexsyms.map (fun sym => ⟨sym.addr, sym.name, none, region, flags⟩) ++
    [⟨0xffffffff, "(end)", none, region, flags⟩]

/-- The region and its symbols for a path that the hash table does not have. -/
def readSymbols (f : TraceFiles) (region : RegionId) (r : Region) : Region × List Symbol :=
  match f.dex_hash_ r.path with
  | some dexfile => (r, PopulateSymbolsFromDexFile region dexfile)
  | none => ReadElfSymbols f false region r

/-- A new region; its reference is `regions.next`. -/
def newRegion (s : TraceReader) (r : Region) : TraceReader :=
  { s with regions := s.regions.insert r }

/-- A new region with an array of symbols, which the hash table gets under its path. -/
def newHashedRegion (s : TraceReader) (r : Region) (symbols : List Symbol) : TraceReader :=
  { s with
    regions := s.regions.insert { r with symbols := s.tables.length }
    tables := s.tables ++ [symbols]
    hash_ := s.hash_.add r.path s.regions.next }

/-! ## Pid events -/

/-- The pid of a new or next process. -/
def checkPid (pid : Int) : Except TraceFault Unit :=
  if kNumPids ≤ pid then .error .exit else if pid < 0 then .error .outOfBounds else .ok ()

/-- `kPidFork` and `kPidClone` up to where they differ; the child is `nstates`. -/
def addChild (s : TraceReader) (time : BitVec 64) (tgid pid : Int) (name : String) : TraceReader :=
  let current := s.states s.current_
  (s.newState { ProcessState.new s.nstates with
    pid := pid
    tgid := tgid
    parent_pid := current.pid
    parent := some s.current_
    start_time := time
    name := some name }).setProcess pid s.nstates

def currentName (s : TraceReader) : Except TraceFault String :=
  match (s.states s.current_).name with
  | none => .error .nullDereference
  | some name => .ok name

def fork (s : TraceReader) (time : BitVec 64) (tgid pid : Int) : Except TraceFault TraceReader :=
  checkPid pid >>= fun _ => s.currentName >>= fun name =>
    (s.addChild time tgid pid name).CopyRegions s.current_ s.nstates

def clone (s : TraceReader) (time : BitVec 64) (tgid pid : Int) : Except TraceFault TraceReader :=
  checkPid pid >>= fun _ => s.currentName >>= fun name =>
    let s' := s.addChild time tgid pid name
    let child := s'.states s.nstates
    .ok (s'.setState s.nstates { child with
      flags := { child.flags with kIsClone := true }
      addr_manager := s.manager s.current_ })

/-- A process that the trace does not begin with; it is `nstates`. -/
def addProcess (f : TraceFiles) (s : TraceReader) (time : BitVec 64) (tgid pid : Int) :
    Except TraceFault TraceReader :=
  CopyKernelRegion f
    ((s.newState { ProcessState.new s.nstates with
      tgid := tgid
      pid := pid
      start_time := time }).setProcess pid s.nstates)
    s.nstates

/-- The time of the process that is switched from. -/
def chargeTime (s : TraceReader) (time : BitVec 64) : TraceReader :=
  let current := s.states s.current_
  ({ s with function_start_time_ := time } : TraceReader).setState s.current_ { current with
    cpu_time := current.cpu_time + (time - s.function_start_time_)
    end_time := if current.flags.kCalledExit then time else current.end_time }

def switch (f : TraceFiles) (s : TraceReader) (time : BitVec 64) (pid : Int) :
    Except TraceFault TraceReader :=
  let s := s.chargeTime time
  checkPid pid >>= fun _ =>
    match s.processes_ pid with
    | some p => .ok { s with current_ := p }
    | none => (s.addProcess f time 0 pid).map fun s' => { s' with current_ := s.nstates }

/-- A region is based at its start if its second symbol is below it. -/
def baseAddr (symbols : List Symbol) (vstart : BitVec 32) : BitVec 32 :=
  if 2 < symbols.length ∧ symbols[1]?.any (·.addr < vstart) then vstart else 0

/-- Regions after the first one of a process are libraries. -/
def markMmap (s : TraceReader) : TraceReader :=
  let current := s.states s.current_
  s.setState s.current_ { current with flags := { current.flags with kHasFirstMmap := true } }

/-- The flag of a region that the current process maps. -/
def isLibrary (s : TraceReader) : Bool := (s.states s.current_).flags.kHasFirstMmap

/-- `kPidMmap` of a path that the hash table does not have. -/
def mmapNew (f : TraceFiles) (s : TraceReader) (event : PidEvent.Mmap) :
    Except TraceFault TraceReader :=
  let region := s.regions.next
  let read := readSymbols f region (.new event.path event.vstart event.vend event.offset)
  let r := { read.1 with
    base_addr := baseAddr read.2 event.vstart
    flags := { read.1.flags with kIsLibraryRegion := s.isLibrary } }
  (s.newHashedRegion r read.2).markMmap.AddRegion f s.current_ region

/-- `kPidMmap` where the region of the path is elsewhere. -/
def mmapShared (f : TraceFiles) (s : TraceReader) (event : PidEvent.Mmap) (existing : Region) :
    Except TraceFault TraceReader :=
  let region := s.regions.next
  let r := { Region.new event.path event.vstart event.vend event.offset with
    symbols := existing.symbols
    base_addr := baseAddr (s.symbolsOf existing) event.vstart
    flags := ⟨false, true, s.isLibrary, false⟩ }
  (s.newRegion r).markMmap.AddRegion f s.current_ region

/-- `kPidMmap` -/
def mmap (f : TraceFiles) (s : TraceReader) (event : PidEvent.Mmap) :
    Except TraceFault TraceReader :=
  match s.hash_.get? event.path with
  | none => s.mmapNew f event
  | some existing =>
      s.region existing >>= fun r =>
        if r.vstart ≠ event.vstart ∨ r.vend ≠ event.vend ∨ r.file_offset ≠ event.offset then
          s.mmapShared f event r
        else
          (s.setRegion existing { r with refs := r.refs + 1 }).AddRegion f s.current_ existing

/-- `kPidExec` -/
def exec (f : TraceFiles) (s : TraceReader) (argv : List String) :
    Except TraceFault TraceReader :=
  match argv with
  | [] => .error .outOfBounds
  | name :: _ =>
      let current := s.states s.current_
      (s.setState s.current_ { current with
        argv := argv
        name := some name
        flags := { current.flags with kCalledExec := true } }).ClearRegions f s.current_

/-- `kPidName`, and `kPidKthreadName` where a new process gets the `tgid`; the pid is not
checked. -/
def setName (f : TraceFiles) (s : TraceReader) (time : BitVec 64) (tgid pid : Int)
    (path : String) : Except TraceFault TraceReader :=
  if pid < 0 ∨ kNumPids ≤ pid then .error .outOfBounds
  else
    match s.processes_ pid with
    | some p => .ok (s.setState p { s.states p with name := some path })
    | none =>
        (s.addProcess f time tgid pid).map fun s' =>
          s'.setState s.nstates { s'.states s.nstates with name := some path }

def HandlePidEvent (f : TraceFiles) (s : TraceReader) : PidEvent → Except TraceFault TraceReader
  | .kPidFork time tgid pid => s.fork time tgid pid
  | .kPidClone time tgid pid => s.clone time tgid pid
  | .kPidSwitch time pid => s.switch f time pid
  | .kPidExit pid =>
      let current := s.states s.current_
      .ok (s.setState s.current_ { current with
        exit_val := pid
        flags := { current.flags with kCalledExit := true } })
  | .kPidMunmap vstart vend => s.FindAndRemoveRegion f s.current_ vstart vend
  | .kPidMmap event => s.mmap f event
  | .kPidExec argv => s.exec f argv
  | .kPidName time pid path => s.setName f time 0 pid path
  | .kPidKthreadName time tgid pid path => s.setName f time tgid pid path
  | .kPidNoAction => .ok s
  | .kPidSymbolAdd => .ok s
  | .kPidSymbolRemove => .ok s

/-! ## The end of the reader -/

/-- `~ProcessState` -/
def destroyState (s : TraceReader) (regions : Registry Region) (p : ProcessRef) :
    Except TraceFault (Registry Region) :=
  if (s.states p).flags.kIsClone then .ok regions
  else (s.states p).entries.foldlM dropEntry regions

/-- `~TraceReader`, with the regions that are left. The values of the hash table are read before
the processes are deleted. -/
def destroy (s : TraceReader) : Except TraceFault (Registry Region) :=
  s.hash_.entries.foldlM (fun _ entry => (s.region entry.2).map fun _ => ()) () >>= fun _ =>
    (List.range kNumPids.toNat).foldlM
      (fun regions (pid : Nat) => (s.processes_ pid).elim (.ok regions) (s.destroyState regions))
      s.regions

/-! ## The first state -/

/-- The reader before its predefined regions. -/
def blank (f : TraceFiles) : TraceReader where
  cached_pid_ := -1
  cached_func_ := none
  processes_ := fun pid => if pid = 0 then some 0 else none
  current_ := 0
  next_method_ := ⟨0, 0, 0, f.zeroFlags⟩
  internal_method_reader_ := f.methods
  function_start_time_ := 0
  hash_ := .empty
  states := ProcessState.new
  nstates := 1
  regions := .empty
  tables := []

/-- A region of `AddPredefinedRegions` with its symbols. -/
structure Predefined where
  path : String
  vstart : BitVec 32
  vend : BitVec 32
  base : BitVec 32
  userMapped : Bool
  symbols : List (BitVec 32 × String × SymbolFlags)

def predefinedRegions : List Predefined :=
  [⟨"(bootloader)", 0, 0x14, 0, false,
      [(0, "(bootloader_start)", .zero), (0x14, "(bootloader_end)", .zero)]⟩,
    ⟨"(exception vectors)", 0xffff0000, 0xffff0500, 0xffff0000, false,
      [(0, "(vector_start)", { SymbolFlags.zero with kIsVectorStart := true }),
        (0x500, "(vector_end)", .zero)]⟩,
    ⟨"(atomic ops)", 0xffff0f80, 0xffff1000, 0xffff0f80, true,
      [(0, "(kuser_atomic_inc)", .zero), (0x20, "(kuser_atomic_dec)", .zero),
        (0x40, "(kuser_cmpxchg)", .zero), (0x80, "(kuser_end)", .zero)]⟩]

/-- A turn of `AddPredefinedRegions`, for process 0. -/
def AddPredefinedRegion (f : TraceFiles) (s : TraceReader) (p : Predefined) :
    Except TraceFault TraceReader :=
  let region := s.regions.next
  let r := { Region.new p.path p.vstart p.vend 0 with
    base_addr := p.base
    flags := ⟨true, false, false, p.userMapped⟩ }
  (s.newHashedRegion r (p.symbols.map fun sym => ⟨sym.1, sym.2.1, none, region, sym.2.2⟩)).AddRegion
    f s.current_ region

/-- `TraceReader::TraceReader` -/
def new (f : TraceFiles) : Except TraceFault TraceReader :=
  predefinedRegions.foldlM (AddPredefinedRegion f) (blank f)

def ReadKernelSymbols (f : TraceFiles) (s : TraceReader) (kernel_file : String) :
    Except TraceFault TraceReader :=
  let region := s.regions.next
  let read := ReadElfSymbols f true region
    { Region.new kernel_file 0 0 0 with flags := ⟨true, false, false, false⟩ }
  s.process 0 >>= fun first =>
    ((s.newHashedRegion { read.1 with vend := 0xffff0000 } read.2).AddRegion f first region).map
      fun s =>
        let p := s.states first
        s.setState first { p with flags := { p.flags with kHasKernelRegion := true } }

/-- The reader with the symbols of the kernels it is given, before the first event. -/
def start (f : TraceFiles) (kernel_files : List String) : Except TraceFault TraceReader :=
  new f >>= fun s => kernel_files.foldlM (ReadKernelSymbols f) s

end TraceReader

end AndroidRenderer.Qtools.Trace
