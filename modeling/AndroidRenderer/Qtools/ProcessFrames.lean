import AndroidRenderer.Qtools.Regions

/-!
# What pid events leave of the processes

Whatever an event does to the regions, the processes that are there keep their pids, their stacks
of Java methods and their current methods, and no record of the method trace is read. A process
under a pid has that pid, so that the pid of the current process is the one that was switched to
last.
-/

namespace AndroidRenderer.Qtools.Trace

open Run

variable {f : TraceFiles} {s s' : TraceReader} {p : ProcessRef} {region : RegionId}

namespace TraceReader

/-! ## Operations on regions -/

/-- The members of a process that have nothing to do with its regions. -/
structure SameThread (st st' : ProcessState) : Prop where
  pid : st'.pid = st.pid
  method_stack : st'.method_stack = st.method_stack
  current_method : st'.current_method_sym = st.current_method_sym

structure SameThreads (s s' : TraceReader) : Prop where
  processes : s'.processes_ = s.processes_
  current : s'.current_ = s.current_
  nstates : s'.nstates = s.nstates
  next_method : s'.next_method_ = s.next_method_
  method_reader : s'.internal_method_reader_ = s.internal_method_reader_
  states : ∀ q, SameThread (s.states q) (s'.states q)

namespace SameThreads

theorem refl (s : TraceReader) : SameThreads s s :=
  ⟨rfl, rfl, rfl, rfl, rfl, fun _ => ⟨rfl, rfl, rfl⟩⟩

theorem trans {a b c : TraceReader} (hab : SameThreads a b) (hbc : SameThreads b c) :
    SameThreads a c := by
  refine ⟨hbc.processes.trans hab.processes, hbc.current.trans hab.current,
    hbc.nstates.trans hab.nstates, hbc.next_method.trans hab.next_method,
    hbc.method_reader.trans hab.method_reader, fun q => ?_⟩
  have h := hab.states q
  have h' := hbc.states q
  exact ⟨h'.pid.trans h.pid, h'.method_stack.trans h.method_stack,
    h'.current_method.trans h.current_method⟩

theorem setState (s : TraceReader) {st : ProcessState} (h : SameThread (s.states p) st) :
    SameThreads s (s.setState p st) := by
  refine ⟨rfl, rfl, rfl, rfl, rfl, fun q => ?_⟩
  by_cases hq : q = p
  · rw [hq, states_setState, Function.update_self]
    exact h
  · rw [states_setState, Function.update_of_ne hq]
    exact ⟨rfl, rfl, rfl⟩

theorem setState_of {t : TraceReader} (h : SameThreads s t) {st : ProcessState}
    (hst : SameThread (t.states p) st) : SameThreads s (t.setState p st) :=
  h.trans (setState t hst)

end SameThreads

theorem AddRegion_threads (h : s.AddRegion f p region = .ok s') : SameThreads s s' := by
  rw [AddRegion] at h
  split at h
  · obtain ⟨regions, -, hs'⟩ := bind_eq_ok.mp h
    obtain rfl := Except.ok.inj hs'
    refine SameThreads.setState s ?_
    rw [ProcessState.grown, ProcessState.allocated]
    split
    · split
      · exact ⟨rfl, rfl, rfl⟩
      · exact ⟨rfl, rfl, rfl⟩
    · split
      · exact ⟨rfl, rfl, rfl⟩
      · exact ⟨rfl, rfl, rfl⟩
  · cases h

theorem copyKernelEntry_threads (h : copyKernelEntry f p s region = .ok s') :
    SameThreads s s' := by
  obtain ⟨r, -, h⟩ := bind_eq_ok.mp h
  split at h
  · obtain ⟨s₁, hadd, hs'⟩ := bind_eq_ok.mp h
    obtain rfl := Except.ok.inj hs'
    have hsame := AddRegion_threads hadd
    exact ⟨hsame.processes, hsame.current, hsame.nstates, hsame.next_method, hsame.method_reader,
      hsame.states⟩
  · exact Except.ok.inj h ▸ .refl s

theorem CopyKernelRegion_threads (h : s.CopyKernelRegion f p = .ok s') : SameThreads s s' := by
  rw [CopyKernelRegion] at h
  dsimp only at h
  split at h
  · exact Except.ok.inj h ▸ .refl s
  · obtain ⟨first, -, h⟩ := bind_eq_ok.mp h
    obtain ⟨s₁, hloop, hs'⟩ := bind_eq_ok.mp h
    obtain rfl := Except.ok.inj hs'
    have hsame : SameThreads s s₁ := foldlM_invariant (I := SameThreads s)
      (fun _ _ _ hsame hturn => hsame.trans (copyKernelEntry_threads hturn)) (.refl s) hloop
    exact hsame.setState_of ⟨rfl, rfl, rfl⟩

theorem ClearRegions_threads (h : s.ClearRegions f p = .ok s') : SameThreads s s' := by
  rw [ClearRegions] at h
  split at h
  · cases h
  · obtain ⟨regions, -, hcopy⟩ := bind_eq_ok.mp h
    have hregions : SameThreads s { s with regions := regions } :=
      ⟨rfl, rfl, rfl, rfl, rfl, fun _ => ⟨rfl, rfl, rfl⟩⟩
    refine SameThreads.trans (hregions.setState_of ?_) (CopyKernelRegion_threads hcopy)
    exact ⟨rfl, rfl, rfl⟩

theorem CopyRegions_threads {parent child : ProcessRef}
    (h : s.CopyRegions parent child = .ok s') : SameThreads s s' := by
  obtain ⟨regions, -, hs'⟩ := bind_eq_ok.mp h
  obtain rfl := Except.ok.inj hs'
  have hregions : SameThreads s { s with regions := regions } :=
    ⟨rfl, rfl, rfl, rfl, rfl, fun _ => ⟨rfl, rfl, rfl⟩⟩
  exact hregions.setState_of ⟨rfl, rfl, rfl⟩

theorem removeEntry_threads {index : Nat} {r : Region}
    (h : s.removeEntry f p index region r = .ok s') : SameThreads s s' := by
  have hdrop : SameThreads s (if r.refs = 0 then
      { s with hash_ := s.hash_.remove r.path, regions := s.regions.remove region }
      else s.setRegion region { r with refs := r.refs - 1 }) := by
    split
    · exact ⟨rfl, rfl, rfl, rfl, rfl, fun _ => ⟨rfl, rfl, rfl⟩⟩
    · exact ⟨rfl, rfl, rfl, rfl, rfl, fun _ => ⟨rfl, rfl, rfl⟩⟩
  rw [removeEntry] at h
  split at h
  · obtain ⟨regions, -, hs'⟩ := bind_eq_ok.mp h
    obtain rfl := Except.ok.inj hs'
    have hst := hdrop.states p
    exact hdrop.setState_of ⟨hst.pid.symm, hst.method_stack.symm, hst.current_method.symm⟩
  · obtain rfl := Except.ok.inj h
    have hst := hdrop.states p
    exact hdrop.setState_of ⟨hst.pid.symm, hst.method_stack.symm, hst.current_method.symm⟩

theorem truncateEntry_threads (s : TraceReader) (p : ProcessRef) (index : Nat)
    (region : RegionId) (r : Region) (vstart : BitVec 32) :
    SameThreads s (s.truncateEntry p index region r vstart) := by
  rw [truncateEntry]
  split
  · exact ⟨rfl, rfl, rfl, rfl, rfl, fun _ => ⟨rfl, rfl, rfl⟩⟩
  · refine SameThreads.setState_of ?_ ?_
    · exact ⟨rfl, rfl, rfl, rfl, rfl, fun _ => ⟨rfl, rfl, rfl⟩⟩
    · exact ⟨rfl, rfl, rfl⟩

theorem FindAndRemoveRegion_threads {vstart vend : BitVec 32}
    (h : s.FindAndRemoveRegion f p vstart vend = .ok s') : SameThreads s s' := by
  obtain ⟨index, -, h⟩ := bind_eq_ok.mp h
  obtain ⟨region, -, h⟩ := bind_eq_ok.mp h
  obtain ⟨r, -, h⟩ := bind_eq_ok.mp h
  split at h
  · exact Except.ok.inj h ▸ .refl s
  · split at h
    · exact removeEntry_threads h
    · split at h
      · exact Except.ok.inj h ▸ truncateEntry_threads s _ _ _ _ _
      · exact Except.ok.inj h ▸ .refl s

theorem markMmap_threads (s : TraceReader) : SameThreads s s.markMmap := by
  refine SameThreads.setState s ?_
  exact ⟨rfl, rfl, rfl⟩

theorem mmap_threads {event : PidEvent.Mmap} (h : s.mmap f event = .ok s') :
    SameThreads s s' := by
  have hhashed : ∀ (r : Region) (symbols : List Symbol), SameThreads s (s.newHashedRegion r symbols) :=
    fun _ _ => ⟨rfl, rfl, rfl, rfl, rfl, fun _ => ⟨rfl, rfl, rfl⟩⟩
  have hnew : ∀ r : Region, SameThreads s (s.newRegion r) :=
    fun _ => ⟨rfl, rfl, rfl, rfl, rfl, fun _ => ⟨rfl, rfl, rfl⟩⟩
  rw [mmap] at h
  split at h
  · exact ((hhashed _ _).trans (markMmap_threads _)).trans (AddRegion_threads h)
  · obtain ⟨r, -, h⟩ := bind_eq_ok.mp h
    split at h
    · exact ((hnew _).trans (markMmap_threads _)).trans (AddRegion_threads h)
    · refine SameThreads.trans ?_ (AddRegion_threads h)
      exact ⟨rfl, rfl, rfl, rfl, rfl, fun _ => ⟨rfl, rfl, rfl⟩⟩

theorem exec_threads {argv : List String} (h : s.exec f argv = .ok s') : SameThreads s s' := by
  cases argv with
  | nil => cases h
  | cons name argv =>
      refine SameThreads.trans (SameThreads.setState s ?_) (ClearRegions_threads h)
      exact ⟨rfl, rfl, rfl⟩

/-! ## Events -/

/-- A process under a pid has that pid. -/
structure PidsInv (s : TraceReader) : Prop where
  process : ∀ pid p, s.processes_ pid = some p → p < s.nstates ∧ (s.states p).pid = pid
  current : s.current_ < s.nstates

/-- The processes that are there stay, except that a child takes its pid; new ones have no Java
methods. -/
structure Grows (s s' : TraceReader) (child : Option Int) : Prop where
  nstates : s.nstates ≤ s'.nstates
  next_method : s'.next_method_ = s.next_method_
  method_reader : s'.internal_method_reader_ = s.internal_method_reader_
  states : ∀ q < s.nstates, SameThread (s.states q) (s'.states q)
  fresh : ∀ q < s'.nstates, s.nstates ≤ q →
    (s'.states q).method_stack = [] ∧ (s'.states q).current_method_sym = none
  process : ∀ pid p, s'.processes_ pid = some p → s.processes_ pid = some p ∨
    s.nstates ≤ p ∧ p < s'.nstates ∧ (s'.states p).pid = pid
  kept : ∀ pid p, child ≠ some pid → s.processes_ pid = some p → s'.processes_ pid = some p

namespace Grows

variable {child : Option Int}

theorem of_same (h : SameThreads s s') : Grows s s' child := by
  refine ⟨Nat.le_of_eq h.nstates.symm, h.next_method, h.method_reader, fun q _ => h.states q,
    fun q hq hle => ?_, fun pid p hp => .inl ?_, fun pid p _ hp => ?_⟩
  · exact absurd hle (Nat.not_le.mpr (h.nstates ▸ hq))
  · rwa [← h.processes]
  · rwa [h.processes]

/-- Regions may change before and behind. -/
theorem trans_same {t : TraceReader} (h : Grows s t child)
    (hsame : SameThreads t s') : Grows s s' child := by
  refine ⟨hsame.nstates ▸ h.nstates, hsame.next_method.trans h.next_method,
    hsame.method_reader.trans h.method_reader, fun q hq => ?_, fun q hq hle => ?_,
    fun pid p hp => ?_, fun pid p hne hp => ?_⟩
  · have hold := h.states q hq
    have hnew := hsame.states q
    exact ⟨hnew.pid.trans hold.pid, hnew.method_stack.trans hold.method_stack,
      hnew.current_method.trans hold.current_method⟩
  · have hnew := hsame.states q
    rw [hnew.method_stack, hnew.current_method]
    exact h.fresh q (hsame.nstates ▸ hq) hle
  · rw [hsame.processes] at hp
    rw [hsame.nstates, (hsame.states p).pid]
    exact h.process pid p hp
  · rw [hsame.processes]
    exact h.kept pid p hne hp

theorem same_trans {t : TraceReader} (hsame : SameThreads s t)
    (h : Grows t s' child) : Grows s s' child := by
  refine ⟨hsame.nstates ▸ h.nstates, h.next_method.trans hsame.next_method,
    h.method_reader.trans hsame.method_reader, fun q hq => ?_, fun q hq hle => ?_,
    fun pid p hp => ?_, fun pid p hne hp => ?_⟩
  · have hold := hsame.states q
    have hnew := h.states q (hsame.nstates.symm ▸ hq)
    exact ⟨hnew.pid.trans hold.pid, hnew.method_stack.trans hold.method_stack,
      hnew.current_method.trans hold.current_method⟩
  · exact h.fresh q hq (hsame.nstates.symm ▸ hle)
  · rw [← hsame.processes, ← hsame.nstates]
    exact h.process pid p hp
  · grind [hsame.processes, h.kept]

theorem newState (s : TraceReader) {st : ProcessState} {pid : Int}
    (hpid : st.pid = pid) (hstack : st.method_stack = []) (hmethod : st.current_method_sym = none)
    (hchild : child = some pid ∨ s.processes_ pid = none) :
    Grows s ((s.newState st).setProcess pid s.nstates) child := by
  have hself : ((s.newState st).setProcess pid s.nstates).states s.nstates = st :=
    Function.update_self _ _ _
  refine ⟨Nat.le_succ _, rfl, rfl, fun q hq => ?_, fun q hq hle => ?_, fun pid' p hp => ?_,
    fun pid' p hne hp => ?_⟩
  · have hold : ((s.newState st).setProcess pid s.nstates).states q = s.states q :=
      Function.update_of_ne (Nat.ne_of_lt hq) _ _
    rw [hold]
    exact ⟨rfl, rfl, rfl⟩
  · obtain rfl : q = s.nstates := Nat.le_antisymm (Nat.le_of_lt_succ hq) hle
    grind
  · change Function.update s.processes_ pid (some s.nstates) pid' = some p at hp
    by_cases heq : pid' = pid
    · rw [heq, Function.update_self] at hp
      obtain rfl := Option.some.inj hp
      rw [hself, heq]
      exact .inr ⟨Nat.le_refl _, Nat.lt_succ_self _, hpid⟩
    · grind
  · change Function.update s.processes_ pid (some s.nstates) pid' = some p
    grind

theorem pids (h : Grows s s' child) (hinv : s.PidsInv)
    (hcurrent : s'.current_ < s'.nstates) : s'.PidsInv := by
  refine ⟨fun pid p hp => ?_, hcurrent⟩
  obtain hold | ⟨-, hlt, hpid⟩ := h.process pid p hp
  · obtain ⟨hlt, hpid⟩ := hinv.process pid p hold
    exact ⟨Nat.lt_of_lt_of_le hlt h.nstates, (h.states p hlt).pid.trans hpid⟩
  · exact ⟨hlt, hpid⟩

end Grows

end TraceReader

def PidEvent.switchPid : PidEvent → Option Int
  | .kPidSwitch _ pid => some pid
  | _ => none

/-- The pid that a child gets, also where there is a process with it. -/
def PidEvent.childPid : PidEvent → Option Int
  | .kPidFork _ _ pid => some pid
  | .kPidClone _ _ pid => some pid
  | _ => none

namespace TraceReader

structure EventStep (s s' : TraceReader) (event : PidEvent) : Prop where
  grows : Grows s s' event.childPid
  current_lt : s'.current_ < s'.nstates
  current_pid : (s'.states s'.current_).pid = event.switchPid.getD (s.states s.current_).pid

variable {event : PidEvent}

theorem EventStep.of_current (hinv : s.PidsInv) (h : Grows s s' event.childPid)
    (hcurrent : s'.current_ = s.current_) (hswitch : event.switchPid = none) :
    EventStep s s' event := by
  refine ⟨h, ?_, ?_⟩
  · grind [hinv.current, h.nstates]
  · rw [hcurrent, hswitch, (h.states _ hinv.current).pid, Option.getD_none]

theorem addProcess_grows {time : BitVec 64} {tgid pid : Int} {child : Option Int}
    (hnone : s.processes_ pid = none) (h : s.addProcess f time tgid pid = .ok s') :
    Grows s s' child ∧ s'.current_ = s.current_ ∧ s.nstates < s'.nstates ∧
      (s'.states s.nstates).pid = pid := by
  let st : ProcessState :=
    { ProcessState.new s.nstates with tgid := tgid, pid := pid, start_time := time }
  have hsame := CopyKernelRegion_threads h
  have hgrows : Grows s ((s.newState st).setProcess pid s.nstates) child :=
    Grows.newState s rfl rfl rfl (.inr hnone)
  have hself : ((s.newState st).setProcess pid s.nstates).states s.nstates = st :=
    Function.update_self _ _ _
  refine ⟨hgrows.trans_same hsame, hsame.current, hsame.nstates.symm ▸ Nat.lt_succ_self _, ?_⟩
  rw [(hsame.states s.nstates).pid, hself]

theorem addChild_grows (s : TraceReader) (time : BitVec 64) (tgid pid : Int) (name : String) :
    Grows s (s.addChild time tgid pid name) (some pid) :=
  Grows.newState s rfl rfl rfl (.inl rfl)

theorem Grows.setCurrent {child : Option Int} (h : Grows s s' child) (p : ProcessRef) :
    Grows s { s' with current_ := p } child :=
  ⟨h.nstates, h.next_method, h.method_reader, h.states, h.fresh, h.process, h.kept⟩

theorem chargeTime_threads (s : TraceReader) (time : BitVec 64) :
    SameThreads s (s.chargeTime time) := by
  have hstart : SameThreads s { s with function_start_time_ := time } :=
    ⟨rfl, rfl, rfl, rfl, rfl, fun _ => ⟨rfl, rfl, rfl⟩⟩
  refine hstart.setState_of ?_
  exact ⟨rfl, rfl, rfl⟩

theorem SameThreads.pids (h : SameThreads s s') (hinv : s.PidsInv) : s'.PidsInv := by
  have hgrows : Grows s s' none := .of_same h
  refine hgrows.pids hinv ?_
  rw [h.current, h.nstates]
  exact hinv.current

theorem switch_step (hinv : s.PidsInv) {time : BitVec 64} {pid : Int}
    (h : s.switch f time pid = .ok s') : EventStep s s' (.kPidSwitch time pid) := by
  have hcharge := chargeTime_threads s time
  rw [switch] at h
  generalize s.chargeTime time = t at h hcharge
  have ht := hcharge.pids hinv
  obtain ⟨_, -, h⟩ := bind_eq_ok.mp h
  split at h
  · rename_i p hp
    obtain rfl := Except.ok.inj h
    obtain ⟨hlt, hpid⟩ := ht.process pid p hp
    exact ⟨(Grows.of_same hcharge).setCurrent p, hlt, hpid⟩
  · rename_i hnone
    obtain ⟨t', hadd, rfl⟩ := map_eq_ok.mp h
    obtain ⟨hgrows, -, hlt, hpid⟩ := addProcess_grows hnone hadd
    exact ⟨(hgrows.same_trans hcharge).setCurrent _, hlt, hpid⟩

theorem setName_step (hinv : s.PidsInv) (hswitch : event.switchPid = none)
    {time : BitVec 64} {tgid pid : Int} {path : String}
    (h : s.setName f time tgid pid path = .ok s') : EventStep s s' event := by
  rw [setName] at h
  split at h
  · cases h
  · split at h
    · rename_i p _
      obtain rfl := Except.ok.inj h
      have hsame : SameThreads s (s.setState p { s.states p with name := some path }) := by
        refine SameThreads.setState s ?_
        exact ⟨rfl, rfl, rfl⟩
      exact .of_current hinv (.of_same hsame) rfl hswitch
    · rename_i hnone
      obtain ⟨t, hadd, rfl⟩ := map_eq_ok.mp h
      obtain ⟨hgrows, hcurrent, -⟩ := addProcess_grows hnone hadd
      have hsame : SameThreads t (t.setState s.nstates { t.states s.nstates with
          name := some path }) := by
        refine SameThreads.setState t ?_
        exact ⟨rfl, rfl, rfl⟩
      exact .of_current hinv (hgrows.trans_same hsame) hcurrent hswitch

theorem HandlePidEvent_step (hinv : s.PidsInv)
    (h : s.HandlePidEvent f event = .ok s') : EventStep s s' event := by
  have hsame : event.switchPid = none → SameThreads s s' → EventStep s s' event :=
    fun hswitch hsame => .of_current hinv (.of_same hsame) hsame.current hswitch
  cases event with
  | kPidFork time tgid pid =>
      obtain ⟨_, -, h⟩ := bind_eq_ok.mp h
      obtain ⟨name, -, h⟩ := bind_eq_ok.mp h
      have hcopy := CopyRegions_threads h
      exact .of_current hinv ((addChild_grows s time tgid pid name).trans_same hcopy)
        hcopy.current rfl
  | kPidClone time tgid pid =>
      obtain ⟨_, -, h⟩ := bind_eq_ok.mp h
      obtain ⟨name, -, h⟩ := bind_eq_ok.mp h
      obtain rfl := Except.ok.inj h
      refine .of_current hinv ((addChild_grows s time tgid pid name).trans_same
        (SameThreads.setState _ ?_)) rfl rfl
      exact ⟨rfl, rfl, rfl⟩
  | kPidSwitch time pid => exact switch_step hinv h
  | kPidExit pid =>
      obtain rfl := Except.ok.inj h
      refine hsame rfl (SameThreads.setState s ?_)
      exact ⟨rfl, rfl, rfl⟩
  | kPidMunmap vstart vend => exact hsame rfl (FindAndRemoveRegion_threads h)
  | kPidMmap event => exact hsame rfl (mmap_threads h)
  | kPidExec argv => exact hsame rfl (exec_threads h)
  | kPidName time pid path => exact setName_step hinv rfl h
  | kPidKthreadName time tgid pid path => exact setName_step hinv rfl h
  | kPidNoAction => exact hsame rfl (Except.ok.inj h ▸ .refl s)
  | kPidSymbolAdd => exact hsame rfl (Except.ok.inj h ▸ .refl s)
  | kPidSymbolRemove => exact hsame rfl (Except.ok.inj h ▸ .refl s)

/-- The invariant goes on, and the current pid is that of the last switch. -/
theorem EventStep.pids (h : EventStep s s' event) (hinv : s.PidsInv) :
    s'.PidsInv :=
  h.grows.pids hinv h.current_lt

end TraceReader

end AndroidRenderer.Qtools.Trace
