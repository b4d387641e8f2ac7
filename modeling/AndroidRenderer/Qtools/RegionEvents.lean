import AndroidRenderer.Qtools.Regions

/-!
# Pid events and regions

Each of the operations that handle a pid event goes through and keeps the invariant, under the
condition it has on the state before it.
-/

namespace AndroidRenderer.Qtools.Trace

open Run

variable {f : TraceFiles} {s : TraceReader} {p : ProcessRef} {region : RegionId} {r : Region}
  {pending : Multiset RegionId}

namespace TraceReader

/-- The same processes with the same managers, and no region less. -/
structure Extends (s s' : TraceReader) : Prop where
  nstates : s'.nstates = s.nstates
  processes : s'.processes_ = s.processes_
  current : s'.current_ = s.current_
  manager : ∀ q, s'.manager q = s.manager q
  alive : ∀ i, (∃ r, s.regions.get? i = some r) → ∃ r, s'.regions.get? i = some r

theorem Extends.refl (s : TraceReader) : Extends s s := ⟨rfl, rfl, rfl, fun _ => rfl, fun _ h => h⟩

theorem Extends.trans {a b c : TraceReader} (hab : Extends a b) (hbc : Extends b c) :
    Extends a c :=
  ⟨hbc.nstates.trans hab.nstates, hbc.processes.trans hab.processes,
    hbc.current.trans hab.current, fun q => (hbc.manager q).trans (hab.manager q),
    fun i h => hbc.alive i (hab.alive i h)⟩

theorem Extends.withEntry (f : TraceFiles) (s : TraceReader) (p : ProcessRef)
    (region : RegionId) : Extends s (s.withEntry f p region) :=
  ⟨rfl, rfl, rfl, manager_withEntry, fun _ h => h⟩

variable {regions : Registry Region} {entries : List RegionId} {pid : Int}

theorem exists_get?_set (r : Region) {i : RegionId}
    (h : ∃ r, regions.get? i = some r) : ∃ r', (regions.set region r).get? i = some r' := by
  obtain ⟨r₀, hr₀⟩ := h
  grind

theorem Extends.setRegion (s : TraceReader) (region : RegionId) (r : Region) :
    Extends s (s.setRegion region r) :=
  ⟨rfl, rfl, rfl, fun _ => rfl, fun _ => exists_get?_set r⟩

/-! ## Changes of the regions alone -/

theorem ProcessesInv.withRegions (h : s.ProcessesInv) (regions : Registry Region) :
    ({ s with regions := regions } : TraceReader).ProcessesInv :=
  ⟨h.room, h.manager_lt, h.manager_manager, h.shared, h.process, h.first, h.current⟩

/-- Entries of the hash table may go with regions. -/
theorem RegionsInv.shrink {pending' : Multiset RegionId} (h : s.RegionsInv pending)
    {hash_ : KeyedVector String RegionId}
    (hcounted : RefCounted regions Region.refs (pending' + ↑s.holders))
    (hkeeps : Keeps s.regions regions)
    (hhash : ∀ path i, hash_.get? path = some i →
      s.hash_.get? path = some i ∧ ∃ r, regions.get? i = some r) :
    ({ s with regions := regions, hash_ := hash_ } : TraceReader).RegionsInv pending' := by
  refine ⟨hcounted, fun path i hi => ?_, fun q hq => ?_⟩
  · obtain ⟨hi, r', hr'⟩ := hhash path i hi
    obtain ⟨r, hr, -, hpath⟩ := hkeeps i r' hr'
    grind [h.hash]
  · refine Keeps.sorted (s := s) hkeeps (fun i hi => ?_) (h.sorted q hq)
    exact hcounted.alive i (Multiset.mem_add.mpr (.inr (Multiset.mem_coe.mpr (mem_holders hq hi))))

theorem RegionsInv.withRegions {pending' : Multiset RegionId} (h : s.RegionsInv pending)
    (hcounted : RefCounted regions Region.refs (pending' + ↑s.holders))
    (hkeeps : Keeps s.regions regions)
    (hhash : ∀ path i, s.hash_.get? path = some i → ∃ r, regions.get? i = some r) :
    ({ s with regions := regions } : TraceReader).RegionsInv pending' :=
  h.shrink hcounted hkeeps fun path i hi => ⟨hi, hhash path i hi⟩

/-- A region is counted for one more entry. -/
theorem RegionsInv.acquire (h : s.RegionsInv pending) (hr : s.regions.get? region = some r) :
    (s.setRegion region { r with refs := r.refs + 1 }).RegionsInv (region ::ₘ pending) := by
  have hrefs : Region.refs { r with refs := r.refs + 1 } = r.refs + 1 := rfl
  refine h.withRegions ?_ (Keeps.set hr rfl rfl) fun path i hi => ?_
  · rw [Multiset.cons_add]
    exact h.counted.acquire hr hrefs
  · obtain ⟨r₀, hr₀, -⟩ := h.hash path i hi
    exact exists_get?_set _ ⟨r₀, hr₀⟩

theorem withEntry_setRegion {r' : Region} (hr : s.regions.get? region = some r)
    (hstart : r'.vstart = r.vstart) (f : TraceFiles) (p : ProcessRef) (i : RegionId) :
    (s.setRegion region r').withEntry f p i = (s.withEntry f p i).setRegion region r' := by
  have hvstart : (s.setRegion region r').vstart = s.vstart := by
    grind [vstart, setRegion]
  rw [withEntry, hvstart]
  rfl

/-! ## Kernel regions -/

theorem copyKernelEntry_ok (h : s.Inv) (hp : p < s.nstates) (hgrow : s.CanGrow p)
    (halive : ∃ r, s.regions.get? region = some r) :
    ∃ s', copyKernelEntry f p s region = .ok s' ∧ s'.Inv ∧ s'.CanGrow p ∧ Extends s s' := by
  obtain ⟨r, hr⟩ := halive
  rw [copyKernelEntry, region_ok hr]
  by_cases hkernel : r.flags.kIsKernelRegion = true
  · have hadd : s.AddRegion f p region = .ok (s.withEntry f p region) := by
      refine AddRegion_ok h.processes hp hgrow fun i hi => ?_
      rcases List.mem_append.mp hi with hi | hi
      · exact h.regions.alive_entry (h.processes.manager_lt p hp) hi
      · grind
    have hprocesses := h.processes.withRegions (s.setRegion region { r with refs := r.refs + 1 }).regions
    refine ⟨(s.setRegion region { r with refs := r.refs + 1 }).withEntry f p region, ?_,
      ⟨?_, ?_⟩, ?_, ?_⟩
    · rw [withEntry_setRegion hr (by rfl)]
      change (if r.flags.kIsKernelRegion = true then s.AddRegion f p region >>= _ else _) = _
      rw [if_pos hkernel, hadd]
      rfl
    · exact (h.regions.acquire hr).withEntry (h.processes.manager_lt p hp) f
    · exact hprocesses.withEntry hp hgrow f region
    · exact CanGrow.withEntry hprocesses hp hgrow
    · exact (Extends.setRegion s region _).trans (Extends.withEntry f _ p region)
  · refine ⟨s, ?_, h, hgrow, .refl s⟩
    change (if r.flags.kIsKernelRegion = true then _ else _) = _
    rw [if_neg hkernel]

theorem copyKernelEntries_ok (h : s.Inv) (hp : p < s.nstates)
    (hgrow : s.CanGrow p) (halive : ∀ i ∈ entries, ∃ r, s.regions.get? i = some r) :
    ∃ s', entries.foldlM (copyKernelEntry f p) s = .ok s' ∧ s'.Inv ∧ Extends s s' := by
  induction entries generalizing s with
  | nil => exact ⟨s, rfl, h, .refl s⟩
  | cons i entries ih =>
      obtain ⟨s₁, hok, hinv, hgrow₁, hext⟩ := copyKernelEntry_ok (f := f) h hp hgrow
        (halive i List.mem_cons_self)
      obtain ⟨s', hrest, hinv', hext'⟩ := ih hinv (hext.nstates.symm ▸ hp) hgrow₁ fun j hj =>
        hext.alive j (halive j (List.mem_cons_of_mem i hj))
      refine ⟨s', ?_, hinv', hext.trans hext'⟩
      rw [List.foldlM_cons, hok]
      exact hrest

/-- `CopyKernelRegion` goes through for a process without an array, or with one that can grow. -/
theorem CopyKernelRegion_ok (h : s.Inv) (hp : p < s.nstates) (hgrow : s.CanGrow p) :
    ∃ s', s.CopyKernelRegion f p = .ok s' ∧ s'.Inv ∧ Extends s s' := by
  rw [CopyKernelRegion]
  dsimp only
  split
  · exact ⟨s, rfl, h, .refl s⟩
  · obtain ⟨first, hfirst⟩ := h.processes.first
    have hm := h.processes.manager_lt p hp
    have hgrow' : s.CanGrow (s.manager p) := by
      rw [CanGrow, h.processes.manager_manager p hp]
      exact hgrow
    obtain ⟨s', hok, hinv, hext⟩ := copyKernelEntries_ok (f := f) h hm hgrow' fun i hi =>
      h.regions.alive_entry (h.processes.process 0 first hfirst).1 hi
    have hprocess : s.process 0 = .ok first := by rw [process, hfirst]
    let m := s'.states (s.manager p)
    refine ⟨s'.setState (s.manager p)
      { m with flags := { m.flags with kHasKernelRegion := true } }, ?_, ?_, ?_⟩
    · simp only [hprocess, hok, bind, Except.bind, m]
    · exact hinv.setAlike (hext.nstates.symm ▸ hm) ⟨rfl, rfl, rfl, rfl⟩
    · refine hext.trans ⟨rfl, rfl, rfl, manager_setState rfl, fun _ h => h⟩

/-! ## exec -/

/-- The entries that `exec` drops are not all the entries of a region of the hash table. -/
def SparesHashed (s : TraceReader) (p : ProcessRef) : Prop :=
  ∀ path region r, s.hash_.get? path = some region → s.regions.get? region = some r →
    (s.states p).entries.count region ≤ r.refs

theorem ClearRegions_ok (h : s.Inv) (hp : p < s.nstates) (hpid : (s.states p).pid ≠ 0)
    (hspares : s.SparesHashed p) : ∃ s', s.ClearRegions f p = .ok s' ∧ s'.Inv := by
  let st : ProcessState := { s.states p with
    regions := none
    max_regions := 0
    addr_manager := p
    flags := { (s.states p).flags with kIsClone := false, kHasKernelRegion := false } }
  have hst : st.entries = [] := rfl
  have hpending : (s.setState p st).RegionsInv ↑(s.states p).entries := by
    refine h.regions.setState hp ?_ List.Pairwise.nil
    rw [hst, Multiset.coe_nil, add_zero, zero_add]
  obtain ⟨regions, hok, hcounted, hkeeps⟩ := dropEntries_ok hpending.counted
  have hregions : ({ s.setState p st with regions := regions } : TraceReader).RegionsInv 0 := by
    refine hpending.withRegions (by rwa [zero_add]) hkeeps fun path i hi => hcounted.alive i ?_
    obtain ⟨r, hr, -⟩ := h.regions.hash path i hi
    have hcount := hpending.counted.count i r hr
    have hspared := hspares path i r hi hr
    rw [Multiset.count_add, Multiset.coe_count] at hcount
    rw [← Multiset.one_le_count_iff_mem]
    omega
  have hprocesses : ({ s.setState p st with regions := regions } : TraceReader).ProcessesInv := by
    grind [ProcessesInv.withRegions, h.processes.setState]
  have hgrow : ({ s.setState p st with regions := regions } : TraceReader).CanGrow p := by
    refine .inl ?_
    change ((Function.update s.states p st) ((Function.update s.states p st p).addr_manager)).regions = _
    grind
  obtain ⟨s', hcopy, hinv, -⟩ := CopyKernelRegion_ok (f := f) ⟨hregions, hprocesses⟩ hp hgrow
  refine ⟨s', ?_, hinv⟩
  rw [ClearRegions]
  simp only [hpid, if_false]
  rw [show (s.states p).entries.foldlM dropEntry s.regions = .ok regions from hok]
  exact hcopy

/-! ## New processes -/

/-- A new process has no array; it manages itself or has the manager of another one. -/
theorem Inv.addState (h : s.Inv) (st : ProcessState) (hregions : st.regions = none)
    (hmanager : st.addr_manager = s.nstates ∨
      ∃ q < s.nstates, st.addr_manager = s.manager q) :
    ((s.newState st).setProcess st.pid s.nstates).Inv := by
  have hentries : st.entries = [] := by rw [ProcessState.entries, hregions, Option.getD_none]
  have hself : (s.newState st).states s.nstates = st := Function.update_self _ _ _
  have hold : ∀ q < s.nstates, (s.newState st).states q = s.states q := fun q hq =>
    Function.update_of_ne hq.ne _ _
  have hmanagers : ∀ q < s.nstates, (s.newState st).manager q = s.manager q := fun q hq => by
    rw [manager, hold q hq, manager]
  have hcases : ∀ q < s.nstates + 1, q < s.nstates ∨ q = s.nstates := fun q hq =>
    Nat.lt_succ_iff_lt_or_eq.mp hq
  refine ⟨⟨?_, h.regions.hash, fun q hq => ?_⟩, ⟨fun q hq => ?_, fun q hq => ?_, fun q hq => ?_,
    fun q hq hne => ?_, fun pid q hq => ?_, ?_, Nat.lt_succ_of_lt h.processes.current⟩⟩
  · have hholders := holders_newState s st
    rw [hentries, Multiset.coe_nil, add_zero] at hholders
    change RefCounted s.regions Region.refs (0 + ↑(s.newState st).holders)
    rw [hholders]
    exact h.regions.counted
  · change s.Sorted ((s.newState st).states q).entries
    rcases hcases q hq with hq | rfl
    · rw [hold q hq]
      exact h.regions.sorted q hq
    · rw [hself, hentries]
      exact List.Pairwise.nil
  · change ((s.newState st).states q).entries.length ≤ ((s.newState st).states q).max_regions
    rcases hcases q hq with hq | rfl
    · rw [hold q hq]
      exact h.processes.room q hq
    · rw [hself, hentries]
      exact Nat.zero_le _
  · change (s.newState st).manager q < s.nstates + 1
    rcases hcases q hq with hq | rfl
    · rw [hmanagers q hq]
      exact Nat.lt_succ_of_lt (h.processes.manager_lt q hq)
    · rw [manager, hself]
      rcases hmanager with heq | ⟨q, hq, heq⟩
      · simp [heq]
      · rw [heq]
        exact Nat.lt_succ_of_lt (h.processes.manager_lt q hq)
  · change (s.newState st).manager ((s.newState st).manager q) = (s.newState st).manager q
    rcases hcases q hq with hq | rfl
    · grind [h.processes.manager_lt, h.processes.manager_manager]
    · grind [manager, h.processes.manager_lt, h.processes.manager_manager]
  · change ((s.newState st).states q).entries = []
    rcases hcases q hq with hq | rfl
    · rw [hold q hq]
      exact h.processes.shared q hq (hmanagers q hq ▸ hne)
    · rw [hself, hentries]
  · change (Function.update s.processes_ st.pid (some s.nstates)) pid = some q at hq
    change q < s.nstates + 1 ∧ ((s.newState st).states q).pid = pid
    grind [h.processes.process]
  · change ∃ q, (Function.update s.processes_ st.pid (some s.nstates)) 0 = some q
    grind [h.processes.first]

/-- `CopyRegions` goes through for a child that manages itself and has no entries yet. -/
theorem CopyRegions_ok (h : s.Inv) {parent child : ProcessRef} (hparent : parent < s.nstates)
    (hchild : child < s.nstates) (hself : s.manager child = child)
    (hempty : (s.states child).entries = []) :
    ∃ s', s.CopyRegions parent child = .ok s' ∧ s'.Inv := by
  have hm := h.processes.manager_lt parent hparent
  obtain ⟨regions, hok, hcounted, hkeeps⟩ := shareEntries_ok h.regions.counted
    fun i (hi : i ∈ (s.states (s.manager parent)).entries) =>
      Multiset.mem_add.mpr (.inr (Multiset.mem_coe.mpr (mem_holders hm hi)))
  have hpending : ({ s with regions := regions } : TraceReader).RegionsInv
      ↑(s.states (s.manager parent)).entries := by
    refine h.regions.withRegions (by rwa [zero_add] at hcounted) hkeeps fun path i hi => ?_
    obtain ⟨r, hr, -⟩ := h.regions.hash path i hi
    exact hcounted.alive i (Multiset.mem_add.mpr (.inr (h.regions.counted.mem hr)))
  refine ⟨({ s with regions := regions } : TraceReader).setState child
    { s.states child with
      regions := some (s.states (s.manager parent)).entries
      max_regions := (s.states (s.manager parent)).max_regions }, ?_, ?_, ?_⟩
  · rw [CopyRegions]
    simp only [hok, bind, Except.bind]
  · refine hpending.setState hchild ?_ (hpending.sorted _ hm)
    change 0 + (↑(s.states (s.manager parent)).entries : Multiset RegionId) =
      _ + (↑(s.states child).entries : Multiset RegionId)
    rw [hempty, Multiset.coe_nil, add_zero, zero_add]
  · refine (h.processes.withRegions regions).setState hchild (h.processes.room _ hm) (.inl rfl)
      (fun hne => absurd hself hne) rfl

theorem addProcess_ok (h : s.Inv) (time : BitVec 64) (tgid pid : Int) :
    ∃ s', s.addProcess f time tgid pid = .ok s' ∧ s'.Inv ∧ s'.nstates = s.nstates + 1 := by
  let st : ProcessState :=
    { ProcessState.new s.nstates with tgid := tgid, pid := pid, start_time := time }
  have hinv : ((s.newState st).setProcess pid s.nstates).Inv := h.addState st rfl (.inl rfl)
  have hself : (s.newState st).states s.nstates = st := Function.update_self _ _ _
  have hgrow : ((s.newState st).setProcess pid s.nstates).CanGrow s.nstates := by
    refine .inl ?_
    change ((s.newState st).states ((s.newState st).states s.nstates).addr_manager).regions = _
    rw [hself]
    change ((s.newState st).states s.nstates).regions = _
    rw [hself]
    rfl
  obtain ⟨s', hok, hinv', hext⟩ := CopyKernelRegion_ok (f := f) hinv (Nat.lt_succ_self s.nstates) hgrow
  exact ⟨s', hok, hinv', hext.nstates⟩

/-! ## Events about processes -/

/-- Only `exit` and an assertion end the program. -/
def Ends (e : TraceFault) : Prop := e = .exit ∨ e = .assertion

theorem meets_of_ok {x : Except TraceFault TraceReader} {E : TraceFault → Prop}
    {P : TraceReader → Prop} (h : ∃ s', x = .ok s' ∧ P s') : Meets x E P := by
  obtain ⟨s', rfl, hs'⟩ := h
  exact .pure hs'

/-- A pid that is too large ends the program. -/
def PidExits (pid : Int) (e : TraceFault) : Prop := e = .exit ∧ kNumPids ≤ pid

theorem checkPid_meets (hpid : 0 ≤ pid) :
    Meets (checkPid pid) (PidExits pid) fun _ => True := by
  rw [checkPid]
  split
  · rename_i hlarge
    exact .error ⟨rfl, hlarge⟩
  · rw [if_neg (by omega)]
    exact .pure trivial

theorem fork_meets (h : s.Inv) (hpid : 0 ≤ pid)
    (hname : (s.states s.current_).name.isSome) (time : BitVec 64) (tgid : Int) :
    Meets (s.fork time tgid pid) (PidExits pid) Inv := by
  refine (checkPid_meets hpid).bind fun _ _ => ?_
  obtain ⟨name, hname⟩ := Option.isSome_iff_exists.mp hname
  have hcurrent : s.currentName = .ok name := by rw [currentName, hname]
  rw [hcurrent]
  have hinv : (s.addChild time tgid pid name).Inv := h.addState _ rfl (.inl rfl)
  have hself : (s.addChild time tgid pid name).states s.nstates = _ := Function.update_self _ _ _
  refine meets_of_ok (CopyRegions_ok hinv (Nat.lt_succ_of_lt h.processes.current)
    (Nat.lt_succ_self _) ?_ ?_)
  · rw [manager, hself]
    rfl
  · rw [hself]
    rfl

theorem clone_meets (h : s.Inv) (hpid : 0 ≤ pid)
    (hname : (s.states s.current_).name.isSome) (time : BitVec 64) (tgid : Int) :
    Meets (s.clone time tgid pid) (PidExits pid) Inv := by
  refine (checkPid_meets hpid).bind fun _ _ => ?_
  obtain ⟨name, hname⟩ := Option.isSome_iff_exists.mp hname
  have hcurrent : s.currentName = .ok name := by rw [currentName, hname]
  rw [hcurrent]
  refine .pure ?_
  let st : ProcessState := { ProcessState.new s.nstates with
    pid := pid
    tgid := tgid
    parent_pid := (s.states s.current_).pid
    parent := some s.current_
    start_time := time
    name := some name
    flags := ⟨false, false, true, false, false⟩
    addr_manager := s.manager s.current_ }
  have hinv : ((s.newState st).setProcess pid s.nstates).Inv :=
    h.addState st rfl (.inr ⟨s.current_, h.processes.current, rfl⟩)
  have hself : (s.addChild time tgid pid name).states s.nstates = _ := Function.update_self _ _ _
  rw [hself]
  have heq : ((s.addChild time tgid pid name).setState s.nstates st) =
      (s.newState st).setProcess pid s.nstates := by
    simp [addChild, setState, setProcess, newState, Function.update_idem]
  exact heq ▸ hinv

/-- Another process runs. -/
theorem Inv.setCurrent (h : s.Inv) (hp : p < s.nstates) :
    ({ s with current_ := p } : TraceReader).Inv :=
  ⟨⟨h.regions.counted, h.regions.hash, h.regions.sorted⟩, ⟨h.processes.room,
    h.processes.manager_lt, h.processes.manager_manager, h.processes.shared, h.processes.process,
    h.processes.first, hp⟩⟩

theorem switch_meets (h : s.Inv) (hpid : 0 ≤ pid) (time : BitVec 64) :
    Meets (s.switch f time pid) (PidExits pid) Inv := by
  have hinv : (s.chargeTime time).Inv := by
    refine Inv.setAlike (s := { s with function_start_time_ := time }) ?_ h.processes.current
      ⟨rfl, rfl, rfl, rfl⟩
    exact ⟨⟨h.regions.counted, h.regions.hash, h.regions.sorted⟩, ⟨h.processes.room,
      h.processes.manager_lt, h.processes.manager_manager, h.processes.shared,
      h.processes.process, h.processes.first, h.processes.current⟩⟩
  rw [switch]
  generalize s.chargeTime time = t at hinv
  refine (checkPid_meets hpid).bind fun _ _ => ?_
  cases hp : t.processes_ pid with
  | some p => exact .pure (hinv.setCurrent (hinv.processes.process pid p hp).1)
  | none =>
      obtain ⟨s', hok, hinv', hn⟩ := addProcess_ok (f := f) hinv time 0 pid
      change Meets ((t.addProcess f time 0 pid).map _) _ _
      rw [hok]
      exact .pure (hinv'.setCurrent (hn.symm ▸ Nat.lt_succ_self t.nstates))

theorem setName_meets {E : TraceFault → Prop} (h : s.Inv) (hpid : 0 ≤ pid)
    (hlt : pid < kNumPids) (time : BitVec 64) (tgid : Int) (path : String) :
    Meets (s.setName f time tgid pid path) E Inv := by
  rw [setName, if_neg (by omega)]
  cases hp : s.processes_ pid with
  | some p => exact .pure (h.setAlike (h.processes.process pid p hp).1 ⟨rfl, rfl, rfl, rfl⟩)
  | none =>
      obtain ⟨s', hok, hinv, hn⟩ := addProcess_ok (f := f) h time tgid pid
      change Meets ((s.addProcess f time tgid pid).map _) _ _
      rw [hok]
      refine .pure (hinv.setAlike ?_ ⟨rfl, rfl, rfl, rfl⟩)
      simp [hn]

/-! ## munmap -/

theorem perm_set {α : Type} {xs : List α} {i : Nat} {a : α} (h : xs[i]? = some a) (b : α) :
    (a :: xs.set i b).Perm (b :: xs) := by
  induction xs generalizing i with
  | nil => cases h
  | cons x xs ih =>
      cases i with
      | zero =>
          obtain rfl := Option.some.inj h
          exact List.Perm.swap b x xs
      | succ i =>
          exact (List.Perm.swap x a _).trans (((ih h).cons x).trans (List.Perm.swap b x xs))

/-- An element is taken out; the last one takes its place. -/
theorem perm_dropLast {α : Type} {xs : List α} {i : Nat} {a : α} (h : xs[i]? = some a) :
    (a :: (xs.set i (xs.getLastD a)).dropLast).Perm xs := by
  obtain ⟨hi, heq⟩ := List.getElem?_eq_some_iff.mp h
  rcases List.eq_nil_or_concat xs with rfl | ⟨ys, b, rfl⟩
  · cases h
  · rw [List.concat_eq_append] at h hi ⊢
    have hlast : (ys ++ [b]).getLastD a = b := by simp
    rw [hlast]
    by_cases hys : i < ys.length
    · rw [List.set_append_left _ _ hys, List.dropLast_concat]
      rw [List.getElem?_append_left hys] at h
      exact (perm_set h b).trans (List.perm_append_singleton b ys).symm
    · rw [List.length_append, List.length_singleton] at hi
      obtain rfl : i = ys.length := by omega
      rw [List.getElem?_concat_length] at h
      rw [List.set_append_right _ _ (Nat.le_refl _), Nat.sub_self, List.set_cons_zero,
        List.dropLast_concat, ← Option.some.inj h]
      exact (List.perm_append_singleton b ys).symm

theorem vstartAt_ok (halive : ∀ i ∈ entries, ∃ r, s.regions.get? i = some r) (i : Nat)
    (hi : i < entries.length) :
    s.vstartAt entries i = .ok (s.vstart (entries.getD i 0)) := by
  obtain ⟨r, hr⟩ := halive entries[i] (List.getElem_mem hi)
  rw [vstartAt, entryAt, List.getD_eq_getElem?_getD, List.getElem?_eq_getElem hi,
    Option.getD_some, vstart, hr]
  change (s.region entries[i]).map _ = _
  rw [region_ok hr]
  rfl

/-- The search for a region goes through where there is one. -/
theorem FindRegionIndex_ok (hne : entries ≠ [])
    (halive : ∀ i ∈ entries, ∃ r, s.regions.get? i = some r) (addr : BitVec 32) :
    ∃ index, s.FindRegionIndex addr entries = .ok index ∧ index < entries.length := by
  obtain ⟨place, hplace, hwithin⟩ :=
    BinarySearch.search_all_within (vstartAt_ok halive) addr.toNat
  refine ⟨place.closest.getD 0, ?_, ?_⟩
  · rw [FindRegionIndex, hplace]
    rfl
  · cases hclosest : place.closest with
    | none => exact List.length_pos_iff.mpr hne
    | some index => exact hwithin.closest_lt hclosest

/-- One entry goes; the others are arranged anew, and the hash table forgets a region that is
deleted. -/
theorem Inv.dropOne (h : s.Inv) (hp : p < s.nstates) (hself : s.manager p = p)
    {rest : List RegionId} (hperm : (region :: rest).Perm (s.states p).entries)
    (hr : s.regions.get? region = some r) :
    ∃ regions, dropEntry s.regions region = .ok regions ∧
      (∀ i ∈ rest, ∃ r, regions.get? i = some r) ∧
      ∀ (hash_ : KeyedVector String RegionId) (xs : List RegionId), xs.Perm rest →
        (∀ path i, hash_.get? path = some i →
          s.hash_.get? path = some i ∧ (i = region → 0 < r.refs)) →
        ({ s with regions := regions, hash_ := hash_ } : TraceReader).Sorted xs →
        (({ s with regions := regions, hash_ := hash_ } : TraceReader).setState p
          { s.states p with regions := some xs }).Inv := by
  have hsplit : ∀ xs : List RegionId, xs.Perm rest → (↑s.holders : Multiset RegionId) =
      region ::ₘ ↑(s.setState p { s.states p with regions := some xs }).holders := by
    intro xs hxs
    have hsum := holders_setState hp { s.states p with regions := some xs }
    have hentries : (↑(s.states p).entries : Multiset RegionId) = region ::ₘ ↑xs := by
      rw [Multiset.cons_coe]
      exact Multiset.coe_eq_coe.mpr (hperm.symm.trans (hxs.symm.cons region))
    rw [hentries, Multiset.add_cons, ← Multiset.cons_add] at hsum
    exact (add_right_cancel hsum).symm
  have hall := h.regions.counted
  rw [zero_add, hsplit rest (.refl rest)] at hall
  obtain ⟨regions, hdrop, hcounted, hkeeps⟩ := dropEntry_ok hall
  have halive : ∀ i ∈ rest, ∃ r, regions.get? i = some r := by
    intro i hi
    refine hcounted.alive i (Multiset.mem_coe.mpr (mem_holders hp ?_))
    rw [states_setState, Function.update_self]
    exact hi
  refine ⟨regions, hdrop, halive, fun hash_ xs hxs hhash hsorted => ⟨?_, ?_⟩⟩
  · have hholders := hsplit xs hxs
    rw [hsplit rest (.refl rest)] at hholders
    have hpending : (s.setState p { s.states p with regions := some xs }).RegionsInv {region} := by
      refine h.regions.setState hp ?_ (hsorted.imp_of_mem fun {a b} ha hb hle => ?_)
      · rw [zero_add, Multiset.singleton_add, Multiset.cons_coe]
        exact Multiset.coe_eq_coe.mpr ((hxs.cons region).trans hperm)
      · have hvstart : ∀ i ∈ xs, TraceReader.vstart { s with regions := regions, hash_ := hash_ } i =
            s.vstart i := fun i hi => Keeps.vstart hkeeps (halive i (hxs.mem_iff.mp hi))
        rwa [← hvstart a ha, ← hvstart b hb]
    refine hpending.shrink ?_ hkeeps fun path i hi => ?_
    · rw [zero_add, ← (Multiset.cons_inj_right region).mp hholders]
      exact hcounted
    · obtain ⟨hold, hpos⟩ := hhash path i hi
      refine ⟨hold, hcounted.alive i ?_⟩
      obtain ⟨r₀, hr₀, -⟩ := h.regions.hash path i hold
      by_cases heq : i = region
      · have hrefs := hall.count region r hr
        have hpos := hpos heq
        rw [Multiset.count_cons_self] at hrefs
        rw [heq, ← Multiset.one_le_count_iff_mem]
        omega
      · exact (Multiset.mem_cons.mp (hall.mem hr₀)).resolve_left heq
  · have hprocesses : (s.setState p { s.states p with regions := some xs }).ProcessesInv := by
      refine h.processes.setState hp ?_ (.inl rfl) (fun hne => absurd hself hne) rfl
      have hroom := h.processes.room p hp
      rw [← (hxs.cons region |>.trans hperm).length_eq, List.length_cons] at hroom
      exact Nat.le_of_succ_le hroom
    exact ⟨hprocesses.room, hprocesses.manager_lt, hprocesses.manager_manager,
      hprocesses.shared, hprocesses.process, hprocesses.first, hprocesses.current⟩

theorem removeEntry_ok (h : s.Inv) (hp : p < s.nstates) (hself : s.manager p = p) {index : Nat}
    (hget : (s.states p).entries[index]? = some region) (hr : s.regions.get? region = some r) :
    ∃ s', s.removeEntry f p index region r = .ok s' ∧ s'.Inv := by
  have hperm := perm_dropLast hget
  obtain ⟨regions, hdrop, halive, hinv⟩ := h.dropOne hp hself hperm hr
  let hash_ := if r.refs = 0 then s.hash_.remove r.path else s.hash_
  have hs₁ : (if r.refs = 0 then
      { s with hash_ := s.hash_.remove r.path, regions := s.regions.remove region }
      else s.setRegion region { r with refs := r.refs - 1 }) =
      { s with regions := regions, hash_ := hash_ } := by
    rw [dropEntry, hr] at hdrop
    by_cases hzero : r.refs = 0
    · grind
    · simp only [Nat.pos_of_ne_zero hzero, if_true] at hdrop
      rw [if_neg hzero, setRegion, Except.ok.inj hdrop]
      simp only [hash_, if_neg hzero]
  have hhash : ∀ path i, hash_.get? path = some i →
      s.hash_.get? path = some i ∧ (i = region → 0 < r.refs) := by
    intro path i hi
    by_cases hzero : r.refs = 0
    · simp only [hash_, if_pos hzero, KeyedVector.get?_remove] at hi
      grind [h.regions.hash]
    · simp only [hash_, if_neg hzero] at hi
      exact ⟨hi, fun _ => Nat.pos_of_ne_zero hzero⟩
  rw [removeEntry]
  simp only [hs₁]
  split
  · rw [sortRegions_ok (s := { s with regions := regions, hash_ := hash_ }) halive]
    exact ⟨_, rfl, hinv hash_ _ (f.qsort.perm _ _) hhash (f.qsort.sorted _ _)⟩
  · rename_i hlength
    have hrest := hperm.length_eq
    rw [List.length_cons] at hrest
    have hnil : ((s.states p).entries.set index ((s.states p).entries.getLastD region)).dropLast =
        [] := List.eq_nil_of_length_eq_zero (by omega)
    refine ⟨_, rfl, hinv hash_ [] ?_ hhash List.Pairwise.nil⟩
    rw [hnil]

/-! ### Truncated regions -/

/-- A region with its first entry is made. -/
theorem RegionsInv.newRegion (h : s.RegionsInv pending) (hrefs : r.refs = 0) :
    (s.newRegion r).RegionsInv (s.regions.next ::ₘ pending) := by
  have hold : ∀ i, (∃ r, s.regions.get? i = some r) →
      (s.newRegion r).regions.get? i = s.regions.get? i := by
    rintro i ⟨r₀, hr₀⟩
    change (s.regions.insert r).get? i = _
    rw [Registry.get?_insert, if_neg (Registry.lt_next_of_get? hr₀).ne]
  refine ⟨?_, fun path i hi => ?_, fun q hq => ?_⟩
  · rw [Multiset.cons_add]
    exact h.counted.insert hrefs
  · obtain ⟨r₀, hr₀, hpath⟩ := h.hash path i hi
    exact ⟨r₀, (hold i ⟨r₀, hr₀⟩).trans hr₀, hpath⟩
  · refine (h.sorted q hq).imp_of_mem fun {a b} ha hb hle => ?_
    rw [vstart, vstart, hold a (h.alive_entry hq ha), hold b (h.alive_entry hq hb)]
    exact hle

/-- One of several entries of a region goes. -/
theorem RegionsInv.release (h : s.RegionsInv (region ::ₘ pending))
    (hr : s.regions.get? region = some r) (hpos : r.refs ≠ 0) :
    (s.setRegion region { r with refs := r.refs - 1 }).RegionsInv pending := by
  have hrefs : Region.refs { r with refs := r.refs - 1 } + 1 = r.refs :=
    Nat.sub_add_cancel (Nat.pos_of_ne_zero hpos)
  refine h.withRegions ?_ (Keeps.set hr rfl rfl) fun path i hi => ?_
  · have hcounted := h.counted
    rw [Multiset.cons_add] at hcounted
    exact hcounted.release hr hrefs
  · obtain ⟨r₀, hr₀, -⟩ := h.hash path i hi
    exact exists_get?_set _ ⟨r₀, hr₀⟩

theorem set_insert {α : Type} {regions : Registry α} {i : Nat} (hi : i ≠ regions.next) (a b : α) :
    (regions.insert a).set i b = (regions.set i b).insert a := by
  simp only [Registry.set, Registry.insert, List.map_cons, if_neg (Ne.symm hi)]

theorem truncateEntry_inv (h : s.Inv) (hp : p < s.nstates) (hself : s.manager p = p) {index : Nat}
    (hget : (s.states p).entries[index]? = some region) (hr : s.regions.get? region = some r)
    (vstart : BitVec 32) : (s.truncateEntry p index region r vstart).Inv := by
  rw [truncateEntry]
  by_cases hzero : r.refs = 0
  · rw [if_pos hzero]
    refine ⟨h.regions.withRegions ?_ (Keeps.set hr rfl rfl) fun path i hi => ?_,
      h.processes.withRegions _⟩
    · exact h.regions.counted.modify hr rfl
    · obtain ⟨r₀, hr₀, -⟩ := h.regions.hash path i hi
      exact exists_get?_set _ ⟨r₀, hr₀⟩
  · rw [if_neg hzero]
    dsimp only
    have hlt := Registry.lt_next_of_get? hr
    let copy : Region := { r.MakePrivateCopy with vend := vstart }
    let st : ProcessState :=
      { s.states p with regions := some ((s.states p).entries.set index s.regions.next) }
    have hnext : (s.newRegion copy).regions.get? s.regions.next = some copy := by
      change (s.regions.insert copy).get? _ = _
      rw [Registry.get?_insert, if_pos rfl]
    have hold : (s.newRegion copy).regions.get? region = some r := by
      change (s.regions.insert copy).get? _ = _
      rw [Registry.get?_insert, if_neg hlt.ne, hr]
    have hnew : (s.newRegion copy).RegionsInv {s.regions.next} := h.regions.newRegion rfl
    have hset : ((s.newRegion copy).setState p st).RegionsInv {region} := by
      refine hnew.setState hp ?_ ?_
      · rw [Multiset.singleton_add, Multiset.singleton_add, Multiset.cons_coe]
        exact Multiset.coe_eq_coe.mpr (perm_set hget s.regions.next)
      · have hvstart : (s.newRegion copy).vstart s.regions.next =
            (s.newRegion copy).vstart region := by
          rw [TraceReader.vstart, TraceReader.vstart, hnext, hold]
          rfl
        have hsorted := List.pairwise_map.mpr (hnew.sorted p hp)
        refine List.pairwise_map.mp ?_
        change List.Pairwise (· ≤ ·)
          (((s.states p).entries.set index s.regions.next).map (s.newRegion copy).vstart)
        rw [List.map_set, hvstart, ← List.map_set]
        obtain ⟨_, heq⟩ := List.getElem?_eq_some_iff.mp hget
        rw [← heq, List.set_getElem_self]
        exact hsorted
    have hrelease : (((s.newRegion copy).setState p st).setRegion region
        { r with refs := r.refs - 1 }).RegionsInv 0 := RegionsInv.release hset hold hzero
    have hprocesses : (s.setState p st).ProcessesInv := by
      refine h.processes.setState hp ?_ (.inl rfl) (fun hne => absurd hself hne) rfl
      change ((s.states p).entries.set index s.regions.next).length ≤ _
      rw [List.length_set]
      exact h.processes.room p hp
    rw [← set_insert hlt.ne]
    exact ⟨hrelease, ⟨hprocesses.room, hprocesses.manager_lt, hprocesses.manager_manager,
      hprocesses.shared, hprocesses.process, hprocesses.first, hprocesses.current⟩⟩

/-- `FindAndRemoveRegion` goes through where the address space has a region. -/
theorem FindAndRemoveRegion_ok (h : s.Inv) (hp : p < s.nstates) (hne : s.managerEntries p ≠ [])
    (vstart vend : BitVec 32) : ∃ s', s.FindAndRemoveRegion f p vstart vend = .ok s' ∧ s'.Inv := by
  have hm := h.processes.manager_lt p hp
  have hself := h.processes.manager_manager p hp
  have halive : ∀ i ∈ s.managerEntries p, ∃ r, s.regions.get? i = some r := fun i hi =>
    h.regions.alive_entry hm hi
  obtain ⟨index, hindex, hlt⟩ := FindRegionIndex_ok hne halive vstart
  have hget := List.getElem?_eq_getElem hlt
  obtain ⟨r, hr⟩ := halive _ (List.getElem_mem hlt)
  have hentry : entryAt (s.managerEntries p) index = .ok (s.managerEntries p)[index] := by
    rw [entryAt, hget]
  rw [FindAndRemoveRegion]
  simp only [hindex, hentry, region_ok hr, bind, Except.bind]
  split
  · exact ⟨s, rfl, h⟩
  · split
    · exact removeEntry_ok h hm hself hget hr
    · split
      · exact ⟨_, rfl, truncateEntry_inv h hm hself hget hr vstart⟩
      · exact ⟨s, rfl, h⟩

/-! ## mmap -/

theorem AddRegion_pending (hr : s.RegionsInv {region}) (h : s.ProcessesInv) (hp : p < s.nstates)
    (hgrow : s.CanGrow p) :
    ∃ s', s.AddRegion f p region = .ok s' ∧ s'.Inv ∧ s'.CanGrow p ∧ Extends s s' := by
  have hregions : (s.withEntry f p region).RegionsInv 0 :=
    RegionsInv.withEntry hr (h.manager_lt p hp) f
  refine ⟨s.withEntry f p region, AddRegion_ok h hp hgrow fun i hi => ?_,
    ⟨hregions, h.withEntry hp hgrow f region⟩,
    hgrow.withEntry h hp, Extends.withEntry f s p region⟩
  rcases List.mem_append.mp hi with hi | hi
  · exact hr.alive_entry (h.manager_lt p hp) hi
  · rw [List.mem_singleton.mp hi]
    exact hr.counted.alive region (Multiset.mem_add.mpr (.inl (Multiset.mem_singleton_self region)))

/-- The hash table gets a new region under its path. -/
theorem RegionsInv.newHashedRegion (h : s.RegionsInv pending) (hrefs : r.refs = 0)
    (symbols : List Symbol) :
    (s.newHashedRegion r symbols).RegionsInv (s.regions.next ::ₘ pending) := by
  have hnew := h.newRegion (r := { r with symbols := s.tables.length }) hrefs
  refine ⟨hnew.counted, fun path i hi => ?_, hnew.sorted⟩
  change (s.hash_.add r.path s.regions.next).get? path = some i at hi
  change ∃ r', (s.regions.insert { r with symbols := s.tables.length }).get? i = some r' ∧ _
  rw [KeyedVector.get?_add] at hi
  split at hi
  · rename_i hpath
    refine ⟨{ r with symbols := s.tables.length }, ?_, hpath.symm⟩
    rw [← Option.some.inj hi, Registry.get?_insert, if_pos rfl]
  · exact hnew.hash path i hi

/-- An entry of the current process for a region of which all other entries are made. -/
theorem addPending_ok (hr : s.RegionsInv {region}) (h : s.ProcessesInv)
    (hgrow : s.CanGrow s.current_) :
    ∃ s', s.markMmap.AddRegion f s.current_ region = .ok s' ∧ s'.Inv := by
  have halike : Alike { s.states s.current_ with
      flags := { (s.states s.current_).flags with kHasFirstMmap := true } }
      (s.states s.current_) := ⟨rfl, rfl, rfl, rfl⟩
  obtain ⟨s', hok, hinv, -⟩ := AddRegion_pending (f := f) (hr.setAlike h.current halike)
    (h.setAlike h.current halike) h.current (hgrow.setAlike halike)
  exact ⟨s', hok, hinv⟩

theorem ReadElfSymbols_refs (f : TraceFiles) (includeLocal : Bool) (region : RegionId)
    (r : Region) : (ReadElfSymbols f includeLocal region r).1.refs = r.refs := by
  rw [ReadElfSymbols]
  split
  · rfl
  · rfl

theorem readSymbols_refs (f : TraceFiles) (region : RegionId) (r : Region) :
    (readSymbols f region r).1.refs = r.refs := by
  rw [readSymbols]
  split
  · rfl
  · exact ReadElfSymbols_refs f false region r

theorem mmap_ok (h : s.Inv) (hgrow : s.CanGrow s.current_) (event : PidEvent.Mmap) :
    ∃ s', s.mmap f event = .ok s' ∧ s'.Inv := by
  rw [mmap]
  cases hpath : s.hash_.get? event.path with
  | none =>
      have hprocesses := h.processes
      refine addPending_ok (s := s.newHashedRegion _ _) (h.regions.newHashedRegion ?_ _)
        ⟨hprocesses.room, hprocesses.manager_lt, hprocesses.manager_manager, hprocesses.shared,
          hprocesses.process, hprocesses.first, hprocesses.current⟩ hgrow
      exact readSymbols_refs f _ _
  | some existing =>
      obtain ⟨r, hr, -⟩ := h.regions.hash event.path existing hpath
      simp only [region_ok hr, bind, Except.bind]
      split
      · exact addPending_ok (s := s.newRegion _) (h.regions.newRegion rfl)
          (h.processes.withRegions _) hgrow
      · obtain ⟨s', hok, hinv, -⟩ := AddRegion_pending (f := f) (h.regions.acquire hr)
          (h.processes.withRegions _) h.processes.current hgrow
        exact ⟨s', hok, hinv⟩

end TraceReader

end AndroidRenderer.Qtools.Trace
