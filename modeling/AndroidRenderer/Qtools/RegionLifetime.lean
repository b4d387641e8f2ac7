import AndroidRenderer.Qtools.RegionEvents

/-!
# Lifetime of regions

A region lives as long as an entry of an array holds it. The path table does not count, and only
`munmap` takes a region out of it: a run is sound where no `exec` drops the last entry of a region
that the table has.
-/

namespace AndroidRenderer.Qtools.Trace

open Run

variable {f : TraceFiles} {s : TraceReader}

namespace TraceReader

/-- What the arrays, the counts and the path table promise between two events. -/
structure RegionsSound (s : TraceReader) : Prop where
  refs : ∀ region r, s.regions.get? region = some r → r.refs + 1 = s.holders.count region
  sorted : ∀ p < s.nstates, (s.states p).entries.Pairwise fun a b => s.vstart a ≤ s.vstart b
  managers : ∀ p < s.nstates, s.manager p ≠ p → (s.states p).entries = []
  entries : ∀ region ∈ s.holders, (s.regions.get? region).isSome
  hash : ∀ path region, s.hash_.get? path = some region → (s.regions.get? region).isSome
  deleted : ∀ region, s.regions.get? region = none ↔ region ∉ s.holders

theorem Inv.sound (h : s.Inv) : s.RegionsSound := by
  have hcounted := h.regions.counted
  rw [zero_add] at hcounted
  have hmem : ∀ region, region ∈ s.holders ↔ (s.regions.get? region).isSome := fun region => by
    rw [← hcounted.mem_iff, Multiset.mem_coe]
  refine ⟨fun region r hr => ?_, h.regions.sorted, h.processes.shared,
    fun region hregion => (hmem region).mp hregion, fun path region hpath => ?_, fun region => ?_⟩
  · rw [hcounted.count region r hr, Multiset.coe_count]
  · grind [h.regions.hash]
  · rw [hmem, Option.isSome_iff_ne_none, not_not]

/-! ## The first state -/

/-- A reader whose only process has the pid 0 and an array that can grow. -/
structure Started (s : TraceReader) : Prop where
  inv : s.Inv
  first : s.processes_ 0 = some s.current_
  grow : s.CanGrow s.current_

theorem blank_started (f : TraceFiles) : (blank f).Started := by
  have hcounted : RefCounted (blank f).regions Region.refs (0 + ↑(blank f).holders) := .empty _
  refine ⟨⟨⟨hcounted, fun path region h => ?_, fun p _ => List.Pairwise.nil⟩,
    ⟨fun p _ => Nat.zero_le _, fun p hp => hp, fun p _ => rfl, fun p _ hne => absurd rfl hne,
      fun pid p hp => ?_, ⟨0, rfl⟩, Nat.zero_lt_one⟩⟩, rfl, .inl rfl⟩
  · change KeyedVector.empty.get? path = some region at h
    cases h
  · change (if pid = 0 then some 0 else none) = some p at hp
    split at hp
    · rename_i hpid
      rw [← Option.some.inj hp]
      exact ⟨Nat.zero_lt_one, hpid.symm⟩
    · cases hp

/-- The first process gets a new region that the path table knows. -/
theorem Started.addHashed (h : s.Started) {r : Region} (hrefs : r.refs = 0)
    (symbols : List Symbol) :
    ∃ s', (s.newHashedRegion r symbols).AddRegion f s.current_ s.regions.next = .ok s' ∧
      s'.Started ∧ s'.current_ = s.current_ := by
  have hprocesses := h.inv.processes
  obtain ⟨s', hok, hinv, hgrow, hext⟩ := AddRegion_pending (f := f)
    (h.inv.regions.newHashedRegion hrefs symbols)
    ⟨hprocesses.room, hprocesses.manager_lt, hprocesses.manager_manager, hprocesses.shared,
      hprocesses.process, hprocesses.first, hprocesses.current⟩ hprocesses.current h.grow
  refine ⟨s', hok, ⟨hinv, ?_, ?_⟩, hext.current⟩
  · rw [hext.processes, hext.current]
    exact h.first
  · rw [hext.current]
    exact hgrow

theorem Started.addPredefinedRegion (h : s.Started) (p : Predefined) :
    ∃ s', s.AddPredefinedRegion f p = .ok s' ∧ s'.Started := by
  obtain ⟨s', hok, hstarted, -⟩ := h.addHashed (f := f)
    (r := { Region.new p.path p.vstart p.vend 0 with
      base_addr := p.base
      flags := ⟨true, false, false, p.userMapped⟩ }) rfl
    (p.symbols.map fun sym => ⟨sym.1, sym.2.1, none, s.regions.next, sym.2.2⟩)
  exact ⟨s', hok, hstarted⟩

theorem Started.readKernelSymbols (h : s.Started) (kernel_file : String) :
    ∃ s', s.ReadKernelSymbols f kernel_file = .ok s' ∧ s'.Started := by
  let read := ReadElfSymbols f true s.regions.next
    { Region.new kernel_file 0 0 0 with flags := ⟨true, false, false, false⟩ }
  have hrefs : ({ read.1 with vend := 0xffff0000 } : Region).refs = 0 :=
    ReadElfSymbols_refs f true s.regions.next _
  obtain ⟨s', hok, hstarted, hcurrent⟩ := h.addHashed (f := f) hrefs read.2
  have halike : Alike { s'.states s.current_ with
      flags := { (s'.states s.current_).flags with kHasKernelRegion := true } }
      (s'.states s.current_) := ⟨rfl, rfl, rfl, rfl⟩
  have hlt : s.current_ < s'.nstates := hcurrent ▸ hstarted.inv.processes.current
  refine ⟨s'.setState s.current_ _, ?_, hstarted.inv.setAlike hlt halike, hstarted.first,
    hstarted.grow.setAlike halike⟩
  have hprocess : s.process 0 = .ok s.current_ := by rw [process, h.first]
  rw [ReadKernelSymbols]
  simp only [hprocess, bind, Except.bind]
  exact congrArg (Except.map _) hok

/-- A loop over a list keeps the reader started. -/
theorem Started.foldlM {α : Type} (step : TraceReader → α → Except TraceFault TraceReader)
    (hstep : ∀ t a, Started t → ∃ t', step t a = .ok t' ∧ t'.Started) (as : List α)
    (h : s.Started) : ∃ s', as.foldlM step s = .ok s' ∧ s'.Started := by
  induction as generalizing s with
  | nil => exact ⟨s, rfl, h⟩
  | cons a as ih =>
      obtain ⟨t, hok, ht⟩ := hstep s a h
      obtain ⟨s', hrest, hs'⟩ := ih ht
      refine ⟨s', ?_, hs'⟩
      rw [List.foldlM_cons, hok]
      exact hrest

theorem start_ok (f : TraceFiles) (kernel_files : List String) :
    ∃ s, start f kernel_files = .ok s ∧ s.Started := by
  obtain ⟨s, hnew, hs⟩ := (blank_started f).foldlM (AddPredefinedRegion f)
    (fun _ p ht => ht.addPredefinedRegion p) predefinedRegions
  obtain ⟨s', hread, hs'⟩ := hs.foldlM (ReadKernelSymbols f)
    (fun _ kernel_file ht => ht.readKernelSymbols kernel_file) kernel_files
  refine ⟨s', ?_, hs'⟩
  rw [start, new, hnew]
  exact hread

/-! ## Runs -/

/-- What an event needs: pids of processes, a name for a child, an array that holds a region or
can grow, and an `exec` that drops no last entry of a region the path table has. -/
def Admissible (s : TraceReader) : PidEvent → Prop
  | .kPidFork _ _ pid => 0 ≤ pid ∧ (s.states s.current_).name.isSome
  | .kPidClone _ _ pid => 0 ≤ pid ∧ (s.states s.current_).name.isSome
  | .kPidSwitch _ pid => 0 ≤ pid
  | .kPidMunmap _ _ => s.managerEntries s.current_ ≠ []
  | .kPidMmap _ => s.CanGrow s.current_
  | .kPidExec argv => argv ≠ [] ∧ s.SparesHashed s.current_
  | .kPidName _ pid _ => 0 ≤ pid ∧ pid < kNumPids
  | .kPidKthreadName _ _ pid _ => 0 ≤ pid ∧ pid < kNumPids
  | _ => True

theorem exec_meets (h : s.Inv) {argv : List String} (hargv : argv ≠ [])
    (hspares : s.SparesHashed s.current_) : Meets (s.exec f argv)
      (fun e => e = .assertion ∧ (s.states s.current_).pid = 0) Inv := by
  cases argv with
  | nil => exact absurd rfl hargv
  | cons name argv =>
      have hcurrent := h.processes.current
      let st : ProcessState := { s.states s.current_ with
        argv := name :: argv
        name := some name
        flags := { (s.states s.current_).flags with kCalledExec := true } }
      have hinv : (s.setState s.current_ st).Inv := h.setAlike hcurrent ⟨rfl, rfl, rfl, rfl⟩
      have hself : (s.setState s.current_ st).states s.current_ = st := Function.update_self _ _ _
      rw [exec]
      by_cases hpid : (s.states s.current_).pid = 0
      · have hassert : (s.setState s.current_ st).ClearRegions f s.current_ = .error .assertion := by
          rw [ClearRegions, hself]
          exact if_pos hpid
        change Meets ((s.setState s.current_ st).ClearRegions f s.current_) _ _
        rw [hassert]
        exact .error ⟨rfl, hpid⟩
      · refine meets_of_ok (ClearRegions_ok hinv hcurrent ?_ ?_)
        · grind
        · intro path region r hpath hr
          rw [hself]
          exact hspares path region r hpath hr

/-- The faults with which an event ends the program: the pid of a new or next process is too
large, or process 0 calls `exec`. -/
def Refuses (s : TraceReader) : PidEvent → TraceFault → Prop
  | .kPidFork _ _ pid => PidExits pid
  | .kPidClone _ _ pid => PidExits pid
  | .kPidSwitch _ pid => PidExits pid
  | .kPidExec _ => fun e => e = .assertion ∧ (s.states s.current_).pid = 0
  | _ => fun _ => False

theorem Refuses.ends {event : PidEvent} {e : TraceFault} (h : s.Refuses event e) : Ends e := by
  cases event with
  | kPidFork time tgid pid => exact .inl h.1
  | kPidClone time tgid pid => exact .inl h.1
  | kPidSwitch time pid => exact .inl h.1
  | kPidExec argv => exact .inr h.1
  | _ => exact h.elim

theorem HandlePidEvent_meets (h : s.Inv) (event : PidEvent) (hok : s.Admissible event) :
    Meets (s.HandlePidEvent f event) (s.Refuses event) Inv := by
  have hcurrent := h.processes.current
  cases event with
  | kPidFork time tgid pid => exact fork_meets h hok.1 hok.2 time tgid
  | kPidClone time tgid pid => exact clone_meets h hok.1 hok.2 time tgid
  | kPidSwitch time pid => exact switch_meets h hok time
  | kPidExit pid => exact .pure (h.setAlike hcurrent ⟨rfl, rfl, rfl, rfl⟩)
  | kPidMunmap vstart vend => exact meets_of_ok (FindAndRemoveRegion_ok h hcurrent hok vstart vend)
  | kPidMmap event => exact meets_of_ok (mmap_ok h hok event)
  | kPidExec argv => exact exec_meets h hok.1 hok.2
  | kPidName time pid path => exact setName_meets h hok.1 hok.2 time 0 path
  | kPidKthreadName time tgid pid path => exact setName_meets h hok.1 hok.2 time tgid path
  | kPidNoAction => exact .pure h
  | kPidSymbolAdd => exact .pure h
  | kPidSymbolRemove => exact .pure h

/-! ## The end of the reader -/

def pidEntries (s : TraceReader) (pid : Nat) : Multiset RegionId :=
  (s.processes_ pid).elim 0 fun p => ↑(s.states p).entries

/-- The processes are deleted one after the other. -/
theorem destroyStates_ok {pids : List Nat} {regions : Registry Region}
    {others : Multiset RegionId}
    (hcounted : RefCounted regions Region.refs ((↑pids : Multiset Nat).bind s.pidEntries + others)) :
    ∃ regions', pids.foldlM
      (fun regions (pid : Nat) => (s.processes_ pid).elim (.ok regions) (s.destroyState regions))
      regions = .ok regions' := by
  induction pids generalizing regions others with
  | nil => exact ⟨regions, rfl⟩
  | cons pid pids ih =>
      rw [← Multiset.cons_coe, Multiset.cons_bind, pidEntries] at hcounted
      rw [List.foldlM_cons]
      cases hp : s.processes_ pid with
      | none =>
          rw [hp, Option.elim_none, zero_add] at hcounted
          exact ih hcounted
      | some p =>
          rw [hp, Option.elim_some] at hcounted
          change ∃ regions', (s.destroyState regions p >>= _) = _
          rw [destroyState]
          split
          · rw [add_assoc, add_left_comm] at hcounted
            exact ih hcounted
          · rw [add_assoc] at hcounted
            obtain ⟨regions₁, hok, hcounted₁, -⟩ := dropEntries_ok hcounted
            rw [hok]
            exact ih hcounted₁

theorem pidEntries_le (h : s.Inv) {pids : List Nat} (hnodup : pids.Nodup) :
    (↑pids : Multiset Nat).bind s.pidEntries ≤ ↑s.holders := by
  have hbind : ∀ pids : List Nat, (↑pids : Multiset Nat).bind s.pidEntries =
      (↑(pids.filterMap fun pid : Nat => s.processes_ pid) : Multiset ProcessRef).bind
        fun p => ↑(s.states p).entries := by
    intro pids
    induction pids with
    | nil => rfl
    | cons pid pids ih =>
        rw [← Multiset.cons_coe, Multiset.cons_bind, ih, pidEntries, List.filterMap_cons]
        cases s.processes_ pid with
        | none => exact zero_add _
        | some p =>
            dsimp only
            rw [← Multiset.cons_coe, Multiset.cons_bind, Option.elim_some]
  have hinj : (pids.filterMap fun pid : Nat => s.processes_ pid).Nodup := by
    refine hnodup.filterMap fun pid pid' p hp hp' => ?_
    have heq := (h.processes.process pid p hp).2.symm.trans (h.processes.process pid' p hp').2
    exact Int.ofNat_inj.mp heq
  have hrange : (↑(pids.filterMap fun pid : Nat => s.processes_ pid) : Multiset ProcessRef) ≤
      ↑(List.range s.nstates) := by
    refine (Multiset.le_iff_subset (Multiset.coe_nodup.mpr hinj)).mpr fun p hp => ?_
    obtain ⟨pid, -, hpid⟩ := List.mem_filterMap.mp (Multiset.mem_coe.mp hp)
    exact Multiset.mem_coe.mpr (List.mem_range.mpr (h.processes.process pid p hpid).1)
  obtain ⟨others, hothers⟩ := Multiset.le_iff_exists_add.mp hrange
  rw [hbind, holders, ← Multiset.coe_bind, hothers, Multiset.add_bind]
  exact Multiset.le_add_right _ _

theorem destroy_ok (h : s.Inv) : ∃ regions, s.destroy = .ok regions := by
  have hhash : s.hash_.entries.foldlM
      (fun _ entry => (s.region entry.2).map fun _ => ()) () = .ok () := by
    have hentries : ∀ entry ∈ s.hash_.entries, ∃ r, s.region entry.2 = .ok r := fun entry hentry => by
      obtain ⟨r, hr, -⟩ := h.regions.hash entry.1 entry.2
        (KeyedVector.get?_eq_some_iff.mpr hentry)
      exact ⟨r, region_ok hr⟩
    generalize s.hash_.entries = entries at hentries
    induction entries with
    | nil => rfl
    | cons entry entries ih =>
        obtain ⟨r, hr⟩ := hentries entry List.mem_cons_self
        rw [List.foldlM_cons, hr]
        exact ih fun e he => hentries e (List.mem_cons_of_mem _ he)
  rw [destroy, hhash]
  have hnodup : (List.range kNumPids.toNat).Nodup := List.nodup_range
  generalize List.range kNumPids.toNat = pids at hnodup ⊢
  obtain ⟨others, hothers⟩ := Multiset.le_iff_exists_add.mp (pidEntries_le h hnodup)
  have hcounted := h.regions.counted
  rw [zero_add, hothers] at hcounted
  exact destroyStates_ok hcounted

/-! ## Lifetime -/

/-- In a run in which no `exec` drops the last entry of a region of the path table, the counts,
the arrays and the table are right in every state, every event goes through or ends the program,
it deletes the regions whose last entries it drops and no others, and the reader can be
deleted. -/
theorem regions_sound (f : TraceFiles) (kernel_files : List String) :
    ∃ s₀, start f kernel_files = .ok s₀ ∧
      ∀ s, Reach (HandlePidEvent f) Admissible s₀ s →
        s.RegionsSound ∧
        (∀ event, s.Admissible event → Meets (s.HandlePidEvent f event) Ends fun s' =>
          s'.RegionsSound ∧ ∀ region, (s.regions.get? region).isSome →
            (s'.regions.get? region = none ↔ region ∈ s.holders ∧ region ∉ s'.holders)) ∧
        ∃ regions, s.destroy = .ok regions := by
  obtain ⟨s₀, hstart, hs₀⟩ := start_ok f kernel_files
  refine ⟨s₀, hstart, fun s hrun => ?_⟩
  have hinv : s.Inv := hrun.invariant hs₀.inv fun t event t' ht hok hstep =>
    (HandlePidEvent_meets ht event hok).result t' hstep
  refine ⟨hinv.sound, fun event hok => ?_, destroy_ok hinv⟩
  refine ((HandlePidEvent_meets hinv event hok).weaken fun e he => he.ends).mono
    fun s' hs' => ⟨hs'.sound, fun region hold => ?_⟩
  have hmem : region ∈ s.holders := by
    by_contra hnot
    rw [(hinv.sound.deleted region).mpr hnot] at hold
    cases hold
  rw [hs'.sound.deleted]
  exact ⟨fun hnot => ⟨hmem, hnot⟩, And.right⟩

/-- A reader whose files cannot be read. -/
def noFiles : TraceFiles :=
  ⟨.byInsertion, "", fun _ => none, fun _ => none, fun _ => none, [], .kMethodEnter⟩

/-- A process maps a file and calls `exec`, which deletes the region and leaves its path. -/
def execEvents : List PidEvent :=
  [.kPidSwitch 1 1, .kPidMmap ⟨0x1000, 0x2000, 0, "a"⟩, .kPidExec ["b"]]

/-- The path table refers to a deleted region. -/
theorem hash_dangling : ∃ s₀ s, start noFiles [] = .ok s₀ ∧
    Reach (HandlePidEvent noFiles) (fun _ _ => True) s₀ s ∧ ¬s.RegionsSound := by
  obtain ⟨s₀, hstart, -⟩ := start_ok noFiles []
  have hcheck : ((start noFiles []).toOption.any fun s₀ => check (HandlePidEvent noFiles)
      (fun _ _ => true) (fun s => (s.hash_.get? "a").any fun region =>
        (s.regions.get? region).isNone) s₀ execEvents) = true := by decide +kernel
  rw [hstart] at hcheck
  have hsound : ∀ (s : TraceReader) (event : PidEvent), true = true → True := fun _ _ _ => trivial
  obtain ⟨s, hrun, htest⟩ := exists_reach_of_check hsound hcheck
  refine ⟨s₀, s, hstart, hrun, fun hsound => ?_⟩
  obtain ⟨region, hpath, hnone⟩ := (Option.any_eq_true _ _).mp htest
  have hsome := hsound.hash "a" region hpath
  rw [Option.isNone_iff_eq_none.mp hnone] at hsome
  cases hsome

end TraceReader

end AndroidRenderer.Qtools.Trace
