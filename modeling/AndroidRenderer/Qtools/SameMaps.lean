import AndroidRenderer.Qtools.SymbolSearch

/-!
# What method records leave alone

A method record changes how symbols are marked and which methods are current, and nothing that the
searches read.
-/

namespace AndroidRenderer.Qtools.Trace

variable {s s' : TraceReader} {p q : ProcessRef}

namespace TraceReader

structure SameMaps (s s' : TraceReader) : Prop where
  regions : s'.regions = s.regions
  hash : s'.hash_ = s.hash_
  processes : s'.processes_ = s.processes_
  current : s'.current_ = s.current_
  nstates : s'.nstates = s.nstates
  states : ∀ q, Alike (s'.states q) (s.states q)
  addrs : ∀ t : Nat, (s'.tables.getD t []).map Symbol.addr = (s.tables.getD t []).map Symbol.addr

theorem SameMaps.refl (s : TraceReader) : SameMaps s s :=
  ⟨rfl, rfl, rfl, rfl, rfl, fun _ => ⟨rfl, rfl, rfl, rfl⟩, fun _ => rfl⟩

theorem SameMaps.trans {a b c : TraceReader} (hab : SameMaps a b) (hbc : SameMaps b c) :
    SameMaps a c := by
  refine ⟨hbc.regions.trans hab.regions, hbc.hash.trans hab.hash,
    hbc.processes.trans hab.processes, hbc.current.trans hab.current,
    hbc.nstates.trans hab.nstates, fun q => ?_, fun t => (hbc.addrs t).trans (hab.addrs t)⟩
  have h := hab.states q
  have h' := hbc.states q
  exact ⟨h'.regions.trans h.regions, h'.max_regions.trans h.max_regions,
    h'.addr_manager.trans h.addr_manager, h'.pid.trans h.pid⟩

theorem SameMaps.manager (h : SameMaps s s') (q : ProcessRef) : s'.manager q = s.manager q :=
  (h.states q).addr_manager

theorem SameMaps.managerEntries (h : SameMaps s s') (q : ProcessRef) :
    s'.managerEntries q = s.managerEntries q := by
  rw [TraceReader.managerEntries, h.manager, (h.states _).entries, TraceReader.managerEntries]

theorem SameMaps.inv (h : SameMaps s s') (hinv : s.Inv) : s'.Inv := by
  have hentries : ∀ q, (s'.states q).entries = (s.states q).entries := fun q =>
    (h.states q).entries
  have hholders : s'.holders = s.holders := by
    rw [holders, h.nstates, holders]
    exact List.flatMap_congr fun q _ => hentries q
  have hvstart : s'.vstart = s.vstart := by
    funext i
    rw [vstart, h.regions, vstart]
  have hsorted : ∀ xs, s.Sorted xs → s'.Sorted xs := fun xs hxs => by
    rw [Sorted, hvstart]
    exact hxs
  have hprocesses := hinv.processes
  refine ⟨⟨?_, ?_, fun q hq => ?_⟩, ⟨fun q hq => ?_, fun q hq => ?_, fun q hq => ?_,
    fun q hq hne => ?_, fun pid q hq => ?_, ?_, ?_⟩⟩
  · rw [h.regions, hholders]
    exact hinv.regions.counted
  · rw [h.regions, h.hash]
    exact hinv.regions.hash
  · grind [hinv.regions.sorted, h.nstates]
  · rw [hentries, (h.states q).max_regions]
    exact hprocesses.room q (h.nstates ▸ hq)
  · rw [h.manager, h.nstates]
    exact hprocesses.manager_lt q (h.nstates ▸ hq)
  · grind [h.manager, hprocesses.manager_manager, h.nstates]
  · grind [hprocesses.shared, h.nstates, h.manager]
  · rw [h.nstates, (h.states q).pid]
    exact hprocesses.process pid q (h.processes ▸ hq)
  · rw [h.processes]
    exact hprocesses.first
  · rw [h.current, h.nstates]
    exact hprocesses.current

/-- The searches read nothing else. -/
theorem SameMaps.findRegion (h : SameMaps s s') (addr : BitVec 32) (entries : List RegionId) :
    s'.FindRegion addr entries = s.FindRegion addr entries := by
  have hvstartAt : s'.vstartAt = s.vstartAt := by grind [vstartAt, TraceReader.region, h.regions]
  simp [FindRegion, FindRegionIndex, hvstartAt]

theorem SameMaps.search (h : SameMaps s s') (addr : BitVec 32) (entries : List RegionId)
    (exact_match : Bool) : s'.search addr entries exact_match = s.search addr entries exact_match := by
  have hregion : s'.region = s.region := by
    funext i
    rw [region, h.regions, region]
  have hfunction : ∀ r : Region, FindFunction (addr - r.base_addr) (s'.symbolsOf r) exact_match =
      FindFunction (addr - r.base_addr) (s.symbolsOf r) exact_match := fun r =>
    FindFunction_congr (h.addrs r.symbols) _ _
  simp only [TraceReader.search, h.findRegion, hregion, hfunction]

theorem SameMaps.setState (s : TraceReader) {st : ProcessState} (halike : Alike st (s.states q)) :
    SameMaps s (s.setState q st) := by
  refine ⟨rfl, rfl, rfl, rfl, rfl, fun q' => ?_, fun _ => rfl⟩
  by_cases hq : q' = q
  · rw [hq, states_setState, Function.update_self]
    exact halike
  · rw [states_setState, Function.update_of_ne hq]
    exact ⟨rfl, rfl, rfl, rfl⟩

theorem getElem?_modify_eq {α : Type} (xs : List α) (i j : Nat) (g : α → α) :
    (xs.modify i g)[j]? = if j = i then xs[j]?.map g else xs[j]? := by
  rw [List.getElem?_modify]
  grind

theorem table_setSymbol (s : TraceReader) (sym : SymbolRef) (set : Symbol → Symbol) (t : Nat) :
    (s.setSymbol sym set).tables.getD t [] =
      if t = sym.table then (s.tables.getD t []).modify sym.index set else s.tables.getD t [] := by
  rw [setSymbol, List.getD_eq_getElem?_getD, List.getD_eq_getElem?_getD, getElem?_modify_eq]
  grind

theorem SameMaps.setSymbol (s : TraceReader) (sym : SymbolRef) {set : Symbol → Symbol}
    (hset : ∀ sym, (set sym).addr = sym.addr) : SameMaps s (s.setSymbol sym set) := by
  refine ⟨rfl, rfl, rfl, rfl, rfl, fun q => ⟨rfl, rfl, rfl, rfl⟩, fun t => ?_⟩
  rw [table_setSymbol]
  split
  · refine List.ext_getElem? fun i => ?_
    grind
  · rfl

/-- A search in an address space that has a region goes through. -/
theorem search_ok (hinv : s.Inv) (hp : p < s.nstates) (hne : s.managerEntries p ≠ [])
    (addr : BitVec 32) (exact_match : Bool) :
    ∃ region r index, region ∈ s.managerEntries p ∧ s.regions.get? region = some r ∧
      s.Closest (s.managerEntries p) addr region ∧
      FindFunction (addr - r.base_addr) (s.symbolsOf r) exact_match = .ok index ∧
      s.FindRegion addr (s.managerEntries p) = .ok region ∧
      s.search addr (s.managerEntries p) exact_match =
        .ok (region, index.map fun index => ⟨r.symbols, index⟩) ∧
      ∀ i, index = some i → (s.symbol? ⟨r.symbols, i⟩).isSome := by
  have hmanager := hinv.processes.manager_lt p hp
  have halive : ∀ i ∈ s.managerEntries p, ∃ r, s.regions.get? i = some r := fun i hi =>
    hinv.regions.alive_entry hmanager hi
  obtain ⟨region, hmem, hregion, hclosest⟩ :=
    FindRegion_ok hne halive (hinv.regions.sorted _ hmanager) addr
  obtain ⟨r, hr⟩ := halive region hmem
  obtain ⟨index, hindex, hlt⟩ := FindFunction_ok (addr - r.base_addr) (s.symbolsOf r) exact_match
  refine ⟨region, r, index, hmem, hr, hclosest, hindex, hregion, ?_, fun i hi => ?_⟩
  · rw [search, hregion]
    change (s.region region >>= _) = _
    rw [region_ok hr]
    change (FindFunction _ _ _).map _ = _
    rw [hindex]
    rfl
  · rw [symbol?]
    exact Option.isSome_iff_exists.mpr ⟨_, List.getElem?_eq_getElem (hlt i hi)⟩

end TraceReader

end AndroidRenderer.Qtools.Trace
