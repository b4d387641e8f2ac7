import AndroidRenderer.Lib.RefCounted
import AndroidRenderer.Qtools.TraceReader

/-!
# Arrays of regions

What holds of the reader between two events: the entries of the arrays are what the counts of the
regions count, the arrays are sorted, and the hash table knows living regions under their own
paths. The operations on one array keep this.
-/

namespace AndroidRenderer.Qtools.Trace

open Run

variable {f : TraceFiles} {s : TraceReader} {p : ProcessRef} {region : RegionId} {r : Region}
  {pending : Multiset RegionId}

namespace TraceReader

/-! ## Entries -/

theorem region_ok (h : s.regions.get? region = some r) : s.region region = .ok r := by
  rw [TraceReader.region, h]

@[simp] theorem states_setState (s : TraceReader) (p : ProcessRef) (st : ProcessState) :
    (s.setState p st).states = Function.update s.states p st := rfl

/-- What one array holds is exchanged. -/
theorem flatMap_range_update {α : Type} (entries : Nat → List α) (xs : List α) {n p : Nat}
    (hp : p < n) :
    (↑((List.range n).flatMap (Function.update entries p xs)) : Multiset α) + ↑(entries p) =
      ↑((List.range n).flatMap entries) + ↑xs := by
  have hrest : ∀ m ≤ p, (List.range m).flatMap (Function.update entries p xs) =
      (List.range m).flatMap entries := by
    intro m hm
    refine List.flatMap_congr fun q hq => ?_
    grind
  induction n with
  | zero => cases hp
  | succ n ih =>
      rw [List.range_succ, List.flatMap_append, List.flatMap_append, List.flatMap_singleton,
        List.flatMap_singleton, ← Multiset.coe_add, ← Multiset.coe_add]
      grind

theorem holders_setState (hp : p < s.nstates) (st : ProcessState) :
    (↑(s.setState p st).holders : Multiset RegionId) + ↑(s.states p).entries =
      ↑s.holders + ↑st.entries := by
  have hupdate : (fun q => ((s.setState p st).states q).entries) =
      Function.update (fun q => (s.states q).entries) p st.entries := by
    funext q
    by_cases hq : q = p
    · subst hq
      simp
    · simp [hq]
  rw [holders, hupdate]
  exact flatMap_range_update (fun q => (s.states q).entries) st.entries hp

theorem holders_newState (s : TraceReader) (st : ProcessState) :
    (↑(s.newState st).holders : Multiset RegionId) = ↑s.holders + ↑st.entries := by
  have hrest : (List.range s.nstates).flatMap
      (fun q => (Function.update s.states s.nstates st q).entries) = s.holders := by
    refine List.flatMap_congr fun q hq => ?_
    grind
  change (↑((List.range (s.nstates + 1)).flatMap
    fun q => (Function.update s.states s.nstates st q).entries) : Multiset RegionId) = _
  rw [List.range_succ, List.flatMap_append, List.flatMap_singleton, hrest, Function.update_self,
    Multiset.coe_add]

theorem mem_holders (hp : p < s.nstates) (hmem : region ∈ (s.states p).entries) :
    region ∈ s.holders :=
  List.mem_flatMap.mpr ⟨p, List.mem_range.mpr hp, hmem⟩

/-! ## The invariant -/

def Sorted (s : TraceReader) (entries : List RegionId) : Prop :=
  entries.Pairwise fun a b => s.vstart a ≤ s.vstart b

/-- The regions, where entries for those in `pending` are still to be made. -/
structure RegionsInv (s : TraceReader) (pending : Multiset RegionId) : Prop where
  counted : RefCounted s.regions Region.refs (pending + ↑s.holders)
  hash : ∀ path region, s.hash_.get? path = some region →
    ∃ r, s.regions.get? region = some r ∧ r.path = path
  sorted : ∀ p < s.nstates, s.Sorted (s.states p).entries

/-- The processes: managers manage themselves, and nobody else has an array. -/
structure ProcessesInv (s : TraceReader) : Prop where
  room : ∀ p < s.nstates, (s.states p).entries.length ≤ (s.states p).max_regions
  manager_lt : ∀ p < s.nstates, s.manager p < s.nstates
  manager_manager : ∀ p < s.nstates, s.manager (s.manager p) = s.manager p
  shared : ∀ p < s.nstates, s.manager p ≠ p → (s.states p).entries = []
  process : ∀ pid p, s.processes_ pid = some p → p < s.nstates ∧ (s.states p).pid = pid
  first : ∃ p, s.processes_ 0 = some p
  current : s.current_ < s.nstates

structure Inv (s : TraceReader) : Prop where
  regions : s.RegionsInv 0
  processes : s.ProcessesInv

/-- An entry may be added: there is no array yet, or one that can grow. -/
def CanGrow (s : TraceReader) (p : ProcessRef) : Prop :=
  (s.states (s.manager p)).regions = none ∨ 0 < (s.states (s.manager p)).max_regions

theorem RegionsInv.alive (h : s.RegionsInv pending) (hmem : region ∈ s.holders) :
    ∃ r, s.regions.get? region = some r :=
  h.counted.alive region (Multiset.mem_add.mpr (.inr (Multiset.mem_coe.mpr hmem)))

theorem RegionsInv.alive_entry (h : s.RegionsInv pending) (hp : p < s.nstates)
    (hmem : region ∈ (s.states p).entries) : ∃ r, s.regions.get? region = some r :=
  h.alive (mem_holders hp hmem)

/-! ## Changes of the regions -/

/-- Regions that are still there begin where they began and have their paths. -/
def Keeps (regions regions' : Registry Region) : Prop :=
  ∀ i r', regions'.get? i = some r' →
    ∃ r, regions.get? i = some r ∧ r'.vstart = r.vstart ∧ r'.path = r.path

theorem Keeps.refl (regions : Registry Region) : Keeps regions regions :=
  fun _ r h => ⟨r, h, rfl, rfl⟩

theorem Keeps.trans {a b c : Registry Region} (hab : Keeps a b) (hbc : Keeps b c) : Keeps a c := by
  intro i r'' h
  obtain ⟨r', hb, hstart', hpath'⟩ := hbc i r'' h
  obtain ⟨r, ha, hstart, hpath⟩ := hab i r' hb
  exact ⟨r, ha, hstart'.trans hstart, hpath'.trans hpath⟩

variable {regions : Registry Region} {holders : Multiset RegionId} {st : ProcessState}

theorem Keeps.set {r' : Region} (h : regions.get? region = some r)
    (hstart : r'.vstart = r.vstart) (hpath : r'.path = r.path) :
    Keeps regions (regions.set region r') := by
  intro i r₁ hi
  rw [Registry.get?_set, h] at hi
  grind

theorem Keeps.remove (regions : Registry Region) (region : RegionId) :
    Keeps regions (regions.remove region) := by
  intro i r hi
  grind

theorem Keeps.vstart {s' : TraceReader} (h : Keeps s.regions s'.regions)
    (halive : ∃ r, s'.regions.get? region = some r) : s'.vstart region = s.vstart region := by
  obtain ⟨r', hr'⟩ := halive
  obtain ⟨r, hr, hstart, -⟩ := h region r' hr'
  simp [TraceReader.vstart, hr', hr, hstart]

theorem Keeps.sorted {s' : TraceReader} (h : Keeps s.regions s'.regions)
    {entries : List RegionId} (halive : ∀ i ∈ entries, ∃ r, s'.regions.get? i = some r)
    (hsorted : s.Sorted entries) : s'.Sorted entries := by
  refine hsorted.imp_of_mem fun {a b} ha hb hle => ?_
  grind [h.vstart]

theorem shareEntry_ok (hcounted : RefCounted regions Region.refs holders)
    (halive : region ∈ holders) :
    ∃ regions', shareEntry regions region = .ok regions' ∧
      RefCounted regions' Region.refs (region ::ₘ holders) ∧ Keeps regions regions' := by
  obtain ⟨r, hr⟩ := hcounted.alive region halive
  simp [shareEntry, Keeps.set, hcounted.acquire, hr]

theorem shareEntries_ok {entries : List RegionId}
    (hcounted : RefCounted regions Region.refs holders)
    (halive : ∀ i ∈ entries, i ∈ holders) :
    ∃ regions', entries.foldlM shareEntry regions = .ok regions' ∧
      RefCounted regions' Region.refs (↑entries + holders) ∧ Keeps regions regions' := by
  induction entries generalizing regions holders with
  | nil => exact ⟨regions, rfl, by rwa [Multiset.coe_nil, zero_add], .refl regions⟩
  | cons i entries ih =>
      obtain ⟨regions₁, hok, hcounted₁, hkeeps⟩ := shareEntry_ok hcounted
        (halive i List.mem_cons_self)
      obtain ⟨regions', hrest, hcounted', hkeeps'⟩ := ih hcounted₁ fun j hj =>
        Multiset.mem_cons_of_mem (halive j (List.mem_cons_of_mem i hj))
      refine ⟨regions', ?_, ?_, hkeeps.trans hkeeps'⟩
      · rw [List.foldlM_cons, hok]
        exact hrest
      · rwa [← Multiset.cons_coe, Multiset.cons_add, ← Multiset.add_cons]

theorem dropEntry_ok (hcounted : RefCounted regions Region.refs (region ::ₘ holders)) :
    ∃ regions', dropEntry regions region = .ok regions' ∧
      RefCounted regions' Region.refs holders ∧ Keeps regions regions' := by
  obtain ⟨r, hr⟩ := hcounted.alive region (Multiset.mem_cons_self region holders)
  grind [dropEntry, Keeps.set, Keeps.remove, hcounted.release, hcounted.free]

theorem dropEntries_ok {entries : List RegionId}
    (hcounted : RefCounted regions Region.refs (↑entries + holders)) :
    ∃ regions', entries.foldlM dropEntry regions = .ok regions' ∧
      RefCounted regions' Region.refs holders ∧ Keeps regions regions' := by
  induction entries generalizing regions with
  | nil =>
      rw [Multiset.coe_nil, zero_add] at hcounted
      exact ⟨regions, rfl, hcounted, .refl regions⟩
  | cons i entries ih =>
      rw [← Multiset.cons_coe, Multiset.cons_add] at hcounted
      obtain ⟨regions₁, hok, hcounted₁, hkeeps⟩ := dropEntry_ok hcounted
      obtain ⟨regions', hrest, hcounted', hkeeps'⟩ := ih hcounted₁
      refine ⟨regions', ?_, hcounted', hkeeps.trans hkeeps'⟩
      rw [List.foldlM_cons, hok]
      exact hrest

/-! ## Changes of one process -/

@[simp] theorem manager_setState_self (s : TraceReader) (p : ProcessRef) (st : ProcessState) :
    (s.setState p st).manager p = st.addr_manager := by
  rw [manager, states_setState, Function.update_self]

theorem manager_setState (hmanager : st.addr_manager = s.manager p)
    (q : ProcessRef) : (s.setState p st).manager q = s.manager q := by
  by_cases hq : q = p
  · rw [hq, manager_setState_self, hmanager]
  · rw [manager, states_setState, Function.update_of_ne hq, manager]

/-- A fact about every process stays where the changed one keeps it. -/
theorem forall_setState {P : ProcessRef → ProcessState → Prop}
    (h : ∀ q < s.nstates, P q (s.states q)) (hst : P p st) :
    ∀ q < s.nstates, P q ((s.setState p st).states q) := by
  intro q hq
  by_cases hqp : q = p
  · rw [hqp, states_setState, Function.update_self]
    exact hst
  · rw [states_setState, Function.update_of_ne hqp]
    exact h q hq

/-- Entries that are pending may be those of a new array. -/
theorem RegionsInv.setState {pending' : Multiset RegionId} (h : s.RegionsInv pending)
    (hp : p < s.nstates)
    (hentries : pending' + ↑st.entries = pending + ↑(s.states p).entries)
    (hsorted : s.Sorted st.entries) : (s.setState p st).RegionsInv pending' := by
  have hholders : pending' + (↑(s.setState p st).holders : Multiset RegionId) =
      pending + (↑s.holders : Multiset RegionId) := by
    have hsum := holders_setState hp st
    refine add_right_cancel (b := (↑(s.states p).entries : Multiset RegionId)) ?_
    rw [add_assoc, hsum, add_left_comm, hentries, add_left_comm, add_assoc]
  refine ⟨?_, h.hash, forall_setState (P := fun _ st => s.Sorted st.entries) h.sorted hsorted⟩
  rw [hholders]
  exact h.counted

theorem ProcessesInv.setState (h : s.ProcessesInv) (hp : p < s.nstates)
    (hroom : st.entries.length ≤ st.max_regions)
    (hmanager : st.addr_manager = s.manager p ∨ st.addr_manager = p)
    (hshared : st.addr_manager ≠ p → st.entries = []) (hpid : st.pid = (s.states p).pid) :
    (s.setState p st).ProcessesInv := by
  have hother : ∀ q, q ≠ p → (s.setState p st).manager q = s.manager q := fun q hq => by
    rw [manager, states_setState, Function.update_of_ne hq, manager]
  have hself := manager_setState_self s p st
  refine ⟨forall_setState (P := fun _ st => st.entries.length ≤ st.max_regions) h.room hroom,
    fun q hq => ?_, fun q hq => ?_, fun q hq hne => ?_, fun pid q hq => ?_, h.first, h.current⟩
  · by_cases hqp : q = p
    · rw [hqp, hself]
      rcases hmanager with heq | heq
      · rw [heq]
        exact h.manager_lt p hp
      · rw [heq]
        exact hp
    · rw [hother q hqp]
      exact h.manager_lt q hq
  · by_cases hqp : q = p
    · grind [h.manager_manager]
    · rw [hother q hqp]
      by_cases hmp : s.manager q = p
      · rw [hmp, hself]
        rcases hmanager with heq | heq
        · rw [heq, ← hmp]
          exact h.manager_manager q hq
        · exact heq
      · rw [hother _ hmp]
        exact h.manager_manager q hq
  · by_cases hqp : q = p
    · rw [hqp, hself] at hne
      rw [hqp, states_setState, Function.update_self]
      exact hshared hne
    · rw [hother q hqp] at hne
      rw [states_setState, Function.update_of_ne hqp]
      exact h.shared q hq hne
  · obtain ⟨hlt, heq⟩ := h.process pid q hq
    refine ⟨hlt, ?_⟩
    by_cases hqp : q = p
    · rw [hqp, states_setState, Function.update_self, hpid, ← hqp, heq]
    · rw [states_setState, Function.update_of_ne hqp, heq]

/-- Nothing that has to do with regions is different. -/
structure Alike (st st' : ProcessState) : Prop where
  regions : st.regions = st'.regions
  max_regions : st.max_regions = st'.max_regions
  addr_manager : st.addr_manager = st'.addr_manager
  pid : st.pid = st'.pid

theorem Alike.entries {st' : ProcessState} (h : Alike st st') : st.entries = st'.entries := by
  rw [ProcessState.entries, h.regions, ProcessState.entries]

theorem RegionsInv.setAlike (h : s.RegionsInv pending) (hp : p < s.nstates)
    (halike : Alike st (s.states p)) : (s.setState p st).RegionsInv pending := by
  refine h.setState hp ?_ ?_
  · rw [halike.entries]
  · rw [halike.entries]
    exact h.sorted p hp

theorem ProcessesInv.setAlike (h : s.ProcessesInv) (hp : p < s.nstates)
    (halike : Alike st (s.states p)) : (s.setState p st).ProcessesInv := by
  refine h.setState hp ?_ (.inl halike.addr_manager) (fun hne => ?_) halike.pid
  · rw [halike.entries, halike.max_regions]
    exact h.room p hp
  · rw [halike.addr_manager] at hne
    rw [halike.entries]
    exact h.shared p hp hne

theorem Inv.setAlike (h : s.Inv) (hp : p < s.nstates)
    (halike : Alike st (s.states p)) : (s.setState p st).Inv :=
  ⟨h.regions.setAlike hp halike, h.processes.setAlike hp halike⟩

theorem CanGrow.setAlike {q : ProcessRef} (h : s.CanGrow q)
    (halike : Alike st (s.states p)) : (s.setState p st).CanGrow q := by
  rw [CanGrow, manager_setState halike.addr_manager, states_setState]
  by_cases hq : s.manager q = p
  · rw [hq, Function.update_self, halike.regions, halike.max_regions, ← hq]
    exact h
  · rw [Function.update_of_ne hq]
    exact h

/-! ## AddRegion -/

theorem sortRegions_ok {entries : List RegionId}
    (halive : ∀ i ∈ entries, ∃ r, s.regions.get? i = some r) :
    s.sortRegions f entries = .ok (f.qsort.sort s.vstart entries) := by
  rw [sortRegions, if_pos]
  grind

/-- The array of a process that gets one more entry. -/
def growing (s : TraceReader) (p : ProcessRef) : ProcessState :=
  (s.states (s.manager p)).allocated.grown

/-- The state after `AddRegion`. -/
def withEntry (f : TraceFiles) (s : TraceReader) (p : ProcessRef) (region : RegionId) :
    TraceReader :=
  s.setState (s.manager p) { s.growing p with
    regions := some (f.qsort.sort s.vstart ((s.growing p).entries ++ [region])) }

theorem growing_fields (s : TraceReader) (p : ProcessRef) :
    (s.growing p).entries = (s.states (s.manager p)).entries ∧
      (s.growing p).addr_manager = s.manager (s.manager p) ∧
      (s.growing p).pid = (s.states (s.manager p)).pid := by
  change _ ∧ _ = (s.states (s.manager p)).addr_manager ∧ _
  rw [growing]
  generalize s.states (s.manager p) = m
  grind [ProcessState.allocated, ProcessState.entries, ProcessState.grown]

theorem growing_room (h : s.ProcessesInv) (hp : p < s.nstates) (hgrow : s.CanGrow p) :
    (s.growing p).entries.length < (s.growing p).max_regions := by
  have hroom := h.room _ (h.manager_lt p hp)
  rw [CanGrow] at hgrow
  rw [growing]
  generalize s.states (s.manager p) = m at hroom hgrow
  have hallocated : m.allocated.entries.length ≤ m.allocated.max_regions ∧
      0 < m.allocated.max_regions := by
    rw [ProcessState.allocated]
    split
    · exact ⟨Nat.zero_le _, Nat.succ_pos 9⟩
    · grind
  rw [ProcessState.grown]
  split
  · change m.allocated.entries.length < m.allocated.max_regions <<< 1
    omega
  · omega

theorem AddRegion_ok (hp : s.ProcessesInv) (hlt : p < s.nstates) (hgrow : s.CanGrow p)
    (halive : ∀ i ∈ s.managerEntries p ++ [region], ∃ r, s.regions.get? i = some r) :
    s.AddRegion f p region = .ok (s.withEntry f p region) := by
  have hentries := (s.growing_fields p).1
  have hsort := sortRegions_ok (f := f) halive
  rw [managerEntries, ← hentries] at hsort
  have hroom := growing_room hp hlt hgrow
  rw [growing] at hroom hsort
  rw [AddRegion]
  simp only [hroom, if_true, hsort]
  rfl

theorem RegionsInv.withEntry (h : s.RegionsInv (region ::ₘ pending)) (hm : s.manager p < s.nstates)
    (f : TraceFiles) : (s.withEntry f p region).RegionsInv pending := by
  obtain ⟨hentries, -, -⟩ := s.growing_fields p
  refine h.setState hm ?_ (f.qsort.sorted s.vstart _)
  have hperm : (↑(f.qsort.sort s.vstart ((s.growing p).entries ++ [region])) : Multiset RegionId) =
      region ::ₘ ↑(s.states (s.manager p)).entries := by
    rw [Multiset.coe_eq_coe.mpr (f.qsort.perm _ _), hentries, ← Multiset.coe_add, add_comm,
      Multiset.coe_singleton, Multiset.singleton_add]
  change pending + (↑(f.qsort.sort s.vstart ((s.growing p).entries ++ [region])) : Multiset _) = _
  rw [hperm, Multiset.add_cons, Multiset.cons_add]

theorem ProcessesInv.withEntry (h : s.ProcessesInv) (hlt : p < s.nstates) (hgrow : s.CanGrow p)
    (f : TraceFiles) (region : RegionId) : (s.withEntry f p region).ProcessesInv := by
  obtain ⟨hentries, hmanager, hpid⟩ := s.growing_fields p
  have hroom := growing_room h hlt hgrow
  refine h.setState (h.manager_lt p hlt) ?_ (.inl hmanager) (fun hne => ?_) hpid
  · change (f.qsort.sort s.vstart ((s.growing p).entries ++ [region])).length ≤ _
    rw [(f.qsort.perm _ _).length_eq, List.length_append, List.length_singleton]
    exact hroom
  · exact absurd (hmanager.trans (h.manager_manager p hlt)) hne

@[simp] theorem manager_withEntry (q : ProcessRef) :
    (s.withEntry f p region).manager q = s.manager q := by
  rw [withEntry, manager_setState]
  exact (s.growing_fields p).2.1

theorem CanGrow.withEntry (h : s.ProcessesInv) (hlt : p < s.nstates) (hgrow : s.CanGrow p) :
    (s.withEntry f p region).CanGrow p := by
  refine .inr ?_
  rw [manager_withEntry, TraceReader.withEntry, states_setState, Function.update_self]
  exact Nat.zero_lt_of_lt (growing_room h hlt hgrow)

end TraceReader

end AndroidRenderer.Qtools.Trace
