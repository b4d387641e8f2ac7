import AndroidRenderer.Gralloc.Calls

/-!
# Mappings of ashmem regions

A process needs the region of a handle while it has allocated and not freed it, or has registered
it more often than it unregistered it. A handle has one address for its mapping: a registration
in the process that allocated the buffer maps the region a second time and forgets the first
address, and the first unregistration unmaps it whatever registrations remain. Handles can be
copies of one another, and then stand for one region; a registration looks at its handle only.
-/

namespace AndroidRenderer.Gralloc

open AddressSpace (mappedAt Unused Separate)

/-- Registrations are counted for handles. -/
def handleKey : HandleId → cb_handle_t → HandleId := fun h _ => h

namespace Counted

open Process (SameRegion NewHandle Connects HostLocks)

variable {κ : Type} {region : HandleId → κ} {s s' : Counted HandleId} {h i : HandleId}

/-- The process has allocated the buffer and not freed it, or has registered it more often than
it unregistered it. -/
def Needs (s : Counted HandleId) (h : HandleId) : Prop :=
  h ∈ s.process.allocList ∨ 0 < s.registered h

instance (s : Counted HandleId) (h : HandleId) : Decidable (s.Needs h) :=
  inferInstanceAs (Decidable (_ ∨ _))

def Holds (s : Counted HandleId) (h : HandleId) : Prop :=
  s.Needs h ∧ ∃ cb, s.process.handles[h]? = some cb ∧ 0 < cb.ashmemSize

def addresses [DecidableEq κ] (region : HandleId → κ) (s : Counted HandleId) (k : κ) : List Nat :=
  mappedAt (AddressSpace.rename region s.process.mappings) k

/-- The regions that are needed are mapped once, at `ashmemBase`, and others are not mapped; what is
mapped can be locked. -/
structure Mapped [DecidableEq κ] (region : HandleId → κ) (s : Counted HandleId) : Prop where
  once : ∀ h cb, s.process.handles[h]? = some cb → 0 < cb.ashmemSize → s.Needs h →
    s.addresses region (region h) = [cb.ashmemBase]
  unneeded : ∀ k, (∀ h, s.Holds h → region h ≠ k) → s.addresses region k = []
  locks : ∀ h cb, s.process.handle h = .ok cb → cb.validate = true → 0 < cb.ashmemSize →
    ∀ usage left top width height host, Process.lockAllowed cb usage = true →
      HostLocks cb host →
      ((∃ p, s.process.gralloc_lock (some h) usage left top width height host = .ok (p, 0)) ↔
        s.Needs h)

/-! ## The invariant -/

/-- What a handle says of the mapping of its region. -/
structure HandleOk (s : Counted HandleId) (h : HandleId) : Prop where
  once : ∀ cb, s.process.handles[h]? = some cb → 0 < cb.ashmemSize →
    mappedAt s.process.mappings h = if s.Needs h then [cb.ashmemBase] else []
  named : ∀ cb, s.process.handle h = .ok cb → cb.mappedPid ≠ 0 →
    cb.ashmemBasePid = cb.mappedPid ∧ cb.ashmemBase ≠ 0
  lockable : ∀ cb, s.process.handle h = .ok cb → 0 < cb.ashmemSize →
    (cb.ashmemBasePid = s.process.pid ∧ cb.ashmemBase ≠ 0 ↔ s.Needs h)
  counted : ∀ cb, s.process.handle h = .ok cb → 0 < cb.ashmemSize →
    (0 < s.registered h ↔ cb.mappedPid = s.process.pid)
  listed : ∀ cb, s.process.handle h = .ok cb → 0 < cb.ashmemSize →
    h ∈ s.process.allocList → cb.mappedPid ≠ s.process.pid

/-- Handles that are used exist, and mappings are those of handles and have no address in common. -/
structure Space (s : Counted HandleId) : Prop where
  pid : 0 < s.process.pid
  used : ∀ h, h ∈ s.process.allocList ∨ s.registered h ≠ 0 → h < s.process.handles.length
  nodup : s.process.allocList.Nodup
  separate : Separate s.process.mappings
  regions : ∀ m ∈ s.process.mappings, ∃ cb, s.process.handles[m.region]? = some cb ∧
    0 < cb.ashmemSize ∧ m.size = cb.ashmemSize.toNat

/-- A region is needed through one handle at most. -/
def Alone (region : HandleId → κ) (s : Counted HandleId) : Prop :=
  ∀ h i, s.Holds h → s.Holds i → region h = region i → h = i

def Fresh (region : HandleId → κ) (s : Counted HandleId) : Prop :=
  ∀ i < s.process.handles.length, region i ≠ region s.process.handles.length

/-- The space, what each handle says of it, and who needs a region. -/
structure MapInv (region : HandleId → κ) (s : Counted HandleId) : Prop where
  space : s.Space
  handles : ∀ h, s.HandleOk h
  alone : s.Alone region

structure SameAt (s s' : Counted HandleId) (i : HandleId) : Prop where
  handles : ∀ cb', s'.process.handles[i]? = some cb' →
    ∃ cb, s.process.handles[i]? = some cb ∧ SameRegion cb cb'
  deleted : i ∈ s.process.deleted → i ∈ s'.process.deleted
  allocList : i ∈ s'.process.allocList ↔ i ∈ s.process.allocList
  registered : s'.registered i = s.registered i
  mappedAt : mappedAt s'.process.mappings i = mappedAt s.process.mappings i

theorem SameAt.needs (hs : SameAt s s' i) : s'.Needs i ↔ s.Needs i := by
  unfold Needs
  rw [hs.allocList, hs.registered]

theorem SameAt.holds (hs : SameAt s s' i) (h : s'.Holds i) : s.Holds i := by
  obtain ⟨hneeds, cb', hcb', hsize⟩ := h
  obtain ⟨cb, hcb, hsame⟩ := hs.handles cb' hcb'
  exact ⟨hs.needs.mp hneeds, cb, hcb, hsame.ashmemSize ▸ hsize⟩

/-- The regions are needed through the handles they were needed through, but for one handle. -/
theorem Alone.of_others (halone : s.Alone region) (hothers : ∀ j, j ≠ h → s'.Holds j → s.Holds j)
    (hholds : s'.Holds h → s.Holds h ∨ ∀ j, j ≠ h → s.Holds j → region j ≠ region h) :
    s'.Alone region := by
  intro i j hi hj heq
  by_cases hih : i = h <;> by_cases hjh : j = h
  · rw [hih, hjh]
  · subst hih
    rcases hholds hi with hbefore | hnone
    · exact halone i j hbefore (hothers j hjh hj) heq
    · exact absurd heq.symm (hnone j hjh (hothers j hjh hj))
  · subst hjh
    rcases hholds hj with hbefore | hnone
    · exact halone i j (hothers i hih hi) hbefore heq
    · exact absurd heq (hnone i hih (hothers i hih hi))
  · exact halone i j (hothers i hih hi) (hothers j hjh hj) heq

theorem SameAt.handle (hs : SameAt s s' i) {cb' : cb_handle_t}
    (hcb' : s'.process.handle i = .ok cb') :
    ∃ cb, s.process.handle i = .ok cb ∧ SameRegion cb cb' := by
  obtain ⟨hget, hlive⟩ := Process.handle_ok.mp hcb'
  grind [hs.handles, hs.deleted]

theorem SameAt.handleOk (hs : SameAt s s' i) (hpid : s'.process.pid = s.process.pid)
    (hok : s.HandleOk i) : s'.HandleOk i := by
  constructor
  · intro cb' hcb' hsize
    obtain ⟨cb, hcb, hsame⟩ := hs.handles cb' hcb'
    rw [hsame.ashmemSize] at hsize
    rw [hs.mappedAt, hok.once cb hcb hsize, hsame.ashmemBase]
    simp only [hs.needs]
  · intro cb' hcb' hne
    obtain ⟨cb, hcb, hsame⟩ := hs.handle hcb'
    grind [hsame.mappedPid, hsame.ashmemBasePid, hsame.ashmemBase, hok.named]
  · intro cb' hcb' hsize
    obtain ⟨cb, hcb, hsame⟩ := hs.handle hcb'
    grind [hsame.ashmemSize, hsame.ashmemBasePid, hsame.ashmemBase, hs.needs, hok.lockable]
  · intro cb' hcb' hsize
    obtain ⟨cb, hcb, hsame⟩ := hs.handle hcb'
    grind [hsame.ashmemSize, hs.registered, hsame.mappedPid, hok.counted]
  · intro cb' hcb' hsize hlisted
    obtain ⟨cb, hcb, hsame⟩ := hs.handle hcb'
    grind [hsame.ashmemSize, hsame.mappedPid, hok.listed, hs.allocList]

variable {cb : cb_handle_t} {registered : HandleId → Int} {c : Process.Call} {r : Process × Int}
  {connected : Bool} {mmap : Except Errno Nat}

theorem mapping_of_needs (hspace : s.Space) (hok : s.HandleOk h)
    (hcb : s.process.handles[h]? = some cb) (hsize : 0 < cb.ashmemSize) (hneeds : s.Needs h) :
    mappedAt s.process.mappings h = [cb.ashmemBase] ∧
      (⟨cb.ashmemBase, cb.ashmemSize.toNat, h⟩ : Mapping) ∈ s.process.mappings := by
  have honce := hok.once cb hcb hsize
  rw [if_pos hneeds] at honce
  refine ⟨honce, ?_⟩
  have hmem : cb.ashmemBase ∈ mappedAt s.process.mappings h := by simp [honce]
  obtain ⟨m, hm, hregion, haddr⟩ := AddressSpace.mem_mappedAt.mp hmem
  obtain ⟨cb', hcb', -, hsize'⟩ := hspace.regions m hm
  rw [hregion, hcb] at hcb'
  cases hcb'
  have heq : m = ⟨cb.ashmemBase, cb.ashmemSize.toNat, h⟩ := by
    rw [← haddr, ← hsize', ← hregion]
  exact heq ▸ hm

theorem MapInv.congr (hinv : s.MapInv region) (region' : HandleId → κ)
    (h : ∀ i < s.process.handles.length, region' i = region i) : s.MapInv region' := by
  refine ⟨hinv.space, hinv.handles, fun i j hi hj heq => hinv.alone i j hi hj ?_⟩
  obtain ⟨-, cb, hcb, -⟩ := hi
  obtain ⟨-, cb', hcb', -⟩ := hj
  rwa [h i (List.getElem?_eq_some_iff.mp hcb).1, h j (List.getElem?_eq_some_iff.mp hcb').1] at heq

/-- What is mapped is needed through the handle of the mapping. -/
theorem MapInv.holds (hinv : s.MapInv region) {m : Mapping} (hm : m ∈ s.process.mappings) :
    s.Holds m.region := by
  obtain ⟨cb, hcb, hpos, -⟩ := hinv.space.regions m hm
  refine ⟨?_, cb, hcb, hpos⟩
  have honce := (hinv.handles m.region).once cb hcb hpos
  have hmem : m.addr ∈ mappedAt s.process.mappings m.region :=
    AddressSpace.mem_mappedAt.mpr ⟨m, hm, rfl, rfl⟩
  grind

/-- A region that is needed has the addresses of the handle that needs it. -/
theorem MapInv.addresses_eq [DecidableEq κ] (hinv : s.MapInv region) (hholds : s.Holds h) :
    s.addresses region (region h) = mappedAt s.process.mappings h :=
  AddressSpace.mappedAt_rename_of_forall fun m hm heq =>
    hinv.alone m.region h (hinv.holds hm) hholds heq

theorem MapInv.mapped [DecidableEq κ] (hinv : s.MapInv region) : s.Mapped region := by
  refine ⟨fun h cb hcb hsize hneeds => ?_, fun k hnone => ?_, ?_⟩
  · rw [hinv.addresses_eq ⟨hneeds, cb, hcb, hsize⟩, (hinv.handles h).once cb hcb hsize,
      if_pos hneeds]
  · exact AddressSpace.mappedAt_rename_eq_nil.mpr fun m hm =>
      hnone m.region (hinv.holds hm)
  · intro h cb hcb hvalid hsize usage left top width height host hallowed hhost
    have hlockable := (hinv.handles h).lockable cb hcb hsize
    rw [Process.gralloc_lock_succeeds_iff hcb hvalid hallowed hhost, hlockable,
      and_iff_left_iff_imp]
    intro hneeds
    unfold Process.readPostCount
    split
    · obtain ⟨-, hmem⟩ :=
        mapping_of_needs hinv.space (hinv.handles h) (Process.handle_ok.mp hcb).1 hsize hneeds
      unfold Process.access
      rw [if_pos]
      rw [List.any_eq_true]
      refine ⟨_, hmem, decide_eq_true ⟨?_, ?_⟩⟩
      · exact Nat.lt_succ_self cb.ashmemBase
      · grind
    · rfl

/-! ## Changes of one handle -/

structure SameHandles (s s' : Counted HandleId) : Prop where
  pid : s'.process.pid = s.process.pid
  handles : s'.process.handles = s.process.handles
  deleted : s'.process.deleted = s.process.deleted
  mappings : s'.process.mappings = s.process.mappings
  allocList : s'.process.allocList = s.process.allocList
  registered : s'.registered = s.registered

theorem SameHandles.symm (hs : SameHandles s s') : SameHandles s' s :=
  ⟨hs.pid.symm, hs.handles.symm, hs.deleted.symm, hs.mappings.symm, hs.allocList.symm,
    hs.registered.symm⟩

theorem SameHandles.sameAt (hs : SameHandles s s') (i : HandleId) : SameAt s s' i :=
  ⟨fun cb' hcb' => ⟨cb', hs.handles ▸ hcb', rfl, rfl, rfl, rfl⟩,
    fun hdeleted => hs.deleted.symm ▸ hdeleted, by rw [hs.allocList],
    congrFun hs.registered i, by rw [hs.mappings]⟩

theorem SameHandles.mapInv (hs : SameHandles s s') (hinv : s.MapInv region) :
    s'.MapInv region := by
  refine ⟨⟨?_, ?_, ?_, ?_, ?_⟩, fun i => (hs.sameAt i).handleOk hs.pid (hinv.handles i),
    fun i j hi hj => hinv.alone i j ((hs.sameAt i).holds hi) ((hs.sameAt j).holds hj)⟩
  · rw [hs.pid]
    exact hinv.space.pid
  · rw [hs.allocList, hs.registered, hs.handles]
    exact hinv.space.used
  · rw [hs.allocList]
    exact hinv.space.nodup
  · rw [hs.mappings]
    exact hinv.space.separate
  · rw [hs.mappings, hs.handles]
    exact hinv.space.regions

structure ChangesAt (s s' : Counted HandleId) (h : HandleId) : Prop where
  pid : s'.process.pid = s.process.pid
  length : s'.process.handles.length = s.process.handles.length
  allocList : s'.process.allocList = s.process.allocList
  others : ∀ i, i ≠ h → SameAt s s' i
  separate : Separate s'.process.mappings
  regions : ∀ m ∈ s'.process.mappings, ∃ cb, s'.process.handles[m.region]? = some cb ∧
    0 < cb.ashmemSize ∧ m.size = cb.ashmemSize.toNat

theorem ChangesAt.mapInv (hchange : ChangesAt s s' h) (hinv : s.MapInv region)
    (hlt : h < s.process.handles.length) (hok : s'.HandleOk h)
    (hholds : s'.Holds h → s.Holds h ∨ ∀ j, j ≠ h → s.Holds j → region j ≠ region h) :
    s'.MapInv region := by
  refine ⟨⟨?_, fun i hi => ?_, ?_, hchange.separate, hchange.regions⟩, fun i => ?_,
    hinv.alone.of_others (fun j hne => (hchange.others j hne).holds) hholds⟩
  · rw [hchange.pid]
    exact hinv.space.pid
  · rw [hchange.length]
    by_cases heq : i = h
    · rw [heq]
      exact hlt
    · rw [hchange.allocList, (hchange.others i heq).registered] at hi
      exact hinv.space.used i hi
  · rw [hchange.allocList]
    exact hinv.space.nodup
  · by_cases heq : i = h
    · rw [heq]
      exact hok
    · exact (hchange.others i heq).handleOk hchange.pid (hinv.handles i)

/-- A handle is changed, a mapping for its region may come or go, and the count may change. -/
theorem changesAt_modifyHandle {f : cb_handle_t → cb_handle_t}
    {mappings : List Mapping}
    (hprocess : s'.process = { s.process.modifyHandle h f with mappings := mappings })
    (hregistered : s'.registered = registered) (hcb : s.process.handles[h]? = some cb)
    (hsize : ∀ cb, (f cb).ashmemSize = cb.ashmemSize)
    (hothers : ∀ i, i ≠ h → registered i = s.registered i ∧
      mappedAt mappings i = mappedAt s.process.mappings i)
    (hseparate : Separate mappings)
    (hregions : ∀ m ∈ mappings, m ∈ s.process.mappings ∨
      m.region = h ∧ 0 < cb.ashmemSize ∧ m.size = cb.ashmemSize.toNat)
    (hspace : s.Space) : ChangesAt s s' h := by
  have hget : ∀ i, s'.process.handles[i]? =
      (s.process.handles[i]?).map fun cb => if h = i then f cb else cb := by
    intro i
    rw [hprocess]
    exact s.process.modifyHandle_getElem? h i f
  refine ⟨by rw [hprocess]; rfl, ?_, by rw [hprocess]; rfl, fun i hne => ?_, ?_, fun m hm => ?_⟩
  · rw [hprocess]
    exact List.length_modify f s.process.handles h
  · refine ⟨fun cb' hcb' => ?_, fun hdeleted => ?_, ?_, ?_, ?_⟩
    · rw [hget, Option.map_eq_some_iff] at hcb'
      obtain ⟨cb, hcb, rfl⟩ := hcb'
      rw [if_neg (Ne.symm hne)]
      exact ⟨cb, hcb, .refl cb⟩
    · rw [hprocess]
      exact hdeleted
    · rw [hprocess]
      exact Iff.rfl
    · rw [hregistered]
      exact (hothers i hne).1
    · rw [hprocess]
      exact (hothers i hne).2
  · rw [hprocess]
    exact hseparate
  · rw [hprocess] at hm
    have hold : ∃ cb, s.process.handles[m.region]? = some cb ∧ 0 < cb.ashmemSize ∧
        m.size = cb.ashmemSize.toNat := by
      rcases hregions m hm with hmem | ⟨hregion, hpos, hsize⟩
      · exact hspace.regions m hmem
      · rw [hregion]
        exact ⟨cb, hcb, hpos, hsize⟩
    obtain ⟨cb, hcb, hpos, hmsize⟩ := hold
    refine ⟨if h = m.region then f cb else cb, by rw [hget, hcb, Option.map_some], ?_⟩
    split
    · rw [hsize]
      exact ⟨hpos, hmsize⟩
    · exact ⟨hpos, hmsize⟩

/-! ## Calls -/

/-- What the kernel promises of its answers: a new descriptor is not open, and a new mapping is at
addresses that are not used. -/
def KernelAnswers (s : Counted HandleId) : Process.Call → Prop
  | .gralloc_alloc _ w h format usage ashmem mmap _ =>
      (∀ fd, ashmem = .ok fd → fd ∉ s.process.fds) ∧ ∀ addr, mmap = .ok addr →
        0 < addr ∧
          Unused s.process.mappings addr (Process.regionSize w h format usage).toNat
  | .gralloc_register_buffer handle _ mmap => ∀ h cb, s.process.Gets handle h cb →
      ∀ addr, mmap = .ok addr →
        0 < addr ∧ Unused s.process.mappings addr cb.ashmemSize.toNat
  | _ => True

/-- What `gralloc_free` unmaps is the region of its handle, and nothing else, and only when no
registration needs it. -/
structure FreesOwn (s : Counted HandleId) (h : HandleId) (cb : cb_handle_t) : Prop where
  allocated : h ∈ s.process.allocList → 0 < cb.fd
  registered : 0 < s.registered h → ¬0 < cb.fd
  others : ¬s.Needs h → 0 < cb.fd → cb.ashmemBase ≠ 0 →
    Unused s.process.mappings cb.ashmemBase cb.ashmemSize.toNat

/-- The buffer that is registered is not allocated here, and its region is not needed through
another handle. -/
structure RegistersAlone (region : HandleId → κ) (s : Counted HandleId) (h : HandleId) : Prop where
  allocated : h ∉ s.process.allocList
  registered : 0 ≤ s.registered h
  others : ∀ i, i ≠ h → s.Holds i → region i ≠ region h

def KeepsMapped (region : HandleId → κ) (s : Counted HandleId) : Process.Call → Prop
  | .gralloc_alloc args w h format usage ashmem mmap host =>
      ¬Process.LeaksMapping args w h format usage ashmem mmap host
  | .gralloc_free handle connected => ∀ h cb, s.process.Gets handle h cb →
      Connects cb connected → 0 < cb.ashmemSize → s.FreesOwn h cb
  | .gralloc_register_buffer handle connected mmap => ∀ h cb, s.process.Gets handle h cb →
      Connects cb connected → 0 < cb.ashmemSize →
      (cb.mappedPid ≠ s.process.pid → 0 ≤ cb.fd ∧ ∃ addr, mmap = .ok addr) →
      s.RegistersAlone region h
  | .gralloc_unregister_buffer handle connected => ∀ h cb, s.process.Gets handle h cb →
      Connects cb connected → 0 < cb.ashmemSize → s.registered h ≤ 1
  | _ => True

/-- The invariant is kept where the condition is met, and the condition is met where the regions
that are needed are mapped after the call. -/
structure MapEffect [DecidableEq κ] (region : HandleId → κ) (s : Counted HandleId)
    (c : Process.Call) (r : Counted HandleId × Int) : Prop where
  kept : s.KeepsMapped region c → r.1.MapInv region
  needed : r.1.Mapped region → s.KeepsMapped region c

theorem MapEffect.of_same [DecidableEq κ] {r : Counted HandleId × Int}
    (hinv : s.MapInv region) (hsame : SameHandles s r.1) (hkeeps : s.KeepsMapped region c) :
    MapEffect region s c r :=
  ⟨fun _ => hsame.mapInv hinv, fun _ => hkeeps⟩

theorem Mapped.length_addresses_le [DecidableEq κ] (h : s.Mapped region) (k : κ) :
    (s.addresses region k).length ≤ 1 := by
  by_cases hunheld : ∀ i, s.Holds i → region i ≠ k
  · rw [h.unneeded k hunheld]
    exact Nat.zero_le 1
  · push Not at hunheld
    obtain ⟨i, ⟨hneeds, cb, hcb, hpos⟩, rfl⟩ := hunheld
    rw [h.once i cb hcb hpos hneeds]
    exact Nat.le_refl 1

theorem needs_counted_iff {n : Int} {p : Process}
    (hlist : p.allocList = s.process.allocList) (hcount : registered h = s.registered h + n) :
    (⟨p, registered⟩ : Counted HandleId).Needs h ↔
      h ∈ s.process.allocList ∨ 0 < s.registered h + n := by
  unfold Needs
  grind

theorem registered_effect [DecidableEq κ] {addr : Nat} (hinv : s.MapInv region)
    (hcb : s.process.handle h = .ok cb) (hsize : 0 < cb.ashmemSize)
    (hpid : cb.mappedPid ≠ s.process.pid) (haddr : 0 < addr)
    (hunused : Unused s.process.mappings addr cb.ashmemSize.toNat)
    (hcount : registered h = s.registered h + 1)
    (hothers : ∀ i, i ≠ h → registered i = s.registered i) :
    (s.RegistersAlone region h →
        (⟨s.process.registered h cb addr, registered⟩ : Counted HandleId).MapInv region) ∧
      ((⟨s.process.registered h cb addr, registered⟩ : Counted HandleId).Mapped region →
        s.RegistersAlone region h) := by
  obtain ⟨hget, hlive⟩ := Process.handle_ok.mp hcb
  have hok := hinv.handles h
  have hnotCounted : ¬0 < s.registered h := fun hpos => hpid ((hok.counted cb hcb hsize).mp hpos)
  have hneeds := needs_counted_iff (s := s) (p := s.process.registered h cb addr) rfl hcount
  have hchange : ChangesAt s ⟨s.process.registered h cb addr, registered⟩ h := by
    refine changesAt_modifyHandle (s.process.registered_eq h cb addr) rfl hget (fun _ => rfl)
      (fun i hne => ⟨hothers i hne, ?_⟩) (hinv.space.separate.cons hunused) (fun m hm => ?_)
      hinv.space
    · rw [AddressSpace.mappedAt_cons, if_neg (Ne.symm hne)]
    · grind
  have hget' : (s.process.registered h cb addr).handles[h]? = some { cb with
      ashmemBase := addr, ashmemBasePid := s.process.pid, mappedPid := s.process.pid } := by
    simp [s.process.registered_eq, Process.modifyHandle_getElem?, hget]
  have hmapped : mappedAt (s.process.registered h cb addr).mappings h =
      addr :: mappedAt s.process.mappings h := by
    simp [s.process.registered_eq, AddressSpace.mappedAt_cons]
  have honce := hok.once cb hget hsize
  constructor
  · rintro ⟨hlist, hcounted, hregion⟩
    have hunneeded : ¬s.Needs h := fun hneeds => hneeds.elim hlist hnotCounted
    rw [if_neg hunneeded] at honce
    have hneeds' := hneeds.mpr (.inr (by omega))
    refine hchange.mapInv hinv (List.getElem?_eq_some_iff.mp hget).1 ⟨?_, ?_, ?_, ?_, ?_⟩
      fun _ => .inr hregion
    · grind
    · grind
    · intro cb' hcb' _
      cases hget'.symm.trans (Process.handle_ok.mp hcb').1
      exact iff_of_true ⟨rfl, Nat.ne_of_gt haddr⟩ hneeds'
    · intro cb' hcb' _
      cases hget'.symm.trans (Process.handle_ok.mp hcb').1
      refine iff_of_true ?_ rfl
      dsimp only
      omega
    · intro cb' _ _ hlisted
      exact absurd hlisted hlist
  · intro hafter
    -- the region has the new address, and so no other one and a handle that needs it
    have haddresses : (⟨s.process.registered h cb addr, registered⟩ : Counted HandleId).addresses
        region (region h) = addr :: s.addresses region (region h) := by
      simp [addresses, AddressSpace.rename, s.process.registered_eq, AddressSpace.mappedAt_cons]
    have hnone : s.addresses region (region h) = [] := by
      have hle := hafter.length_addresses_le (region h)
      rw [haddresses, List.length_cons] at hle
      exact List.length_eq_zero_iff.mp (by omega)
    have hothersFree : ∀ i, s.Holds i → region i ≠ region h := by
      intro i hholds heq
      rw [← heq, hinv.addresses_eq hholds] at hnone
      obtain ⟨hneeds', cb', hcb', hpos⟩ := hholds
      rw [(hinv.handles i).once cb' hcb' hpos, if_pos hneeds'] at hnone
      cases hnone
    have hunneeded : ¬s.Needs h := fun hneeds => hothersFree h ⟨hneeds, cb, hget, hsize⟩ rfl
    refine ⟨fun hlisted => hunneeded (.inl hlisted), ?_, fun i _ => hothersFree i⟩
    by_contra hneg
    have hunneeded' : ∀ i, (⟨s.process.registered h cb addr, registered⟩ :
        Counted HandleId).Holds i → region i ≠ region h := by
      intro i hholds
      by_cases heq : i = h
      · subst heq
        have hnever := hneeds.mp hholds.1
        grind [Needs]
      · exact hothersFree i ((hchange.others i heq).holds hholds)
    rw [hafter.unneeded _ hunneeded'] at haddresses
    cases haddresses

theorem mapInv_count {p : Process}
    (hinv : s.MapInv region) (hsame : SameHandles s ⟨p, s.registered⟩)
    (hget : s.process.handles[h]? = some cb)
    (hpos : 0 < cb.ashmemSize → (0 < registered h ↔ 0 < s.registered h))
    (hothers : ∀ i, i ≠ h → registered i = s.registered i) :
    (⟨p, registered⟩ : Counted HandleId).MapInv region := by
  have hinv' := hsame.mapInv hinv
  have hget' : p.handles[h]? = some cb := hsame.handles.symm ▸ hget
  have hat : ∀ i, i ≠ h → SameAt ⟨p, s.registered⟩ ⟨p, registered⟩ i := fun i hne =>
    ⟨fun cb' hcb' => ⟨cb', hcb', .refl cb'⟩, id, Iff.rfl, hothers i hne, rfl⟩
  have hneeds : 0 < cb.ashmemSize → ((⟨p, registered⟩ : Counted HandleId).Needs h ↔
      (⟨p, s.registered⟩ : Counted HandleId).Needs h) := fun hsize => or_congr_right (hpos hsize)
  refine ⟨⟨hinv'.space.pid, fun i hi => ?_, hinv'.space.nodup, hinv'.space.separate,
    hinv'.space.regions⟩, fun i => ?_, hinv'.alone.of_others (fun j hne => (hat j hne).holds) ?_⟩
  · by_cases heq : i = h
    · grind
    · refine hinv'.space.used i ?_
      grind
  · by_cases heq : i = h
    · subst heq
      have hok := hinv'.handles i
      constructor
      · intro cb' hcb' hsize
        cases hget'.symm.trans hcb'
        rw [hok.once cb hget' hsize]
        simp only [hneeds hsize]
      · exact hok.named
      · grind [hok.lockable]
      · grind [hok.counted]
      · exact hok.listed
    · exact (hat i heq).handleOk rfl (hinv'.handles i)
  · rintro ⟨hneeded, cb', hcb', hsize⟩
    cases hget'.symm.trans hcb'
    exact .inl ⟨(hneeds hsize).mp hneeded, cb, hget', hsize⟩

theorem unregistered_effect [DecidableEq κ]
    (hinv : s.MapInv region) (hcb : s.process.handle h = .ok cb) (hsize : 0 < cb.ashmemSize)
    (hpid : cb.mappedPid = s.process.pid) (hcount : registered h = s.registered h + -1)
    (hothers : ∀ i, i ≠ h → registered i = s.registered i) :
    (s.registered h ≤ 1 →
        (⟨s.process.unregisterMapping h cb, registered⟩ : Counted HandleId).MapInv region) ∧
      ((⟨s.process.unregisterMapping h cb, registered⟩ : Counted HandleId).Mapped region →
        s.registered h ≤ 1) := by
  obtain ⟨hget, hlive⟩ := Process.handle_ok.mp hcb
  have hok := hinv.handles h
  have hcounted : 0 < s.registered h := (hok.counted cb hcb hsize).mpr hpid
  have hlist : h ∉ s.process.allocList := fun hlisted => hok.listed cb hcb hsize hlisted hpid
  obtain ⟨honce, hmem⟩ := mapping_of_needs hinv.space hok hget hsize (.inr hcounted)
  have hpos : 0 < cb.ashmemSize.toNat := by omega
  have hunregister : s.process.unregisterMapping h cb = { s.process.modifyHandle h fun cb =>
        { cb with ashmemBase := 0, mappedPid := 0 } with
      mappings := AddressSpace.unmap s.process.mappings cb.ashmemBase cb.ashmemSize.toNat } :=
    if_pos ⟨hsize, hpid⟩
  have hneeds := needs_counted_iff (s := s) (p := s.process.unregisterMapping h cb)
    (by rw [hunregister]; rfl) hcount
  have hget' : (s.process.unregisterMapping h cb).handles[h]? =
      some { cb with ashmemBase := 0, mappedPid := 0 } := by
    simp [Process.modifyHandle_getElem?, hunregister, hget]
  have hunmapped : mappedAt (s.process.unregisterMapping h cb).mappings h = [] := by
    rw [hunregister]
    exact AddressSpace.mappedAt_unmap_self hmem hpos honce
  have hchange : ChangesAt s ⟨s.process.unregisterMapping h cb, registered⟩ h := by
    refine changesAt_modifyHandle hunregister rfl hget (fun _ => rfl)
      (fun i hne => ⟨hothers i hne, ?_⟩) (hinv.space.separate.unmap _ _)
      (fun m hm => .inl (AddressSpace.mem_unmap.mp hm).1) hinv.space
    exact AddressSpace.mappedAt_unmap_of_ne hinv.space.separate hmem (Ne.symm hne)
  have hpidPos := hinv.space.pid
  constructor
  · intro hone
    have hunneeded : ¬(⟨s.process.unregisterMapping h cb, registered⟩ : Counted HandleId).Needs h := by
      grind
    refine hchange.mapInv hinv (List.getElem?_eq_some_iff.mp hget).1 ⟨?_, ?_, ?_, ?_, ?_⟩
      fun _ => .inl ⟨.inr hcounted, cb, hget, hsize⟩
    · grind
    · grind
    · grind
    · grind [hchange.pid]
    · grind [hchange.allocList]
  · intro hafter
    by_contra htwice
    have honce' := hafter.once h _ hget' hsize (hneeds.mpr (.inr (by omega)))
    -- the address is of a mapping that was there through another handle
    obtain ⟨m, hm, hregion, -⟩ := AddressSpace.mem_mappedAt_rename.mp
      (honce' ▸ List.mem_singleton_self _)
    have hbefore : m ∈ s.process.mappings := by
      rw [hunregister] at hm
      exact (AddressSpace.mem_unmap.mp hm).1
    have heq := hinv.alone _ h (hinv.holds hbefore) ⟨.inr hcounted, cb, hget, hsize⟩ hregion
    exact AddressSpace.mappedAt_eq_nil.mp hunmapped m hm heq

/-- The buffer has been freed. -/
abbrev afterFree (s : Counted HandleId) (h : HandleId) (cb : cb_handle_t) : Counted HandleId :=
  ⟨s.process.freed h cb, s.registered⟩

theorem mapInv_freed (hinv : s.MapInv region)
    (hget : s.process.handles[h]? = some cb)
    (honce : 0 < cb.ashmemSize → mappedAt (s.process.freedMappings cb) h =
      if 0 < s.registered h then [cb.ashmemBase] else [])
    (hothers : ∀ i, i ≠ h → mappedAt (s.process.freedMappings cb) i =
      mappedAt s.process.mappings i) :
    (s.afterFree h cb).MapInv region := by
  obtain ⟨fds, hfreed⟩ := s.process.freed_eq h cb
  rw [afterFree, hfreed]
  have hsub : ∀ m ∈ s.process.freedMappings cb, m ∈ s.process.mappings := by
    grind [Process.freedMappings, AddressSpace.mem_unmap]
  refine ⟨⟨hinv.space.pid, fun i hi => ?_, hinv.space.nodup.erase h, ?_,
    fun m hm => hinv.space.regions m (hsub m hm)⟩, fun i => ?_,
    fun i j hi hj => hinv.alone i j (hi.imp_left (·.imp_left List.mem_of_mem_erase))
      (hj.imp_left (·.imp_left List.mem_of_mem_erase))⟩
  · exact hinv.space.used i (hi.imp List.mem_of_mem_erase id)
  · grind [Process.freedMappings, hinv.space.separate.unmap, hinv.space.separate]
  · by_cases heq : i = h
    · subst heq
      have hdead : ∀ {p : Prop} {fds} (cb' : cb_handle_t), ({ s.process with
          mappings := s.process.freedMappings cb, fds := fds,
          sent := (s.process.closeColorBuffer cb).sent,
          allocList := s.process.allocList.erase i,
          deleted := i :: s.process.deleted } : Process).handle i = .ok cb' → p := by
        simp [Process.handle_ok]
      refine ⟨fun cb' hcb' hsize => ?_, fun cb' hcb' => hdead cb' hcb',
        fun cb' hcb' => hdead cb' hcb', fun cb' hcb' => hdead cb' hcb',
        fun cb' hcb' => hdead cb' hcb'⟩
      grind [Needs, hinv.space.nodup.mem_erase_iff]
    · refine SameAt.handleOk (s := s) ⟨fun cb' hcb' => ⟨cb', hcb', .refl cb'⟩, ?_,
        List.mem_erase_of_ne heq, rfl, hothers i heq⟩ rfl (hinv.handles i)
      exact List.mem_cons_of_mem h

theorem freed_addresses [DecidableEq κ] (s : Counted HandleId) (h : HandleId) (cb : cb_handle_t)
    (k : κ) : (s.afterFree h cb).addresses region k =
      mappedAt (AddressSpace.rename region (s.process.freedMappings cb)) k := by
  obtain ⟨fds, hfreed⟩ := s.process.freed_eq h cb
  rw [addresses, afterFree, hfreed]

theorem freed_needs_iff (hspace : s.Space) :
    (s.afterFree h cb).Needs i ↔
      (i ≠ h ∧ i ∈ s.process.allocList) ∨ 0 < s.registered i := by
  obtain ⟨fds, hfreed⟩ := s.process.freed_eq h cb
  rw [afterFree, hfreed]
  exact or_congr_left hspace.nodup.mem_erase_iff

theorem freed_getElem? :
    (s.process.freed h cb).handles[i]? = s.process.handles[i]? := by
  obtain ⟨fds, hfreed⟩ := s.process.freed_eq h cb
  rw [hfreed]

theorem freed_unneeded [DecidableEq κ] (hinv : s.MapInv region)
    (hget : s.process.handles[h]? = some cb) (hsize : 0 < cb.ashmemSize) (hneeds : ¬s.Needs h) :
    (s.FreesOwn h cb → (s.afterFree h cb).MapInv region) ∧
      ((s.afterFree h cb).Mapped region → s.FreesOwn h cb) := by
  have honce := (hinv.handles h).once cb hget hsize
  rw [if_neg hneeds] at honce
  obtain ⟨hlist, hcounted⟩ := not_or.mp hneeds
  constructor
  · intro hfrees
    grind [Process.freedMappings, AddressSpace.unmap_unused, mapInv_freed, hfrees.others]
  · intro hafter
    refine ⟨fun hlisted => absurd hlisted hlist, fun hpos => absurd hpos hcounted, ?_⟩
    intro _ hfd hbase m hm
    have hholds := hinv.holds hm
    obtain ⟨hneeds', cb', hcb', hpos⟩ := hholds
    have hne : m.region ≠ h := fun heq => hneeds (heq ▸ hneeds')
    have hneedsAfter : (s.afterFree h cb).Needs m.region :=
      (freed_needs_iff hinv.space).mpr (hneeds'.imp_left fun hlisted => ⟨hne, hlisted⟩)
    -- the region of the mapping keeps its address, so the mapping is not in the range
    have hafterOnce := hafter.once m.region cb' (freed_getElem?.trans hcb') hpos hneedsAfter
    have hmappings : s.process.freedMappings cb =
        AddressSpace.unmap s.process.mappings cb.ashmemBase cb.ashmemSize.toNat :=
      if_pos ⟨hfd, hsize, hbase⟩
    rw [freed_addresses, hmappings, ← AddressSpace.unmap_rename,
      ← hinv.mapped.once m.region cb' hcb' hpos hneeds'] at hafterOnce
    exact AddressSpace.mappedAt_unmap_iff.mp hafterOnce _ (List.mem_map_of_mem hm) rfl

theorem freed_needed [DecidableEq κ] (hinv : s.MapInv region)
    (hcb : s.process.handle h = .ok cb) (hsize : 0 < cb.ashmemSize) (hneeds : s.Needs h) :
    (s.FreesOwn h cb → (s.afterFree h cb).MapInv region) ∧
      ((s.afterFree h cb).Mapped region → s.FreesOwn h cb) := by
  have hget := (Process.handle_ok.mp hcb).1
  have hok := hinv.handles h
  have hbase : cb.ashmemBase ≠ 0 := ((hok.lockable cb hcb hsize).mpr hneeds).2
  obtain ⟨honce, hmem⟩ := mapping_of_needs hinv.space hok hget hsize hneeds
  have hpos : 0 < cb.ashmemSize.toNat := by omega
  have hlisted : h ∈ s.process.allocList → ¬0 < s.registered h := fun hlist hcounted =>
    hok.listed cb hcb hsize hlist ((hok.counted cb hcb hsize).mp hcounted)
  -- the mappings of the region are those of the handle
  have hown : ∀ m ∈ s.process.mappings, region m.region = region h → m.region = h :=
    fun m hm heq => hinv.alone _ h (hinv.holds hm) ⟨hneeds, cb, hget, hsize⟩ heq
  by_cases hfd : 0 < cb.fd
  · have hmappings : s.process.freedMappings cb =
        AddressSpace.unmap s.process.mappings cb.ashmemBase cb.ashmemSize.toNat :=
      if_pos ⟨hfd, hsize, hbase⟩
    have hunmapped : mappedAt (s.process.freedMappings cb) h = [] := by
      rw [hmappings]
      exact AddressSpace.mappedAt_unmap_self hmem hpos honce
    constructor
    · intro hfrees
      refine mapInv_freed hinv hget (fun _ => ?_) fun i hne => ?_
      · rw [hunmapped, if_neg fun hcounted => hfrees.registered hcounted hfd]
      · rw [hmappings]
        exact AddressSpace.mappedAt_unmap_of_ne hinv.space.separate hmem (Ne.symm hne)
    · intro hafter
      refine ⟨fun _ => hfd, fun hcounted => ?_, fun hnot => absurd hneeds hnot⟩
      have hafterOnce := hafter.once h cb (freed_getElem?.trans hget) hsize
        ((freed_needs_iff hinv.space).mpr (.inr hcounted))
      rw [freed_addresses] at hafterOnce
      obtain ⟨m, hm, hregion, -⟩ := AddressSpace.mem_mappedAt_rename.mp
        (hafterOnce ▸ List.mem_singleton_self cb.ashmemBase)
      have hbefore : m ∈ s.process.mappings := (AddressSpace.mem_unmap.mp (hmappings ▸ hm)).1
      exact absurd (hown m hbefore hregion) (AddressSpace.mappedAt_eq_nil.mp hunmapped m hm)
  · have hmappings : s.process.freedMappings cb = s.process.mappings :=
      if_neg fun hall => hfd hall.1
    constructor
    · intro hfrees
      have hcounted : 0 < s.registered h :=
        hneeds.resolve_left fun hlist => hfd (hfrees.allocated hlist)
      grind [mapInv_freed]
    · intro hafter
      refine ⟨fun hlist => ?_, fun _ => hfd, fun hnot => absurd hneeds hnot⟩
      have hunneeded : ∀ i, (s.afterFree h cb).Holds i →
          region i ≠ region h := by
        rintro i ⟨hneeds', cb', hcb', hpos'⟩ heq
        have hneeds' := (freed_needs_iff hinv.space).mp hneeds'
        have hbefore : s.Holds i :=
          ⟨hneeds'.imp_left And.right, cb', freed_getElem?.symm.trans hcb', hpos'⟩
        obtain rfl := hinv.alone i h hbefore ⟨hneeds, cb, hget, hsize⟩ heq
        exact hneeds'.elim (fun hall => hall.1 rfl) (hlisted hlist)
      have hnone := hafter.unneeded (region h) hunneeded
      rw [freed_addresses, hmappings] at hnone
      exact absurd rfl (AddressSpace.mappedAt_rename_eq_nil.mp hnone _ hmem)

theorem gralloc_free_mapped [DecidableEq κ] {handle : Option HandleId} (hinv : s.MapInv region)
    (hr : s.process.gralloc_free handle connected = .ok r) :
    MapEffect region s (.gralloc_free handle connected) (⟨r.1, s.registered⟩, r.2) := by
  rcases Process.gralloc_free_cases hr with hrefused | ⟨h, cb, hgets, hconnects, rfl⟩
  · have hsame : SameHandles s ⟨r.1, s.registered⟩ := by
      rw [hrefused.unchanged]
      exact ⟨rfl, rfl, rfl, rfl, rfl, rfl⟩
    exact .of_same hinv hsame fun h cb hgets hconnects =>
      absurd hconnects (hrefused.refused h cb hgets)
  · have hboth : 0 < cb.ashmemSize →
        (s.FreesOwn h cb → (s.afterFree h cb).MapInv region) ∧
          ((s.afterFree h cb).Mapped region → s.FreesOwn h cb) := by
      intro hsize
      by_cases hneeds : s.Needs h
      · exact freed_needed hinv hgets.live hsize hneeds
      · exact freed_unneeded hinv hgets.getElem hsize hneeds
    constructor
    · intro hkeeps
      by_cases hsize : 0 < cb.ashmemSize
      · exact (hboth hsize).1 (hkeeps h cb hgets hconnects hsize)
      · have hmappings : s.process.freedMappings cb = s.process.mappings :=
          if_neg fun hall => hsize hall.2.1
        grind [mapInv_freed, hgets.getElem]
    · intro hafter h' cb' hgets' _ hsize
      grind [hgets.unique]

theorem sameHandles_openColorBuffer (s : Counted HandleId) (cb : cb_handle_t) :
    SameHandles s ⟨s.process.openColorBuffer cb, s.registered⟩ := by
  unfold Process.openColorBuffer
  split <;> exact ⟨rfl, rfl, rfl, rfl, rfl, rfl⟩

theorem sameHandles_closeColorBuffer (s : Counted HandleId) (cb : cb_handle_t) :
    SameHandles s ⟨s.process.closeColorBuffer cb, s.registered⟩ := by
  unfold Process.closeColorBuffer
  split <;> exact ⟨rfl, rfl, rfl, rfl, rfl, rfl⟩

theorem SameHandles.handle (hs : SameHandles s s') (h : HandleId) :
    s'.process.handle h = s.process.handle h := by
  rw [Process.handle, hs.handles, hs.deleted, Process.handle]

theorem MapEffect.of_refused [DecidableEq κ]
    {handle : Option HandleId}
    (hinv : s.MapInv region)
    (hrefused : s.process.Refused r handle connected) (hregistered : registered = s.registered)
    (hkeeps : s.KeepsMapped region c) : MapEffect region s c (⟨r.1, registered⟩, r.2) := by
  have heq : (⟨r.1, registered⟩ : Counted HandleId) = s := by
    rw [hrefused.unchanged, hregistered]
  rw [heq]
  exact .of_same hinv ⟨rfl, rfl, rfl, rfl, rfl, rfl⟩ hkeeps

theorem gralloc_register_buffer_mapped [DecidableEq κ] {handle : Option HandleId}
    (hinv : s.MapInv region)
    (hanswers : s.KernelAnswers (.gralloc_register_buffer handle connected mmap))
    (hr : s.process.gralloc_register_buffer handle connected mmap = .ok r) :
    MapEffect region s (.gralloc_register_buffer handle connected mmap)
      (⟨r.1, s.count handleKey handle r.2 1⟩, r.2) := by
  rcases Process.gralloc_register_buffer_cases hr with hrefused | ⟨h, cb, hgets, hconnects, hr⟩
  · exact .of_refused hinv hrefused (count_of_ne (Int.ne_of_lt hrefused.negative))
      fun h cb hgets hconnects => absurd hconnects (hrefused.refused h cb hgets)
  · have hopen := sameHandles_openColorBuffer s cb
    have hok := hinv.handles h
    have hcount : s.count handleKey handle 0 1 h = s.registered h + 1 := by
      rw [count_of_gets hgets, handleKey, if_pos rfl]
    have hothers : ∀ i, i ≠ h → s.count handleKey handle 0 1 i = s.registered i := by
      intro i hne
      rw [count_of_gets hgets, handleKey, if_neg (Ne.symm hne), Int.add_zero]
    rcases Process.registerMapping_cases hr.symm with
      ⟨rfl, hneedless⟩ | ⟨⟨hsize, hpid⟩, ⟨hsame, hpos, hnot⟩ | ⟨addr, haddr, hfd, rfl⟩⟩
    · rw [hopen.pid] at hneedless
      have hcounted : 0 < cb.ashmemSize → 0 < s.registered h := fun hsize =>
        (hok.counted cb hgets.live hsize).mpr (not_not.mp fun hne => hneedless ⟨hsize, hne⟩)
      constructor
      · intro _
        refine mapInv_count hinv hopen hgets.getElem (fun hsize => ?_) hothers
        grind
      · intro _ h' cb' hgets' _ hsize _
        obtain ⟨rfl, rfl⟩ := hgets'.unique hgets
        have hpos := hcounted hsize
        refine ⟨fun hlisted => ?_, Int.le_of_lt hpos, fun i hne hholds heq => ?_⟩
        · exact hok.listed cb hgets.live hsize hlisted ((hok.counted cb hgets.live hsize).mp hpos)
        · exact hne (hinv.alone i h hholds ⟨.inr hpos, cb, hgets.getElem, hsize⟩ heq)
    · rw [hsame, count_of_ne (Int.ne_of_gt hpos)]
      refine .of_same hinv hopen fun h' cb' hgets' _ _ hmaps => ?_
      grind [hopen.pid, hgets.unique]
    · rw [hopen.pid] at hpid
      obtain ⟨hpositive, hunused⟩ := hanswers h cb hgets addr haddr
      have heffect := registered_effect (hopen.mapInv hinv)
        ((hopen.handle h).trans hgets.live) hsize (hopen.pid.symm ▸ hpid) hpositive
        (hopen.mappings.symm ▸ hunused) hcount hothers
      have hsameAlone : RegistersAlone region ⟨s.process.openColorBuffer cb, s.registered⟩ h ↔
          s.RegistersAlone region h := by
        constructor <;> rintro ⟨hlist, hpos, hothers⟩
        · exact ⟨hopen.allocList ▸ hlist, hpos, fun i hne hholds =>
            hothers i hne ((hopen.symm.sameAt i).holds hholds)⟩
        · exact ⟨hopen.allocList.symm ▸ hlist, hpos, fun i hne hholds =>
            hothers i hne ((hopen.sameAt i).holds hholds)⟩
      rw [hsameAlone] at heffect
      constructor
      · intro hkeeps
        exact heffect.1 (hkeeps h cb hgets hconnects hsize fun _ => ⟨hfd, addr, haddr⟩)
      · intro hafter h' cb' hgets' _ _ _
        grind [hgets.unique]

theorem gralloc_unregister_buffer_mapped [DecidableEq κ] {handle : Option HandleId}
    (hinv : s.MapInv region)
    (hr : s.process.gralloc_unregister_buffer handle connected = .ok r) :
    MapEffect region s (.gralloc_unregister_buffer handle connected)
      (⟨r.1, s.count handleKey handle r.2 (-1)⟩, r.2) := by
  rcases Process.gralloc_unregister_buffer_cases hr with hrefused | ⟨h, cb, hgets, hconnects, rfl⟩
  · exact .of_refused hinv hrefused (count_of_ne (Int.ne_of_lt hrefused.negative))
      fun h cb hgets hconnects => absurd hconnects (hrefused.refused h cb hgets)
  · have hclose := sameHandles_closeColorBuffer s cb
    have hok := hinv.handles h
    have hcount : s.count handleKey handle 0 (-1) h = s.registered h + -1 := by
      rw [count_of_gets hgets, handleKey, if_pos rfl]
    have hothers : ∀ i, i ≠ h → s.count handleKey handle 0 (-1) i = s.registered i := by
      intro i hne
      rw [count_of_gets hgets, handleKey, if_neg (Ne.symm hne), Int.add_zero]
    by_cases hmapped : 0 < cb.ashmemSize ∧ cb.mappedPid = s.process.pid
    · obtain ⟨hsize, hpid⟩ := hmapped
      have heffect := unregistered_effect (hclose.mapInv hinv)
        ((hclose.handle h).trans hgets.live) hsize (hclose.pid.symm ▸ hpid) hcount hothers
      constructor
      · intro hkeeps
        exact heffect.1 (hkeeps h cb hgets hconnects hsize)
      · intro hafter h' cb' hgets' _ _
        grind [hgets.unique]
    · have hnothing : (s.process.closeColorBuffer cb).unregisterMapping h cb =
          s.process.closeColorBuffer cb := by grind [Process.unregisterMapping, hclose.pid]
      have hcounted : 0 < cb.ashmemSize → ¬0 < s.registered h := fun hsize hpos =>
        hmapped ⟨hsize, (hok.counted cb hgets.live hsize).mp hpos⟩
      rw [hnothing]
      constructor
      · intro _
        refine mapInv_count hinv hclose hgets.getElem (fun hsize => ?_) hothers
        grind
      · intro _ h' cb' hgets' _ hsize
        grind [hgets.unique]

/-- The next handle is not used. -/
theorem Space.next (hspace : s.Space) :
    s.process.handles.length ∉ s.process.allocList ∧
      s.registered s.process.handles.length = 0 ∧
      mappedAt s.process.mappings s.process.handles.length = [] := by
  refine ⟨fun hlisted => ?_, ?_, ?_⟩
  · exact Nat.lt_irrefl _ (hspace.used _ (.inl hlisted))
  · by_contra hcounted
    exact Nat.lt_irrefl _ (hspace.used _ (.inr hcounted))
  · grind [AddressSpace.mappedAt_eq_nil, hspace.regions]

def OwnRegion (s : Counted HandleId) (cb : cb_handle_t) (mapped : List Mapping) : Prop :=
  mapped = [] ∨ ∃ addr, mapped = [⟨addr, cb.ashmemSize.toNat, s.process.handles.length⟩] ∧
    0 < cb.ashmemSize ∧ Unused s.process.mappings addr cb.ashmemSize.toNat

/-- A handle is added, and the others are as they were. -/
theorem mapInv_append {p : Process} {mapped : List Mapping}
    (hinv : s.MapInv region)
    (hnew : NewHandle s.process p cb mapped) (hdeleted : s.process.deleted ⊆ p.deleted)
    (hlist : p.allocList = s.process.allocList ∨
      p.allocList = s.process.handles.length :: s.process.allocList)
    (hmapped : s.OwnRegion cb mapped)
    (hok : (⟨p, s.registered⟩ : Counted HandleId).HandleOk s.process.handles.length)
    (hholds : (⟨p, s.registered⟩ : Counted HandleId).Needs s.process.handles.length →
      s.Fresh region) : (⟨p, s.registered⟩ : Counted HandleId).MapInv region := by
  obtain ⟨hnext, -, -⟩ := hinv.space.next
  have hmem : ∀ i, i ≠ s.process.handles.length →
      (i ∈ p.allocList ↔ i ∈ s.process.allocList) := by grind
  have hold : ∀ (i : HandleId) (cb : cb_handle_t), s.process.handles[i]? = some cb →
      p.handles[i]? = some cb := by grind [hnew.handles]
  have hothers : ∀ i, i ≠ s.process.handles.length →
      mappedAt p.mappings i = mappedAt s.process.mappings i := by
    intro i hne
    rw [hnew.mappings]
    rcases hmapped with rfl | ⟨addr, rfl, -, -⟩
    · rfl
    · exact (AddressSpace.mappedAt_cons _ _ _).trans (if_neg (Ne.symm hne))
  have hat : ∀ i, i ≠ s.process.handles.length → SameAt s ⟨p, s.registered⟩ i := by
    intro i hne
    refine ⟨fun cb' hcb' => ⟨cb', ?_, .refl cb'⟩, fun hi => hdeleted hi, hmem i hne, rfl,
      hothers i hne⟩
    grind [hnew.handles]
  refine ⟨⟨?_, fun i hi => ?_, ?_, ?_, fun m hm => ?_⟩, fun i => ?_,
    hinv.alone.of_others (fun j hne => (hat j hne).holds) fun hnewHolds => .inr ?_⟩
  · dsimp only
    rw [hnew.pid]
    exact hinv.space.pid
  · dsimp only
    rw [hnew.handles, List.length_append, List.length_singleton]
    by_cases heq : i = s.process.handles.length
    · simp [heq]
    · exact Nat.lt_succ_of_lt (hinv.space.used i (hi.imp (hmem i heq).mp id))
  · grind [hinv.space.nodup]
  · dsimp only
    rw [hnew.mappings]
    rcases hmapped with rfl | ⟨addr, rfl, -, hunused⟩
    · exact hinv.space.separate
    · exact hinv.space.separate.cons hunused
  · have hregion : m ∈ mapped ∨ m ∈ s.process.mappings := by
      rw [← List.mem_append, ← hnew.mappings]
      exact hm
    rcases hregion with hmem | hmem
    · rcases hmapped with rfl | ⟨addr, rfl, hpos, -⟩
      · cases hmem
      · grind [hnew.handles, List.getElem?_concat_length]
    · grind [hinv.space.regions]
  · by_cases heq : i = s.process.handles.length
    · rw [heq]
      exact hok
    · exact (hat i heq).handleOk hnew.pid (hinv.handles i)
  · rintro j - ⟨-, cb', hcb', -⟩
    exact hholds hnewHolds.1 j (List.getElem?_eq_some_iff.mp hcb').1

/-- The new handle of a `gralloc_alloc` that has failed is not mapped. -/
theorem mapInv_discarded {p : Process} (hinv : s.MapInv region)
    (hnew : NewHandle s.process p cb []) (hdiscarded : Process.Discarded s.process p) :
    (⟨p, s.registered⟩ : Counted HandleId).MapInv region := by
  obtain ⟨hlisted, hcounted, hunmapped⟩ := hinv.space.next
  have hunneeded : ¬(⟨p, s.registered⟩ : Counted HandleId).Needs s.process.handles.length := by
    rintro (hlist | hpos)
    · grind [hdiscarded.allocList]
    · exact absurd hcounted (Int.ne_of_gt hpos)
  have hdead : ∀ {q : Prop} (cb' : cb_handle_t),
      p.handle s.process.handles.length = .ok cb' → q := by
    simp [hdiscarded.deleted, Process.handle_ok]
  refine mapInv_append hinv hnew (fun i hi => ?_) (.inl hdiscarded.allocList) (.inl rfl)
    ⟨fun cb' _ _ => ?_, fun cb' hcb' => hdead cb' hcb', fun cb' hcb' => hdead cb' hcb',
      fun cb' hcb' => hdead cb' hcb', fun cb' hcb' => hdead cb' hcb'⟩
    fun hneeds => absurd hneeds hunneeded
  · grind [hdiscarded.deleted]
  · grind [hnew.mappings]

/-- The new handle of a `gralloc_alloc` is mapped if it has a region. -/
theorem mapInv_allocDone {size : Int}
    {host : Option UInt32} {mapped : List Mapping} (hinv : s.MapInv region)
    (hfresh : s.Fresh region)
    (hdone : Process.AllocDone s.process r size mmap host cb mapped)
    (hanswers : ∀ addr, mmap = .ok addr → 0 < addr ∧ Unused s.process.mappings addr size.toNat) :
    (⟨r.1, s.registered⟩ : Counted HandleId).MapInv region := by
  obtain ⟨hlisted, hcounted, hunmapped⟩ := hinv.space.next
  have hget : r.1.handles[s.process.handles.length]? = some cb := by
    rw [hdone.new.handles, List.getElem?_concat_length]
  have hneeds : (⟨r.1, s.registered⟩ : Counted HandleId).Needs s.process.handles.length := by
    refine .inl ?_
    grind [hdone.kept.allocList]
  have hpid : cb.mappedPid ≠ r.1.pid := by
    rw [hdone.mappedPid, hdone.new.pid]
    exact Int.ne_of_lt hinv.space.pid
  have hregion : 0 < cb.ashmemSize → ∃ addr, mmap = .ok addr ∧
      mapped = [⟨addr, cb.ashmemSize.toNat, s.process.handles.length⟩] ∧
      cb.ashmemBase = addr ∧ cb.ashmemBasePid = s.process.pid := by
    intro hsize
    rcases hdone.maps with ⟨-, hnone⟩ | ⟨addr, haddr, hmapped, -, hbase, hbasePid⟩
    · omega
    · exact ⟨addr, haddr, hmapped, hbase, hbasePid⟩
  have hown : s.OwnRegion cb mapped := by
    rcases hdone.maps with ⟨hnil, -⟩ | ⟨addr, haddr, hmapped, hsize, -⟩
    · exact .inl hnil
    · refine .inr ⟨addr, hmapped, hsize, ?_⟩
      rw [hdone.ashmemSize]
      exact (hanswers addr haddr).2
  refine mapInv_append hinv hdone.new (fun i hi => ?_) (.inr hdone.kept.allocList) hown
    ⟨?_, ?_, ?_, ?_, ?_⟩ fun _ => hfresh
  · rw [hdone.kept.deleted]
    exact hi
  · grind [hdone.new.mappings]
  · grind [hdone.mappedPid]
  · grind [hdone.new.pid]
  · grind
  · intro cb' hcb' _ _
    cases hget.symm.trans (Process.handle_ok.mp hcb').1
    exact hpid

theorem gralloc_alloc_mapped [DecidableEq κ] {args : Bool} {w h format : Int} {usage : Usage}
    {ashmem : Except Errno Nat} {host : Option UInt32} (hinv : s.MapInv region)
    (hfresh : s.Fresh region)
    (hanswers : s.KernelAnswers (.gralloc_alloc args w h format usage ashmem mmap host)) :
    MapEffect region s (.gralloc_alloc args w h format usage ashmem mmap host)
      (⟨(s.process.gralloc_alloc args w h format usage ashmem mmap host).1, s.registered⟩,
        (s.process.gralloc_alloc args w h format usage ashmem mmap host).2) := by
  obtain ⟨hfd, hmmap⟩ := hanswers
  rcases Process.gralloc_alloc_cases hfd rfl with
    ⟨hfails, hnot⟩ | ⟨hleaks, hyes⟩ | ⟨hnot, cb, mapped, hdone⟩
  · rcases hfails.undone with heq | ⟨cb, hnew, hdiscarded⟩
    · rw [heq]
      exact .of_same hinv ⟨rfl, rfl, rfl, rfl, rfl, rfl⟩ hnot
    · exact ⟨fun _ => mapInv_discarded hinv hnew hdiscarded, fun _ => hnot⟩
  · refine ⟨fun hkeeps => absurd hyes hkeeps, fun hafter => ?_⟩
    obtain ⟨cb, addr, hsize, hnew, hdiscarded⟩ := hleaks.leaked
    obtain ⟨hlisted, hcounted, hunmapped⟩ := hinv.space.next
    -- the region is new, mapped, and needed through no handle
    have hunneeded : ∀ i, Holds ⟨(s.process.gralloc_alloc args w h format usage ashmem mmap host).1,
        s.registered⟩ i → region i ≠ region s.process.handles.length := by
      rintro i ⟨hneeds, -⟩
      have hbefore : i ∈ s.process.allocList ∨ s.registered i ≠ 0 := by
        rw [Needs, hdiscarded.allocList] at hneeds
        exact hneeds.imp_right Int.ne_of_gt
      exact hfresh i (hinv.space.used i hbefore)
    have hnone := hafter.unneeded _ hunneeded
    rw [addresses] at hnone
    dsimp only at hnone
    rw [hnew.mappings, AddressSpace.mappedAt_rename_eq_nil] at hnone
    exact absurd rfl (hnone _ List.mem_cons_self)
  · exact ⟨fun _ => mapInv_allocDone hinv hfresh hdone hmmap, fun _ => hnot⟩

theorem MapEffect.of_locksOnly [DecidableEq κ]
    (hinv : s.MapInv region) (hr : s.process.LocksOnly r.1) (hkeeps : s.KeepsMapped region c) :
    MapEffect region s c (⟨r.1, s.registered⟩, r.2) := by
  have hget : ∀ {i : HandleId} {cb' : cb_handle_t}, r.1.handles[i]? = some cb' →
      ∃ cb, s.process.handles[i]? = some cb ∧ SameRegion cb cb' := by
    intro i cb' hcb'
    have hmap := congrArg (·[i]?) hr.handles
    simp only [List.getElem?_map, hcb', Option.map_some] at hmap
    obtain ⟨cb, hcb, heq⟩ := Option.map_eq_some_iff.mp hmap.symm
    refine ⟨cb, hcb, ?_⟩
    exact ⟨(congrArg cb_handle_t.ashmemSize heq).symm, (congrArg cb_handle_t.ashmemBase heq).symm,
      (congrArg cb_handle_t.ashmemBasePid heq).symm, (congrArg cb_handle_t.mappedPid heq).symm⟩
  have hlength : r.1.handles.length = s.process.handles.length := by
    have hmap := congrArg List.length hr.handles
    rwa [List.length_map, List.length_map] at hmap
  have hat : ∀ i, SameAt s ⟨r.1, s.registered⟩ i := by
    intro i
    refine ⟨fun cb' hcb' => hget hcb', fun hdeleted => hr.deleted.symm ▸ hdeleted, ?_, rfl, ?_⟩
    · dsimp only
      rw [hr.allocList]
    · dsimp only
      rw [hr.mappings]
  refine ⟨fun _ => ⟨⟨?_, fun i hi => ?_, ?_, ?_, fun m hm => ?_⟩,
    fun i => (hat i).handleOk hr.pid (hinv.handles i),
    fun i j hi hj => hinv.alone i j ((hat i).holds hi) ((hat j).holds hj)⟩, fun _ => hkeeps⟩
  · dsimp only
    rw [hr.pid]
    exact hinv.space.pid
  · dsimp only at hi ⊢
    rw [hlength]
    rw [hr.allocList] at hi
    exact hinv.space.used i hi
  · dsimp only
    rw [hr.allocList]
    exact hinv.space.nodup
  · dsimp only
    rw [hr.mappings]
    exact hinv.space.separate
  · dsimp only at hm ⊢
    rw [hr.mappings] at hm
    obtain ⟨cb, hcb, hpos, hsize⟩ := hinv.space.regions m hm
    have hlt := (List.getElem?_eq_some_iff.mp hcb).1
    obtain ⟨cb', hcb'⟩ : ∃ cb', r.1.handles[m.region]? = some cb' :=
      ⟨_, List.getElem?_eq_getElem (hlength ▸ hlt)⟩
    obtain ⟨cb₀, hcb₀, hsame⟩ := hget hcb'
    grind [hsame.ashmemSize]

/-- The effect of a call where the regions that are needed are mapped. -/
theorem call_mapped [DecidableEq κ] {r : Counted HandleId × Int}
    (hinv : s.MapInv region) (hfresh : s.Fresh region) (hanswers : s.KernelAnswers c)
    (hr : s.call handleKey c = .ok r) : MapEffect region s c r := by
  obtain ⟨result, hcall, rfl⟩ := Run.map_eq_ok.mp hr
  cases c with
  | gralloc_alloc args w h format usage ashmem mmap host =>
      cases hcall
      exact gralloc_alloc_mapped hinv hfresh hanswers
  | gralloc_free handle connected => exact gralloc_free_mapped hinv hcall
  | gralloc_register_buffer handle connected mmap =>
      exact gralloc_register_buffer_mapped hinv hanswers hcall
  | gralloc_unregister_buffer handle connected =>
      exact gralloc_unregister_buffer_mapped hinv hcall
  | gralloc_lock handle usage left top width height host =>
      exact .of_locksOnly hinv (Process.gralloc_lock_locksOnly hcall).1 trivial
  | gralloc_unlock handle connected =>
      exact .of_locksOnly hinv (Process.gralloc_unlock_locksOnly hcall).1 trivial

theorem length_handles_modifyHandle (p : Process) (h : HandleId) (f : cb_handle_t → cb_handle_t) :
    (p.modifyHandle h f).handles.length = p.handles.length :=
  List.length_modify f p.handles h

/-- A process keeps its number and the numbers of its handles. -/
theorem call_kept {r : Counted HandleId × Int} (hanswers : s.KernelAnswers c)
    (hr : s.call handleKey c = .ok r) : r.1.process.pid = s.process.pid ∧
      s.process.handles.length ≤ r.1.process.handles.length := by
  obtain ⟨result, hcall, rfl⟩ := Run.map_eq_ok.mp hr
  dsimp only
  have hnewHandle : ∀ {p cb mapped}, NewHandle s.process p cb mapped →
      p.pid = s.process.pid ∧ s.process.handles.length ≤ p.handles.length := by
    intro p cb mapped hnew
    refine ⟨hnew.pid, ?_⟩
    rw [hnew.handles, List.length_append]
    exact Nat.le_add_right _ _
  have hlocks : s.process.LocksOnly result.1 →
      result.1.pid = s.process.pid ∧ s.process.handles.length ≤ result.1.handles.length := by
    intro hr
    have hmap := congrArg List.length hr.handles
    rw [List.length_map, List.length_map] at hmap
    exact ⟨hr.pid, Nat.le_of_eq hmap.symm⟩
  cases c with
  | gralloc_alloc args w h format usage ashmem mmap host =>
      cases hcall
      rcases Process.gralloc_alloc_cases hanswers.1 rfl with
        ⟨hfails, -⟩ | ⟨hleaks, -⟩ | ⟨-, cb, mapped, hdone⟩
      · rcases hfails.undone with heq | ⟨cb, hnew, -⟩
        · rw [heq]
          exact ⟨rfl, Nat.le_refl _⟩
        · exact hnewHandle hnew
      · obtain ⟨cb, addr, -, hnew, -⟩ := hleaks.leaked
        exact hnewHandle hnew
      · exact hnewHandle hdone.new
  | gralloc_free handle connected =>
      rcases Process.gralloc_free_cases hcall with hrefused | ⟨h, cb, -, -, rfl⟩
      · rw [hrefused.unchanged]
        exact ⟨rfl, Nat.le_refl _⟩
      · obtain ⟨fds, hfreed⟩ := s.process.freed_eq h cb
        rw [hfreed]
        exact ⟨rfl, Nat.le_refl _⟩
  | gralloc_register_buffer handle connected mmap =>
      rcases Process.gralloc_register_buffer_cases hcall with hrefused | ⟨h, cb, -, -, hr⟩
      · rw [hrefused.unchanged]
        exact ⟨rfl, Nat.le_refl _⟩
      · have hopen := sameHandles_openColorBuffer s cb
        have hlength := Nat.le_of_eq (congrArg List.length hopen.handles).symm
        rcases Process.registerMapping_cases hr.symm with
          ⟨rfl, -⟩ | ⟨-, ⟨hsame, -⟩ | ⟨addr, -, -, rfl⟩⟩
        · exact ⟨hopen.pid, hlength⟩
        · rw [hsame]
          exact ⟨hopen.pid, hlength⟩
        · refine ⟨hopen.pid, ?_⟩
          rw [Process.registered_eq]
          exact Nat.le_trans hlength (Nat.le_of_eq (length_handles_modifyHandle _ _ _).symm)
  | gralloc_unregister_buffer handle connected =>
      rcases Process.gralloc_unregister_buffer_cases hcall with hrefused | ⟨h, cb, -, -, rfl⟩
      · rw [hrefused.unchanged]
        exact ⟨rfl, Nat.le_refl _⟩
      · have hclose := sameHandles_closeColorBuffer s cb
        have hlength := Nat.le_of_eq (congrArg List.length hclose.handles).symm
        unfold Process.unregisterMapping
        split
        · refine ⟨hclose.pid, ?_⟩
          rw [length_handles_modifyHandle]
          exact hlength
        · exact ⟨hclose.pid, hlength⟩
  | gralloc_lock handle usage left top width height host =>
      exact hlocks (Process.gralloc_lock_locksOnly hcall).1
  | gralloc_unlock handle connected => exact hlocks (Process.gralloc_unlock_locksOnly hcall).1

theorem length_handles_receive (p : Process) (cb : cb_handle_t) (fd : Nat) :
    (p.receive cb fd).handles.length = p.handles.length + 1 := by
  unfold Process.receive
  split <;> exact List.length_append

theorem receive_mapped (hinv : s.MapInv region) (fd : Nat)
    (hnamed : cb.mappedPid ≠ 0 → cb.ashmemBasePid = cb.mappedPid ∧ cb.ashmemBase ≠ 0)
    (hstale : 0 < cb.ashmemSize → ¬(cb.ashmemBasePid = s.process.pid ∧ cb.ashmemBase ≠ 0)) :
    (⟨s.process.receive cb fd, s.registered⟩ : Counted HandleId).MapInv region := by
  obtain ⟨hlisted, hcounted, hunmapped⟩ := hinv.space.next
  have hreceive : ∃ cb', SameRegion cb cb' ∧ NewHandle s.process (s.process.receive cb fd) cb' [] ∧
      (s.process.receive cb fd).deleted = s.process.deleted ∧
      (s.process.receive cb fd).allocList = s.process.allocList := by
    unfold Process.receive
    split
    · exact ⟨{ cb with fd := fd }, ⟨rfl, rfl, rfl, rfl⟩, ⟨rfl, rfl, rfl⟩, rfl, rfl⟩
    · exact ⟨cb, .refl cb, ⟨rfl, rfl, rfl⟩, rfl, rfl⟩
  obtain ⟨cb', hsame, hnew, hdeleted, hlist⟩ := hreceive
  have hget : (s.process.receive cb fd).handles[s.process.handles.length]? = some cb' := by
    rw [hnew.handles, List.getElem?_concat_length]
  have hunlisted : s.process.handles.length ∉ (s.process.receive cb fd).allocList := by
    rw [hlist]
    exact hlisted
  have hunneeded : ¬(⟨s.process.receive cb fd, s.registered⟩ : Counted HandleId).Needs
      s.process.handles.length := by
    rintro (hlist | hpos)
    · exact hunlisted hlist
    · exact absurd hcounted (Int.ne_of_gt hpos)
  rw [← hsame.mappedPid, ← hsame.ashmemBasePid, ← hsame.ashmemBase] at hnamed
  rw [← hsame.ashmemSize, ← hsame.ashmemBasePid, ← hsame.ashmemBase, ← hnew.pid] at hstale
  refine mapInv_append hinv hnew (fun i hi => hdeleted.symm ▸ hi) (.inl hlist) (.inl rfl)
    ⟨?_, ?_, ?_, ?_, ?_⟩ fun hneeds => absurd hneeds hunneeded
  · grind [hnew.mappings]
  · grind
  · grind
  · grind [hnew.pid, hinv.space.pid]
  · grind

end Counted

end AndroidRenderer.Gralloc
