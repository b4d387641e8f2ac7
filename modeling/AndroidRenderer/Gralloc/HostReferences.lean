import AndroidRenderer.Gralloc.Calls

/-!
# References to color buffers on the host

A process holds a reference to a color buffer for the allocation and for each registration of
its handle. What it sends to the host agrees with this, and a call that fails changes nothing,
but for two paths: a `gralloc_alloc` whose color buffer is not made leaves the region mapped, and
a `gralloc_register_buffer` whose region cannot be mapped has opened the color buffer and returns
a positive error. A buffer that has not been allocated by the process and is freed by it takes a
reference away, too.
-/

namespace AndroidRenderer.Gralloc

namespace Process

variable {p p' : Process}

/-- Whether the process has allocated a buffer with the color buffer and not freed it. -/
def allocated (p : Process) (H : UInt32) : Bool :=
  p.allocList.any fun h => p.handles[h]?.any fun cb => cb.hostHandle = H

theorem allocated_iff {H : UInt32} :
    p.allocated H = true ↔
      ∃ h ∈ p.allocList, ∃ cb, p.handles[h]? = some cb ∧ cb.hostHandle = H := by
  unfold allocated
  simp [List.any_eq_true, Option.any_eq_true]

/-- The allocated list has existing handles, each once and each with a color buffer of its own. -/
structure Listed (p : Process) : Prop where
  lt : ∀ h ∈ p.allocList, h < p.handles.length
  nodup : p.allocList.Nodup
  unique : ∀ h ∈ p.allocList, ∀ h' ∈ p.allocList, ∀ cb cb', p.handles[h]? = some cb →
    p.handles[h']? = some cb' → cb.hostHandle = cb'.hostHandle → cb.hostHandle ≠ 0 → h = h'

/-! ## Calls that leave the list -/

/-- The handles on the list have the color buffers they had. -/
structure SameHosts (p p' : Process) : Prop where
  allocList : p'.allocList = p.allocList
  handles : ∀ h ∈ p.allocList,
    (p'.handles[h]?).map cb_handle_t.hostHandle = (p.handles[h]?).map cb_handle_t.hostHandle

theorem SameHosts.getElem? (hs : SameHosts p p') {h : HandleId} (hmem : h ∈ p.allocList)
    {cb' : cb_handle_t} (hcb' : p'.handles[h]? = some cb') :
    ∃ cb, p.handles[h]? = some cb ∧ cb.hostHandle = cb'.hostHandle := by
  have hhost := hs.handles h hmem
  grind

theorem SameHosts.allocated (hs : SameHosts p p') (H : UInt32) :
    p'.allocated H = p.allocated H := by
  apply Bool.eq_iff_iff.mpr
  rw [allocated_iff, allocated_iff, hs.allocList]
  apply exists_congr
  intro h
  apply and_congr_right
  intro hmem
  constructor
  · rintro ⟨cb', hcb', rfl⟩
    exact hs.getElem? hmem hcb'
  · rintro ⟨cb, hcb, rfl⟩
    have hhost := hs.handles h hmem
    grind

theorem SameHosts.listed (hs : SameHosts p p') (hl : p.Listed) : p'.Listed := by
  constructor
  · intro h hmem
    rw [hs.allocList] at hmem
    have hhost := hs.handles h hmem
    grind [hl.lt]
  · rw [hs.allocList]
    exact hl.nodup
  · intro h hmem h' hmem' cb cb' hcb hcb' heq hne
    rw [hs.allocList] at hmem hmem'
    obtain ⟨before, hbefore, hhost⟩ := hs.getElem? hmem hcb
    obtain ⟨before', hbefore', hhost'⟩ := hs.getElem? hmem' hcb'
    grind [hl.unique]

theorem SameHosts.refl (p : Process) : SameHosts p p := ⟨rfl, fun _ _ => rfl⟩

theorem SameHosts.trans {p'' : Process} (h : SameHosts p p') (h' : SameHosts p' p'') :
    SameHosts p p'' :=
  ⟨h'.allocList.trans h.allocList, fun i hi =>
    (h'.handles i (h.allocList.symm ▸ hi)).trans (h.handles i hi)⟩

/-- Handles keep their color buffers when they are changed elsewhere. -/
theorem SameHosts.modifyHandle {f : cb_handle_t → cb_handle_t}
    (hf : ∀ cb, (f cb).hostHandle = cb.hostHandle) (h : HandleId) :
    SameHosts p (p.modifyHandle h f) := by
  refine ⟨rfl, fun i _ => ?_⟩
  rw [modifyHandle_getElem?, Option.map_map]
  grind

variable {cb : cb_handle_t} {mapped : List Mapping}

theorem SameHosts.append (hl : p.Listed)
    (hhandles : p'.handles = p.handles ++ [cb]) (hlist : p'.allocList = p.allocList) :
    SameHosts p p' := by
  refine ⟨hlist, fun h hmem => ?_⟩
  rw [hhandles, List.getElem?_append_left (hl.lt h hmem)]

theorem SameHosts.of_locksOnly (h : LocksOnly p p') : SameHosts p p' := by
  refine ⟨h.allocList, fun i _ => ?_⟩
  have hhost : ∀ handles : List cb_handle_t, (handles[i]?).map cb_handle_t.hostHandle =
      ((handles.map unlocked)[i]?).map cb_handle_t.hostHandle := by
    intro handles
    rw [List.getElem?_map, Option.map_map]
    rfl
  rw [hhost, h.handles, ← hhost]

/-! ## Calls that change the list -/

theorem NewHandle.getElem? (hnew : NewHandle p p' cb mapped) (hl : p.Listed) :
    (∀ h ∈ p.allocList, p'.handles[h]? = p.handles[h]?) ∧
      p'.handles[p.handles.length]? = some cb := by
  rw [hnew.handles]
  exact ⟨fun h hmem => List.getElem?_append_left (hl.lt h hmem), List.getElem?_concat_length⟩

/-- A handle is put on the list, with a color buffer that no other handle there has. -/
theorem Kept.listed (hl : p.Listed)
    (hnew : NewHandle p p' cb mapped) (hkept : Kept p p' cb)
    (hhost : cb.hostHandle ≠ 0 → p.allocated cb.hostHandle = false) : p'.Listed := by
  obtain ⟨hold, hlast⟩ := hnew.getElem? hl
  have hother : ∀ h ∈ p.allocList, ∀ cb', p'.handles[h]? = some cb' →
      cb.hostHandle ≠ 0 → cb'.hostHandle ≠ cb.hostHandle := by grind [allocated_iff]
  constructor
  · grind [hkept.allocList, hl.lt]
  · rw [hkept.allocList, List.nodup_cons]
    exact ⟨fun hmem => Nat.lt_irrefl _ (hl.lt _ hmem), hl.nodup⟩
  · intro h hmem h' hmem' cb₁ cb₂ hcb₁ hcb₂ heq hne
    rw [hkept.allocList] at hmem hmem'
    rcases List.mem_cons.mp hmem with rfl | hmem <;> rcases List.mem_cons.mp hmem' with rfl | hmem'
    · rfl
    · rw [hlast] at hcb₁
      cases hcb₁
      exact absurd heq.symm (hother h' hmem' cb₂ hcb₂ hne)
    · grind
    · grind [hl.unique]

theorem Kept.allocated (hl : p.Listed)
    (hnew : NewHandle p p' cb mapped) (hkept : Kept p p' cb) (H : UInt32) :
    p'.allocated H = (decide (cb.hostHandle = H) || p.allocated H) := by
  obtain ⟨hold, hlast⟩ := hnew.getElem? hl
  apply Bool.eq_iff_iff.mpr
  rw [Bool.or_eq_true, decide_eq_true_eq, allocated_iff, allocated_iff, hkept.allocList]
  grind

/-- The state after a handle has been taken off the list, where it was there. -/
structure Unlisted (p p' : Process) (h : HandleId) : Prop where
  allocList : p'.allocList = p.allocList.erase h
  handles : p'.handles = p.handles

theorem Unlisted.listed {h : HandleId} (hu : Unlisted p p' h) (hl : p.Listed) : p'.Listed := by
  have hmem : ∀ i ∈ p'.allocList, i ∈ p.allocList := by grind [hu.allocList]
  constructor
  · intro i hi
    rw [hu.handles]
    exact hl.lt i (hmem i hi)
  · rw [hu.allocList]
    exact hl.nodup.erase h
  · grind [hu.handles, hl.unique]

/-- A color buffer whose handle is taken off the list is no longer allocated. -/
theorem Unlisted.allocated {h : HandleId} (hu : Unlisted p p' h) (hl : p.Listed)
    (hcb : p.handles[h]? = some cb) {H : UInt32} (hH : H ≠ 0) :
    p'.allocated H = (p.allocated H && !(decide (h ∈ p.allocList ∧ cb.hostHandle = H))) := by
  apply Bool.eq_iff_iff.mpr
  rw [Bool.and_eq_true, allocated_iff, allocated_iff, hu.allocList, hu.handles, Bool.not_eq_true',
    decide_eq_false_iff_not]
  constructor
  · grind [hl.nodup.mem_erase_iff, hl.unique]
  · grind

/-! ## What is sent -/

theorem references_openColorBuffer (p : Process) (cb : cb_handle_t) {H : UInt32} (hH : H ≠ 0) :
    (p.openColorBuffer cb).references H =
      p.references H + if cb.hostHandle = H then 1 else 0 := by
  unfold openColorBuffer
  split
  · grind
  · rw [references_send]
    rfl

theorem references_closeColorBuffer (p : Process) (cb : cb_handle_t) {H : UInt32} (hH : H ≠ 0) :
    (p.closeColorBuffer cb).references H =
      p.references H + if cb.hostHandle = H then -1 else 0 := by
  unfold closeColorBuffer
  split
  · grind
  · rw [references_send]
    rfl

end Process

/-- Registrations are counted for color buffers. -/
def hostKey : HandleId → cb_handle_t → UInt32 := fun _ cb => cb.hostHandle

namespace Counted

variable {s s' : Counted UInt32}

/-- The references sent for a color buffer are one for the allocation and one for each registration
that has not been taken back. -/
def Balanced (s : Counted UInt32) : Prop :=
  ∀ H, H ≠ 0 → s.process.references H = (if s.process.allocated H then 1 else 0) + s.registered H

/-- References, mappings, descriptors and the allocated list are what they were. -/
structure Undone (s s' : Counted UInt32) : Prop where
  references : ∀ H, H ≠ 0 → s'.process.references H = s.process.references H
  mappings : s'.process.mappings = s.process.mappings
  fds : s'.process.fds = s.process.fds
  allocList : s'.process.allocList = s.process.allocList

/-- The references are right, and a call that has failed has changed nothing. -/
def Atomic (s : Counted UInt32) (r : Counted UInt32 × Int) : Prop :=
  r.1.Balanced ∧ (r.2 ≠ 0 → r.2 < 0 ∧ Undone s r.1)

/-- What the kernel and the host promise of their answers: a new descriptor is not open, and a
new color buffer is not one that the process has allocated. -/
def Answers (s : Counted UInt32) : Process.Call → Prop
  | .gralloc_alloc _ _ _ _ _ ashmem _ host =>
      (∀ fd, ashmem = .ok fd → fd ∉ s.process.fds) ∧
        ∀ H, H ≠ 0 → host = some H → s.process.allocated H = false
  | _ => True

/-- The calls that keep the references right and fail without a trace. -/
def KeepsReferences (s : Counted UInt32) : Process.Call → Prop
  | .gralloc_alloc args w h format usage ashmem mmap host =>
      ¬Process.LeaksMapping args w h format usage ashmem mmap host
  | .gralloc_free handle connected => ∀ h cb, s.process.Gets handle h cb →
      cb.hostHandle ≠ 0 → connected = true → h ∈ s.process.allocList
  | .gralloc_register_buffer handle connected mmap => ∀ h cb, s.process.Gets handle h cb →
      Process.Connects cb connected → 0 < cb.ashmemSize ∧ cb.mappedPid ≠ s.process.pid →
      0 ≤ cb.fd ∧ ∃ addr, mmap = .ok addr
  | _ => True

/-! ## Effects of calls -/

/-- The list stays well formed, and the call is atomic where it meets the condition. -/
structure Effect (s : Counted UInt32) (c : Process.Call) (r : Counted UInt32 × Int) : Prop where
  listed : r.1.process.Listed
  atomic_iff : s.Atomic r ↔ s.KeepsReferences c

theorem Undone.refl (s : Counted UInt32) : Undone s s := ⟨fun _ _ => rfl, rfl, rfl, rfl⟩

/-- References and counts that are the same are right as before. -/
theorem Balanced.of_same (hb : s.Balanced) (hosts : s.process.SameHosts s'.process)
    (hreferences : ∀ H, H ≠ 0 → s'.process.references H = s.process.references H)
    (hregistered : s'.registered = s.registered) : s'.Balanced := by
  intro H hH
  rw [hreferences H hH, hosts.allocated, hregistered]
  exact hb H hH

variable {c : Process.Call} {r : Process × Int} {handle : Option HandleId} {connected : Bool}

/-- A call that changes no reference, and nothing at all when it fails. -/
theorem Effect.of_undone {r : Counted UInt32 × Int} (hl : s.process.Listed)
    (hb : s.Balanced) (hosts : s.process.SameHosts r.1.process) (hundone : Undone s r.1)
    (hregistered : r.1.registered = s.registered) (hneg : r.2 ≠ 0 → r.2 < 0)
    (hkeeps : s.KeepsReferences c) : Effect s c r :=
  ⟨hosts.listed hl, iff_of_true ⟨hb.of_same hosts hundone.references hregistered, fun hne =>
    ⟨hneg hne, hundone⟩⟩ hkeeps⟩

theorem gralloc_alloc_effect {args : Bool} {w h format : Int} {usage : Usage}
    {ashmem mmap : Except Errno Nat} {host : Option UInt32} (hl : s.process.Listed)
    (hb : s.Balanced)
    (hanswers : s.Answers (.gralloc_alloc args w h format usage ashmem mmap host)) :
    Effect s (.gralloc_alloc args w h format usage ashmem mmap host)
      (⟨(s.process.gralloc_alloc args w h format usage ashmem mmap host).1, s.registered⟩,
        (s.process.gralloc_alloc args w h format usage ashmem mmap host).2) := by
  obtain ⟨hfd, hhost⟩ := hanswers
  rcases Process.gralloc_alloc_cases hfd rfl with
    ⟨hfails, hnot⟩ | ⟨hleaks, hyes⟩ | ⟨hnot, cb, mapped, hdone⟩
  · rcases hfails.undone with heq | ⟨cb, hnew, hdiscarded⟩
    · rw [heq]
      exact .of_undone hl hb (.refl _) (.refl s) rfl (fun _ => hfails.negative) hnot
    · refine .of_undone hl hb (.append hl hnew.handles hdiscarded.allocList)
        ⟨hdiscarded.references, hnew.mappings, hdiscarded.fds, hdiscarded.allocList⟩ rfl
        (fun _ => hfails.negative) hnot
  · obtain ⟨cb, addr, -, hnew, hdiscarded⟩ := hleaks.leaked
    have hosts := Process.SameHosts.append hl hnew.handles hdiscarded.allocList
    refine ⟨hosts.listed hl, iff_of_false ?_ fun hkeeps => hkeeps hyes⟩
    rintro ⟨-, hundone⟩
    have hmappings := (hundone (Int.ne_of_lt hleaks.negative)).2.mappings
    rw [hnew.mappings] at hmappings
    exact absurd (congrArg List.length hmappings) (by simp)
  · have hfree : cb.hostHandle ≠ 0 → s.process.allocated cb.hostHandle = false := fun hne =>
      hhost _ hne (hdone.host hne)
    refine ⟨hdone.kept.listed hl hdone.new hfree, iff_of_true ⟨fun H hH => ?_, fun hne =>
      absurd hdone.zero hne⟩ hnot⟩
    dsimp only
    rw [hdone.kept.references H hH, hdone.kept.allocated hl hdone.new, hb H hH]
    grind

theorem Effect.of_refused {registered : UInt32 → Int} (hl : s.process.Listed) (hb : s.Balanced)
    (hrefused : s.process.Refused r handle connected) (hregistered : registered = s.registered)
    (hkeeps : s.KeepsReferences c) : Effect s c (⟨r.1, registered⟩, r.2) := by
  have heq : (⟨r.1, registered⟩ : Counted UInt32) = s := by
    rw [hrefused.unchanged, hregistered]
  rw [heq]
  exact .of_undone hl hb (.refl _) (.refl s) rfl (fun _ => hrefused.negative) hkeeps

theorem gralloc_free_effect (hl : s.process.Listed) (hb : s.Balanced)
    (hr : s.process.gralloc_free handle connected = .ok r) :
    Effect s (.gralloc_free handle connected) (⟨r.1, s.registered⟩, r.2) := by
  rcases Process.gralloc_free_cases hr with hrefused | ⟨h, cb, hgets, hconnects, rfl⟩
  · refine .of_refused hl hb hrefused rfl fun h cb hgets _ hconnected => ?_
    exact absurd (.inr hconnected) (hrefused.refused h cb hgets)
  · obtain ⟨fds, hfreed⟩ := s.process.freed_eq h cb
    have hunlisted : s.process.Unlisted (s.process.freed h cb) h := by
      rw [hfreed]
      exact ⟨rfl, rfl⟩
    have hreferences : ∀ H, H ≠ 0 → (s.process.freed h cb).references H =
        s.process.references H + if cb.hostHandle = H then -1 else 0 := by
      grind [Process.references_closeColorBuffer, Process.references_of_sent]
    have hbalance : ∀ H, H ≠ 0 → ((s.process.freed h cb).references H =
        (if (s.process.freed h cb).allocated H then 1 else 0) + s.registered H ↔
        (cb.hostHandle = H → h ∈ s.process.allocList)) := by
      intro H hH
      rw [hreferences H hH, hb H hH, hunlisted.allocated hl hgets.getElem hH]
      grind [Process.allocated_iff, hgets.getElem]
    refine ⟨hunlisted.listed hl, ?_⟩
    constructor
    · rintro ⟨hafter, -⟩ h' cb' hgets' hne _
      obtain ⟨rfl, rfl⟩ := hgets.unique hgets'
      exact (hbalance cb'.hostHandle hne).mp (hafter cb'.hostHandle hne) rfl
    · intro hkeeps
      refine ⟨fun H hH => (hbalance H hH).mpr fun heq => ?_, fun hne => absurd rfl hne⟩
      have hne : cb.hostHandle ≠ 0 := heq ▸ hH
      exact hkeeps h cb hgets hne (hconnects.resolve_left hne)

/-- A registration or unregistration that succeeds counts with the message that it sends. -/
theorem Balanced.count {h : HandleId} {cb : cb_handle_t} {n : Int}
    {p : Process} (hb : s.Balanced) (hgets : s.process.Gets handle h cb)
    (hosts : s.process.SameHosts p)
    (hreferences : ∀ H, H ≠ 0 → p.references H =
      s.process.references H + if cb.hostHandle = H then n else 0) :
    (⟨p, s.count hostKey handle 0 n⟩ : Counted UInt32).Balanced := by
  intro H hH
  dsimp only
  rw [hreferences H hH, hosts.allocated, count_of_gets hgets, hb H hH, hostKey]
  omega

theorem sameHosts_openColorBuffer (p : Process) (cb : cb_handle_t) :
    p.SameHosts (p.openColorBuffer cb) := by
  unfold Process.openColorBuffer
  split
  · exact .refl p
  · exact ⟨rfl, fun _ _ => rfl⟩

theorem sameHosts_closeColorBuffer (p : Process) (cb : cb_handle_t) :
    p.SameHosts (p.closeColorBuffer cb) := by
  unfold Process.closeColorBuffer
  split
  · exact .refl p
  · exact ⟨rfl, fun _ _ => rfl⟩

theorem gralloc_register_buffer_effect {mmap : Except Errno Nat} (hl : s.process.Listed)
    (hb : s.Balanced)
    (hr : s.process.gralloc_register_buffer handle connected mmap = .ok r) :
    Effect s (.gralloc_register_buffer handle connected mmap)
      (⟨r.1, s.count hostKey handle r.2 1⟩, r.2) := by
  rcases Process.gralloc_register_buffer_cases hr with hrefused | ⟨h, cb, hgets, hconnects, hr⟩
  · refine .of_refused hl hb hrefused (count_of_ne (Int.ne_of_lt hrefused.negative)) ?_
    exact fun h cb hgets hconnects => absurd hconnects (hrefused.refused h cb hgets)
  · have hopen := sameHosts_openColorBuffer s.process cb
    have hreferences := fun H (hH : H ≠ 0) =>
      Process.references_openColorBuffer s.process cb hH
    have hpid : (s.process.openColorBuffer cb).pid = s.process.pid := by
      unfold Process.openColorBuffer
      split <;> rfl
    rcases Process.registerMapping_cases hr.symm with
      ⟨rfl, hneedless⟩ | ⟨hneeds, ⟨hsame, hpos, hnot⟩ | ⟨addr, haddr, hfd, rfl⟩⟩
    · refine ⟨hopen.listed hl, iff_of_true ⟨hb.count hgets hopen hreferences,
        fun hne => absurd rfl hne⟩ fun h' cb' hgets' _ hneeds => ?_⟩
      grind [hgets.unique]
    · rw [hsame]
      refine ⟨hopen.listed hl, iff_of_false ?_ fun hkeeps => ?_⟩
      · rintro ⟨-, hfails⟩
        omega
      · rw [hpid] at hneeds
        exact hnot (hkeeps h cb hgets hconnects hneeds)
    · have hosts : s.process.SameHosts ((s.process.openColorBuffer cb).registered h cb addr) := by
        have hbase : (s.process.openColorBuffer cb).SameHosts
            ((s.process.openColorBuffer cb).addMapping ⟨addr, cb.ashmemSize.toNat, h⟩) :=
          ⟨rfl, fun _ _ => rfl⟩
        refine hopen.trans (hbase.trans (.trans (.modifyHandle ?_ h) (.modifyHandle ?_ h)))
        · exact fun _ => rfl
        · exact fun _ => rfl
      have hsent : ∀ H, H ≠ 0 → ((s.process.openColorBuffer cb).registered h cb addr).references H =
          s.process.references H + if cb.hostHandle = H then 1 else 0 := hreferences
      refine ⟨hosts.listed hl, iff_of_true ⟨hb.count hgets hosts hsent, fun hne =>
        absurd rfl hne⟩ fun h' cb' hgets' _ _ => ?_⟩
      grind [hgets.unique]

theorem gralloc_unregister_buffer_effect (hl : s.process.Listed) (hb : s.Balanced)
    (hr : s.process.gralloc_unregister_buffer handle connected = .ok r) :
    Effect s (.gralloc_unregister_buffer handle connected)
      (⟨r.1, s.count hostKey handle r.2 (-1)⟩, r.2) := by
  rcases Process.gralloc_unregister_buffer_cases hr with hrefused | ⟨h, cb, hgets, -, rfl⟩
  · exact .of_refused hl hb hrefused (count_of_ne (Int.ne_of_lt hrefused.negative)) trivial
  · have hclose := sameHosts_closeColorBuffer s.process cb
    have hosts : s.process.SameHosts ((s.process.closeColorBuffer cb).unregisterMapping h cb) := by
      unfold Process.unregisterMapping
      split
      · have hunmap : (s.process.closeColorBuffer cb).SameHosts
            ((s.process.closeColorBuffer cb).munmap cb.ashmemBase cb.ashmemSize.toNat) :=
          ⟨rfl, fun _ _ => rfl⟩
        refine hclose.trans (hunmap.trans (.modifyHandle ?_ h))
        exact fun _ => rfl
      · exact hclose
    have hreferences : ∀ H, H ≠ 0 →
        ((s.process.closeColorBuffer cb).unregisterMapping h cb).references H =
          s.process.references H + if cb.hostHandle = H then -1 else 0 := by
      intro H hH
      rw [← Process.references_closeColorBuffer s.process cb hH]
      apply Process.references_of_sent
      unfold Process.unregisterMapping
      split <;> rfl
    exact ⟨hosts.listed hl, iff_of_true ⟨hb.count hgets hosts hreferences,
      fun hne => absurd rfl hne⟩ trivial⟩

theorem Effect.of_locksOnly (hl : s.process.Listed)
    (hb : s.Balanced) (hr : s.process.LocksOnly r.1 ∧ (r.2 ≠ 0 → r.2 < 0))
    (hkeeps : s.KeepsReferences c) : Effect s c (⟨r.1, s.registered⟩, r.2) :=
  .of_undone hl hb (.of_locksOnly hr.1)
    ⟨fun H _ => hr.1.references H, hr.1.mappings, hr.1.fds, hr.1.allocList⟩ rfl hr.2 hkeeps

theorem call_effect {r : Counted UInt32 × Int} (hl : s.process.Listed)
    (hb : s.Balanced) (hanswers : s.Answers c) (hr : s.call hostKey c = .ok r) :
    Effect s c r := by
  obtain ⟨result, hcall, rfl⟩ := Run.map_eq_ok.mp hr
  cases c with
  | gralloc_alloc args w h format usage ashmem mmap host =>
      cases hcall
      exact gralloc_alloc_effect hl hb hanswers
  | gralloc_free handle connected => exact gralloc_free_effect hl hb hcall
  | gralloc_register_buffer handle connected mmap =>
      exact gralloc_register_buffer_effect hl hb hcall
  | gralloc_unregister_buffer handle connected =>
      exact gralloc_unregister_buffer_effect hl hb hcall
  | gralloc_lock handle usage left top width height host =>
      exact .of_locksOnly hl hb (Process.gralloc_lock_locksOnly hcall) trivial
  | gralloc_unlock handle connected =>
      exact .of_locksOnly hl hb (Process.gralloc_unlock_locksOnly hcall) trivial

theorem receive_balanced (hl : s.process.Listed) (hb : s.Balanced) (cb : cb_handle_t) (fd : Nat) :
    (s.process.receive cb fd).Listed ∧
      (⟨s.process.receive cb fd, s.registered⟩ : Counted UInt32).Balanced := by
  have hreceive : ∃ cb', (s.process.receive cb fd).handles = s.process.handles ++ [cb'] ∧
      (s.process.receive cb fd).allocList = s.process.allocList ∧
      (s.process.receive cb fd).sent = s.process.sent := by
    unfold Process.receive
    split
    · exact ⟨_, rfl, rfl, rfl⟩
    · exact ⟨_, rfl, rfl, rfl⟩
  obtain ⟨cb', hhandles, hlist, hsent⟩ := hreceive
  have hosts := Process.SameHosts.append hl hhandles hlist
  exact ⟨hosts.listed hl, hb.of_same hosts (fun H _ => Process.references_of_sent hsent H) rfl⟩

def KeepsRun (s : Counted UInt32) : Event → Prop
  | .call c => s.Answers c ∧ s.KeepsReferences c
  | .receive _ _ => True

/-- As long as no `gralloc_alloc` fails for its color buffer with the region mapped, no
`gralloc_register_buffer` fails to map the region, and only buffers that the process has
allocated are freed where they have a color buffer, the references sent to the host are those
of allocations and registrations, and calls that fail change nothing. -/
theorem atomic_of_keepsRun {pid : Int} (h : Run.Reach (step hostKey) KeepsRun (initial pid) s) :
    s.Balanced ∧ ∀ c r, s.Answers c → s.call hostKey c = .ok r →
      ((r.1.Balanced ∧ (r.2 ≠ 0 → r.2 < 0 ∧ Undone s r.1)) ↔ s.KeepsReferences c) := by
  have hinv : s.process.Listed ∧ s.Balanced := by
    refine h.invariant (I := fun s => s.process.Listed ∧ s.Balanced) ?_ ?_
    · refine ⟨⟨fun h hmem => ?_, List.nodup_nil, fun h hmem => ?_⟩, fun H _ => rfl⟩
      · cases hmem
      · cases hmem
    · rintro s₁ event s₂ ⟨hl, hb⟩ hkeeps hstep
      cases event with
      | call c =>
          obtain ⟨r, hr, rfl⟩ := Run.map_eq_ok.mp hstep
          have heffect := call_effect hl hb hkeeps.1 hr
          exact ⟨heffect.listed, (heffect.atomic_iff.mpr hkeeps.2).1⟩
      | receive cb fd =>
          cases hstep
          exact receive_balanced hl hb cb fd
  exact ⟨hinv.2, fun c r hanswers hr => (call_effect hinv.1 hinv.2 hanswers hr).atomic_iff⟩

/-- Events that keep the references right whatever the handles hold. -/
def keepsRunTest (s : Counted UInt32) : Event → Bool
  | .call (.gralloc_alloc _ _ _ _ usage ashmem _ host) =>
      freshTest s.process.fds ashmem && host.all (fun H => !s.process.allocated H) &&
        (!usage.HW || host.any (· ≠ 0))
  | .call (.gralloc_free handle _) => handle.all (· ∈ s.process.allocList)
  | .call (.gralloc_register_buffer handle _ mmap) =>
      handle.all (fun h => s.process.handles[h]?.all fun cb => 0 ≤ cb.fd) && mmap.toBool
  | _ => true

theorem keepsRunTest_sound (s : Counted UInt32) (event : Event) (h : s.keepsRunTest event = true) :
    s.KeepsRun event := by
  cases event with
  | receive cb fd => trivial
  | call c =>
      cases c with
      | gralloc_alloc args w height format usage ashmem mmap host =>
          obtain ⟨hfresh, hcolor⟩ := Bool.and_eq_true_iff.mp h
          obtain ⟨hfd, hhost⟩ := Bool.and_eq_true_iff.mp hfresh
          refine ⟨⟨?_, ?_⟩, ?_⟩
          · rintro fd rfl
            exact of_decide_eq_true hfd
          · grind
          · rintro ⟨-, -, -, -, -, hHW, rfl | rfl⟩
            · simp [hHW] at hcolor
            · simp [hHW] at hcolor
      | gralloc_free handle connected =>
          refine ⟨trivial, fun i cb hgets _ _ => ?_⟩
          cases hgets.some
          exact of_decide_eq_true h
      | gralloc_register_buffer handle connected mmap =>
          refine ⟨trivial, fun i cb hgets _ _ => ?_⟩
          obtain ⟨hfd, hmmap⟩ := Bool.and_eq_true_iff.mp h
          rw [hgets.some, Option.all_some, hgets.getElem, Option.all_some] at hfd
          refine ⟨of_decide_eq_true hfd, ?_⟩
          cases mmap with
          | error errno => cases hmmap
          | ok addr => exact ⟨addr, rfl⟩
      | _ => exact ⟨trivial, trivial⟩

/-- A buffer for software and hardware access, for which the host gives the color buffer 9. -/
def allocates : Event :=
  .call (.gralloc_alloc true 16 16 HAL_PIXEL_FORMAT_RGBA_8888 ⟨true, false, true, false, false, true⟩
    (.ok 3) (.ok 4096) (some 9))

def ENOMEM : Errno := ⟨12, Int.natCast_pos.mpr (Nat.succ_pos 11)⟩

/-- A buffer is allocated and registered; another one cannot be mapped. -/
theorem atomic_of_keepsRun_run :
    ∃ s : Counted UInt32, s.process.references 9 = 2 ∧ s.Balanced ∧
      ∀ c r, s.Answers c → s.call hostKey c = .ok r →
        ((r.1.Balanced ∧ (r.2 ≠ 0 → r.2 < 0 ∧ Undone s r.1)) ↔ s.KeepsReferences c) := by
  have hrun : Run.check (step hostKey) keepsRunTest (fun s => s.process.references 9 = 2)
      (initial 1) [allocates, .call (.gralloc_register_buffer (some 0) true (.ok 8192)),
        .call (.gralloc_alloc true 16 16 HAL_PIXEL_FORMAT_RGB_565
          ⟨true, false, true, false, false, true⟩ (.ok 4) (.error ENOMEM) (some 10))] =
      true := by
    decide +kernel
  obtain ⟨s, hreach, hs⟩ := Run.exists_reach_of_check keepsRunTest_sound hrun
  exact ⟨s, of_decide_eq_true hs, atomic_of_keepsRun hreach⟩

/-- A registration whose region cannot be mapped. -/
def registersUnmapped : Process.Call := .gralloc_register_buffer (some 0) true (.error ENOMEM)

/-- It has opened the color buffer, and returns a positive error. -/
theorem register_failure_opens :
    ∃ s r, Run.Reach (step hostKey) KeepsRun (initial 1) s ∧
      s.call hostKey registersUnmapped = .ok r ∧ 0 < r.2 ∧ ¬s.Atomic r := by
  have hrun : Run.check (step hostKey) keepsRunTest
      (fun s => match s.call hostKey registersUnmapped with
        | .ok r => 0 < r.2
        | .error _ => false) (initial 1) [allocates] = true := by
    decide +kernel
  obtain ⟨s, hreach, hs⟩ := Run.exists_reach_of_check keepsRunTest_sound hrun
  split at hs
  · rename_i r hr
    have hpos : 0 < r.2 := of_decide_eq_true hs
    refine ⟨s, r, hreach, hr, hpos, ?_⟩
    rintro ⟨-, hfails⟩
    have hneg := (hfails (Int.ne_of_gt hpos)).1
    exact Int.lt_irrefl _ (Int.lt_trans hneg hpos)
  · cases hs

end Counted

end AndroidRenderer.Gralloc
