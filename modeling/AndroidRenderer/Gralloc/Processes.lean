import AndroidRenderer.Gralloc.Mappings

/-!
# Processes that share buffers

The processes of a device, each with the handles that it has allocated and the copies that others
have sent to it. A copy holds the address and the process of the last mapping, which are right for
the receiver only if the buffer has never been mapped there. A region keeps its name in copies: a
process can have several handles of it, and even get its own back.
-/

namespace AndroidRenderer.Gralloc

abbrev Pid := { pid : Int // 0 < pid }

abbrev RegionId := Pid × HandleId

/-- The processes by their numbers, and the regions of their handles. -/
structure Processes where
  process : Pid → Counted HandleId
  region : Pid → HandleId → RegionId

namespace Processes

variable {σ σ' : Processes}

def initial : Processes where
  process pid := .initial pid
  region pid h := (pid, h)

/-- What happens to the processes: one of them makes a call, or sends a copy of a handle to another,
where the copy has the descriptor `fd`. -/
inductive Event
  | call (pid : Pid) (c : Process.Call)
  | transfer (source target : Pid) (h : HandleId) (fd : Nat)

def step (σ : Processes) : Event → Except MemoryFault Processes
  | .call pid c => ((σ.process pid).call handleKey c).map fun r =>
      { σ with process := Function.update σ.process pid r.1 }
  | .transfer source target h fd => ((σ.process source).process.handle h).map fun cb =>
      { process := Function.update σ.process target { σ.process target with
          process := (σ.process target).process.receive cb fd }
        region := Function.update σ.region target (Function.update (σ.region target)
          (σ.process target).process.handles.length (σ.region source h)) }

/-- The kernel keeps its promises in a call. -/
def Answered (σ : Processes) : Event → Prop
  | .call pid c => (σ.process pid).KernelAnswers c
  | .transfer _ _ _ _ => True

/-- The calls keep the regions that are needed mapped once, and no copy of a handle is received
that says that the receiver has mapped the region. -/
def KeepsRun (σ : Processes) : Event → Prop
  | .call pid c => (σ.process pid).KernelAnswers c ∧ (σ.process pid).KeepsMapped (σ.region pid) c
  | .transfer source target h _ => ∀ cb, (σ.process source).process.handle h = .ok cb →
      0 < cb.ashmemSize → ¬(cb.ashmemBasePid = target ∧ cb.ashmemBase ≠ 0)

def next (σ : Processes) (pid : Pid) : HandleId := (σ.process pid).process.handles.length

/-- Every process has its number, and keeps the invariant; regions have the names of handles that
there are. -/
structure Inv (σ : Processes) : Prop where
  pid : ∀ pid, (σ.process pid).process.pid = pid
  mapped : ∀ pid, (σ.process pid).MapInv (σ.region pid)
  unused : ∀ pid h, σ.next pid ≤ h → σ.region pid h = (pid, h)
  made : ∀ pid h, h < σ.next pid → (σ.region pid h).2 < σ.next (σ.region pid h).1

theorem Inv.fresh (hinv : σ.Inv) (pid : Pid) : (σ.process pid).Fresh (σ.region pid) := by
  intro i hi heq
  have hown : σ.region pid i = (pid, σ.next pid) :=
    heq.trans (hinv.unused pid (σ.next pid) (Nat.le_refl _))
  have hmade := hinv.made pid i hi
  rw [hown] at hmade
  exact Nat.lt_irrefl _ hmade

theorem initial_inv : Inv initial := by
  refine ⟨fun _ => rfl, fun pid => ⟨⟨pid.property, fun h hused => ?_, List.nodup_nil,
    List.Pairwise.nil, fun m hm => ?_⟩, fun h => ⟨?_, ?_, ?_, ?_, ?_⟩,
    fun h i hholds => ?_⟩, fun _ _ _ => rfl, fun _ _ hlt => absurd hlt (Nat.not_lt_zero _)⟩
  · rcases hused with hlisted | hcounted
    · cases hlisted
    · exact absurd rfl hcounted
  · cases hm
  · intro cb hcb
    cases hcb
  iterate 4
    intro cb hcb
    cases (Process.handle_ok.mp hcb).1
  obtain ⟨-, cb, hcb, -⟩ := hholds
  cases hcb

/-- One process changes: its new handles have regions of their own, or those of other handles. -/
theorem Inv.update (hinv : σ.Inv) {pid : Pid} {s : Counted HandleId} {region : HandleId → RegionId}
    (hpid : s.process.pid = (σ.process pid).process.pid) (hs : s.MapInv region)
    (hlength : σ.next pid ≤ s.process.handles.length)
    (hunused : ∀ h, s.process.handles.length ≤ h → region h = (pid, h))
    (hmade : ∀ h < s.process.handles.length, region h = (pid, h) ∨
      ∃ pid' h', h' < σ.next pid' ∧ region h = σ.region pid' h') :
    Inv ⟨Function.update σ.process pid s, Function.update σ.region pid region⟩ := by
  have hnext : ∀ q, σ.next q ≤ next ⟨Function.update σ.process pid s,
      Function.update σ.region pid region⟩ q := by
    intro q
    by_cases hq : q = pid
    · subst hq
      simpa only [next, Function.update_self] using hlength
    · simp only [next, Function.update_of_ne hq, Nat.le_refl]
  constructor <;> intro pid'
  case pid => grind [hinv.pid]
  case mapped => grind [hinv.mapped]
  case unused =>
    intro h hle
    by_cases hq : pid' = pid
    · subst hq
      simp only [next, Function.update_self] at hle ⊢
      exact hunused h hle
    · simp only [Function.update_of_ne hq]
      exact hinv.unused pid' h (Nat.le_trans (hnext pid') hle)
  case made =>
    intro h hlt
    by_cases hq : pid' = pid
    · subst hq
      simp only [Function.update_self]
      rcases hmade h (by simpa only [next, Function.update_self] using hlt) with
        heq | ⟨q, h', hlt', heq⟩
      · rw [heq]
        exact hlt
      · rw [heq]
        exact Nat.lt_of_lt_of_le (hinv.made q h' hlt') (hnext _)
    · simp only [next, Function.update_of_ne hq] at hlt
      simp only [Function.update_of_ne hq]
      exact Nat.lt_of_lt_of_le (hinv.made pid' h hlt) (hnext _)

theorem step_inv {event : Event} (hinv : σ.Inv) (hkeeps : σ.KeepsRun event)
    (hstep : σ.step event = .ok σ') : σ'.Inv := by
  cases event with
  | call pid c =>
      obtain ⟨r, hr, rfl⟩ := Run.map_eq_ok.mp hstep
      have hmapped := (Counted.call_mapped (hinv.mapped pid) (hinv.fresh pid) hkeeps.1 hr).kept
        hkeeps.2
      obtain ⟨hpid, hlength⟩ := Counted.call_kept hkeeps.1 hr
      have hafter := hinv.update hpid hmapped hlength
        (fun h hle => hinv.unused pid h (Nat.le_trans hlength hle)) fun h _ => by
          by_cases hlt : h < σ.next pid
          · exact .inr ⟨pid, h, hlt, rfl⟩
          · exact .inl (hinv.unused pid h (Nat.le_of_not_lt hlt))
      rwa [Function.update_eq_self] at hafter
  | transfer source target h fd =>
      obtain ⟨cb, hcb, rfl⟩ := Run.map_eq_ok.mp hstep
      have hstale : 0 < cb.ashmemSize →
          ¬(cb.ashmemBasePid = (σ.process target).process.pid ∧ cb.ashmemBase ≠ 0) := by
        rw [hinv.pid]
        exact hkeeps cb hcb
      have hsource : h < σ.next source :=
        (List.getElem?_eq_some_iff.mp (Process.handle_ok.mp hcb).1).1
      have hnamed := ((hinv.mapped source).handles h).named cb hcb
      have hlength := Counted.length_handles_receive (σ.process target).process cb fd
      have hmapped := (hinv.mapped target).congr
        (Function.update (σ.region target) (σ.next target) (σ.region source h))
        fun i hi => Function.update_of_ne (Nat.ne_of_lt hi) _ _
      refine hinv.update ?_ (Counted.receive_mapped hmapped fd hnamed hstale) ?_ (fun i hle => ?_)
        fun i hlt => ?_
      · dsimp only
        unfold Process.receive
        split <;> rfl
      · rw [hlength]
        exact Nat.le_succ _
      · rw [hlength] at hle
        rw [Function.update_of_ne (Nat.ne_of_gt hle)]
        exact hinv.unused target i (Nat.le_of_succ_le hle)
      · by_cases heq : i = σ.next target
        · rw [heq]
          exact .inr ⟨source, h, hsource, Function.update_self _ _ _⟩
        · rw [hlength] at hlt
          refine .inr ⟨target, i, ?_, Function.update_of_ne heq _ _⟩
          exact Nat.lt_of_le_of_ne (Nat.le_of_lt_succ hlt) heq

/-- As long as no `gralloc_alloc` fails for its color buffer with the region mapped, no process
registers a buffer whose region it needs already, or unregisters one that it has registered twice,
a buffer is freed without registrations and with the descriptor of its mapping, and no copy is
received that names its receiver, the regions that are needed are mapped once, and can be locked.
A call keeps this if and only if it meets the condition. -/
theorem mapped_of_keepsRun (h : Run.Reach step KeepsRun initial σ) (pid : Pid) :
    (σ.process pid).Mapped (σ.region pid) ∧ ∀ c r, (σ.process pid).KernelAnswers c →
      (σ.process pid).call handleKey c = .ok r →
      (r.1.Mapped (σ.region pid) ↔ (σ.process pid).KeepsMapped (σ.region pid) c) := by
  have hinv : σ.Inv := h.invariant (I := Inv) initial_inv
    fun _ _ _ hinv hkeeps hstep => step_inv hinv hkeeps hstep
  refine ⟨(hinv.mapped pid).mapped, fun c r hanswers hr => ?_⟩
  have heffect := Counted.call_mapped (hinv.mapped pid) (hinv.fresh pid) hanswers hr
  exact ⟨heffect.needed, fun hkeeps => (heffect.kept hkeeps).mapped⟩

/-! ## Runs with two processes -/

/-- An address for a mapping of the size is a good answer. -/
def mmapTest (mappings : List Mapping) (size : Int) : Except Errno Nat → Bool
  | .ok addr => 0 < addr && mappings.all fun m => ¬m.Overlaps addr size.toNat
  | .error _ => true

theorem mmapTest_sound {mappings : List Mapping} {size : Int} {mmap : Except Errno Nat}
    (h : mmapTest mappings size mmap = true) (addr : Nat) (haddr : mmap = .ok addr) :
    0 < addr ∧ AddressSpace.Unused mappings addr size.toNat := by
  subst haddr
  obtain ⟨hpos, hall⟩ := Bool.and_eq_true_iff.mp h
  refine ⟨of_decide_eq_true hpos, fun m hm => ?_⟩
  exact of_decide_eq_true (List.all_eq_true.mp hall m hm)

def answeredTest (σ : Processes) : Event → Bool
  | .call pid (.gralloc_alloc _ w h format usage ashmem mmap _) =>
      Counted.freshTest (σ.process pid).process.fds ashmem &&
        mmapTest (σ.process pid).process.mappings (Process.regionSize w h format usage) mmap
  | .call pid (.gralloc_register_buffer handle _ mmap) => handle.all fun h =>
      (σ.process pid).process.handles[h]?.all fun cb =>
        mmapTest (σ.process pid).process.mappings cb.ashmemSize mmap
  | _ => true

theorem answeredTest_sound (σ : Processes) (event : Event) (h : σ.answeredTest event = true) :
    σ.Answered event := by
  cases event with
  | transfer source target h fd => trivial
  | call pid c =>
      cases c with
      | gralloc_alloc args w height format usage ashmem mmap host =>
          obtain ⟨hfresh, hmmap⟩ := Bool.and_eq_true_iff.mp h
          refine ⟨?_, mmapTest_sound hmmap⟩
          rintro fd rfl
          exact of_decide_eq_true hfresh
      | gralloc_register_buffer handle connected mmap =>
          intro i cb hgets
          have hall : handle.all (fun h => (σ.process pid).process.handles[h]?.all fun cb =>
              mmapTest (σ.process pid).process.mappings cb.ashmemSize mmap) = true := h
          rw [hgets.some, Option.all_some, hgets.getElem, Option.all_some] at hall
          exact mmapTest_sound hall
      | _ => trivial

/-- Events that keep the regions mapped whatever the handles hold. -/
def keepsTest (σ : Processes) : Event → Bool
  | .call _ (.gralloc_alloc _ _ _ _ usage _ _ host) => !usage.HW || host.any (· ≠ 0)
  | .call pid (.gralloc_free handle _) => handle.all fun h =>
      h ∈ (σ.process pid).process.allocList && (σ.process pid).registered h ≤ 0 &&
        (σ.process pid).process.handles[h]?.all fun cb => 0 < cb.fd
  | .call pid (.gralloc_register_buffer handle _ _) => handle.all fun h =>
      h ∉ (σ.process pid).process.allocList && 0 ≤ (σ.process pid).registered h &&
        (List.range (σ.next pid)).all fun i =>
          i = h || !(σ.process pid).Needs i || σ.region pid i ≠ σ.region pid h
  | .call pid (.gralloc_unregister_buffer handle _) => handle.all fun h =>
      (σ.process pid).registered h ≤ 1
  | .transfer source target h _ => (σ.process source).process.handles[h]?.all fun cb =>
      cb.ashmemBasePid ≠ (target : Int)
  | _ => true

def keepsRunTest (σ : Processes) (event : Event) : Bool :=
  σ.answeredTest event && σ.keepsTest event

theorem keepsRunTest_sound (σ : Processes) (event : Event) (h : σ.keepsRunTest event = true) :
    σ.KeepsRun event := by
  obtain ⟨hanswered, hkeeps⟩ := Bool.and_eq_true_iff.mp h
  have hanswered := answeredTest_sound σ event hanswered
  unfold keepsTest at hkeeps
  cases event with
  | transfer source target h fd =>
      intro cb hcb _ hnamed
      dsimp only at hkeeps
      rw [(Process.handle_ok.mp hcb).1, Option.all_some] at hkeeps
      exact of_decide_eq_true hkeeps hnamed.1
  | call pid c =>
      refine ⟨hanswered, ?_⟩
      cases c with
      | gralloc_alloc args w height format usage ashmem mmap host =>
          rintro ⟨-, -, -, -, -, hHW, rfl | rfl⟩
          · simp [hHW] at hkeeps
          · simp [hHW] at hkeeps
      | gralloc_free handle connected =>
          intro i cb hgets _ _
          dsimp only at hkeeps
          rw [hgets.some, Option.all_some, hgets.getElem, Option.all_some] at hkeeps
          obtain ⟨hlisted, hfd⟩ := Bool.and_eq_true_iff.mp hkeeps
          obtain ⟨hlisted, hcounted⟩ := Bool.and_eq_true_iff.mp hlisted
          refine ⟨fun _ => of_decide_eq_true hfd, fun hpos => ?_, fun hnot => ?_⟩
          · exact absurd hpos (Int.not_lt.mpr (of_decide_eq_true hcounted))
          · exact absurd (.inl (of_decide_eq_true hlisted)) hnot
      | gralloc_register_buffer handle connected mmap =>
          intro i cb hgets _ _ _
          dsimp only at hkeeps
          rw [hgets.some, Option.all_some] at hkeeps
          obtain ⟨hlisted, hothers⟩ := Bool.and_eq_true_iff.mp hkeeps
          obtain ⟨hlisted, hcounted⟩ := Bool.and_eq_true_iff.mp hlisted
          refine ⟨of_decide_eq_true hlisted, of_decide_eq_true hcounted, ?_⟩
          rintro j hne ⟨hneeds, cb', hcb', -⟩
          have hj := List.all_eq_true.mp hothers j
            (List.mem_range.mpr (List.getElem?_eq_some_iff.mp hcb').1)
          simpa [hne, hneeds] using hj
      | gralloc_unregister_buffer handle connected =>
          intro i cb hgets _ _
          dsimp only at hkeeps
          rw [hgets.some, Option.all_some] at hkeeps
          exact of_decide_eq_true hkeeps
      | _ => trivial

def first : Pid := ⟨1, Int.one_pos⟩

def second : Pid := ⟨2, Int.natCast_pos.mpr (Nat.succ_pos 1)⟩

/-- A buffer for software reads, in a region at 4096. -/
def allocates : Event :=
  .call first (.gralloc_alloc true 16 16 HAL_PIXEL_FORMAT_RGBA_8888
    ⟨true, false, false, false, false, false⟩ (.ok 3) (.ok 4096) none)

/-- A buffer is allocated by a process and registered by another one. Its own copy of it comes back,
and the process registers it when it has freed the buffer. -/
theorem mapped_of_keepsRun_run :
    ∃ σ : Processes, (σ.process first).addresses (σ.region first) (first, 0) = [12288] ∧
      (σ.process second).addresses (σ.region second) (first, 0) = [8192] ∧
      ∀ pid, (σ.process pid).Mapped (σ.region pid) ∧ ∀ c r, (σ.process pid).KernelAnswers c →
        (σ.process pid).call handleKey c = .ok r →
        (r.1.Mapped (σ.region pid) ↔ (σ.process pid).KeepsMapped (σ.region pid) c) := by
  have hrun : Run.check step keepsRunTest
      (fun σ => (σ.process first).addresses (σ.region first) (first, 0) = [12288] ∧
        (σ.process second).addresses (σ.region second) (first, 0) = [8192])
      initial [allocates, .transfer first second 0 5,
        .call second (.gralloc_register_buffer (some 0) true (.ok 8192)),
        .transfer second first 0 4, .call first (.gralloc_free (some 0) true),
        .call first (.gralloc_register_buffer (some 1) true (.ok 12288))] = true := by
    decide +kernel
  obtain ⟨σ, hreach, hσ⟩ := Run.exists_reach_of_check keepsRunTest_sound hrun
  obtain ⟨hfirst, hsecond⟩ := of_decide_eq_true hσ
  exact ⟨σ, hfirst, hsecond, mapped_of_keepsRun hreach⟩

/-- A process that registers the buffer it has allocated maps the region a second time. -/
theorem allocated_registered_twice :
    ∃ σ : Processes, Run.Reach step Answered initial σ ∧
      ¬(σ.process first).Mapped (σ.region first) := by
  have hrun : Run.check step answeredTest
      (fun σ => (σ.process first).addresses (σ.region first) (first, 0) = [8192, 4096])
      initial [allocates, .call first (.gralloc_register_buffer (some 0) true (.ok 8192))] =
      true := by
    decide +kernel
  obtain ⟨σ, hreach, hσ⟩ := Run.exists_reach_of_check answeredTest_sound hrun
  refine ⟨σ, hreach, fun hafter => ?_⟩
  have hle := hafter.length_addresses_le (first, 0)
  rw [of_decide_eq_true hσ] at hle
  exact absurd hle (by decide)

end Processes

end AndroidRenderer.Gralloc
