import AndroidRenderer.Qtools.InnerBlocks
import Mathlib.Algebra.BigOperators.Fin

/-!
# Charging executions to basic blocks

`bbprof` counts how often each block of a trace is executed, and adds up the simulation time that
passes until the next instruction. An event names the block that was executed; its instructions
are looked for in the block and in its inner blocks. The times come from a reader with states of
type `ρ`.
-/

namespace AndroidRenderer.Qtools

open NodeList MyStaticRec

variable {n : Nat} {ρ : Type}

/-- The variables of `main` in `bbprof`. -/
structure Profile (n : Nat) (ρ : Type) where
  blocks : Fin n → MyStaticRec n
  prev_time : BitVec 32
  /-- What `cycle_ptr` and `bb_elapsed_ptr` belong to: an instruction of a block, or `dummy`. -/
  cycle_ptr : Option (Fin n × Nat)
  reader : ρ

/-- `*cycle_ptr += elapsed` and `*bb_elapsed_ptr += elapsed` -/
def addElapsed (blocks : Fin n → MyStaticRec n) (elapsed : BitVec 32) :
    Option (Fin n × Nat) → Fin n → MyStaticRec n
  | none => blocks
  | some (k, ii) => Function.update blocks k
      { blocks k with
        cycles := (blocks k).cycles.modify ii (· + elapsed)
        elapsed := (blocks k).elapsed + elapsed }

variable (ReadInsnTime : ρ → BitVec 64 → BitVec 64 × ρ) (time : BitVec 64)

/-- The body of the inner loop, for an instruction. -/
def chargeInsn (p : Profile n ρ) (insn : Fin n × Nat) : Profile n ρ :=
  let read := ReadInsnTime p.reader time
  let sim_time := read.1.setWidth 32
  { blocks := addElapsed p.blocks (sim_time - p.prev_time) p.cycle_ptr
    prev_time := sim_time
    cycle_ptr := some insn
    reader := read.2 }

/-- The inner loop, with `left` instructions of the block behind `ii`. -/
def chargeBlock (k : Fin n) : (ii left : Nat) → Int → Profile n ρ → Int × Profile n ρ
  | _, 0, num_insns, p => (num_insns, p)
  | ii, left + 1, num_insns, p =>
      if num_insns = 0 then (num_insns, p)
      else chargeBlock k (ii + 1) left (num_insns - 1) (chargeInsn ReadInsnTime time p (k, ii))

/-- The loop over the inner blocks; none if it does not come to an end within `fuel` turns. -/
def chargeChain : (fuel : Nat) → Option (Fin n) → Int → Profile n ρ → Option (Profile n ρ)
  | _, none, _, p => some p
  | 0, some _, _, _ => none
  | fuel + 1, some bptr, num_insns, p =>
      let left := (p.blocks bptr).bb.num_insns.toNat
      let charged := chargeBlock ReadInsnTime time bptr 0 left num_insns p
      chargeChain fuel (charged.2.blocks bptr).inner charged.1 charged.2

/-- `bptr->freq += 1` -/
def addFreq (blocks : Fin n → MyStaticRec n) (bptr : Fin n) : Fin n → MyStaticRec n :=
  Function.update blocks bptr { blocks bptr with freq := (blocks bptr).freq + 1 }

/-- The frequencies of a block and of its inner blocks. -/
def chargeFreq : (fuel : Nat) → Option (Fin n) → (Fin n → MyStaticRec n) →
    Option (Fin n → MyStaticRec n)
  | _, none, blocks => some blocks
  | 0, some _, _ => none
  | fuel + 1, some bptr, blocks =>
      let blocks := addFreq blocks bptr
      chargeFreq fuel (blocks bptr).inner blocks

/-- The loop of `main`, for an event. -/
def chargeEvent (bb_num : Fin n) (num_insns : Int) (p : Profile n ρ) : Option (Profile n ρ) :=
  (chargeFreq n (some bb_num) p.blocks).bind fun blocks =>
    chargeChain ReadInsnTime time n (some bb_num) num_insns { p with blocks }

/-! ## What does not change -/

/-- The block without what is charged to it. -/
def MyStaticRec.uncharged (b : MyStaticRec n) : MyStaticRec n :=
  { b with cycles := [], elapsed := 0, freq := 0 }

def SameCode (blocks blocks' : Fin n → MyStaticRec n) : Prop :=
  ∀ k, (blocks k).uncharged = (blocks' k).uncharged

section

variable {ReadInsnTime time} {blocks blocks' : Fin n → MyStaticRec n} {p p' : Profile n ρ}
  {k : Fin n} {ks : List (Fin n)} {head : Option (Fin n)} {insns : List (Fin n × Nat)}

theorem SameCode.insnAddrs (h : SameCode blocks blocks') (k : Fin n) :
    (blocks k).insnAddrs = (blocks' k).insnAddrs := by
  have hsame := congrArg MyStaticRec.insnAddrs (h k)
  exact hsame

theorem SameCode.num_insns (h : SameCode blocks blocks') (k : Fin n) :
    (blocks k).bb.num_insns = (blocks' k).bb.num_insns := by
  have hsame := congrArg (fun b : MyStaticRec n => b.bb.num_insns) (h k)
  exact hsame

theorem SameCode.inner (h : SameCode blocks blocks') (k : Fin n) :
    (blocks k).inner = (blocks' k).inner := by
  have hsame := congrArg (fun b : MyStaticRec n => b.inner) (h k)
  exact hsame

theorem SameCode.chain (h : SameCode blocks blocks')
    (hchain : Chain (fun k => (blocks' k).inner) head ks) :
    Chain (fun k => (blocks k).inner) head ks :=
  hchain.congr fun k _ => h.inner k

theorem addFreq_eq (blocks : Fin n → MyStaticRec n) (bptr k : Fin n) :
    addFreq blocks bptr k = { blocks k with freq := (addFreq blocks bptr k).freq } := by
  unfold addFreq
  by_cases h : k = bptr
  · grind
  · rw [Function.update_of_ne h]

theorem foldl_addFreq_eq (blocks : Fin n → MyStaticRec n) (ks : List (Fin n)) (k : Fin n) :
    ks.foldl addFreq blocks k = { blocks k with freq := (ks.foldl addFreq blocks k).freq } := by
  induction ks generalizing blocks with
  | nil => rfl
  | cons bptr ks ih =>
      have hrest := ih (addFreq blocks bptr)
      rw [addFreq_eq blocks bptr k] at hrest
      exact hrest

theorem addFreq_sameCode (blocks : Fin n → MyStaticRec n) (bptr : Fin n) :
    SameCode (addFreq blocks bptr) blocks := by
  intro k
  rw [addFreq_eq]
  rfl

theorem foldl_addFreq_sameCode (blocks : Fin n → MyStaticRec n) (ks : List (Fin n)) :
    SameCode (ks.foldl addFreq blocks) blocks := by
  intro k
  rw [foldl_addFreq_eq]
  rfl

theorem addElapsed_same (blocks : Fin n → MyStaticRec n) (elapsed : BitVec 32)
    (cycle_ptr : Option (Fin n × Nat)) (k : Fin n) :
    (addElapsed blocks elapsed cycle_ptr k).uncharged = (blocks k).uncharged ∧
      (addElapsed blocks elapsed cycle_ptr k).freq = (blocks k).freq := by
  cases cycle_ptr with
  | none => exact ⟨rfl, rfl⟩
  | some slot =>
      obtain ⟨k', ii⟩ := slot
      rw [addElapsed]
      by_cases h : k = k'
      · subst h
        rw [Function.update_self]
        exact ⟨rfl, rfl⟩
      · grind

variable (ReadInsnTime time) in
theorem foldl_chargeInsn_same (p : Profile n ρ) (insns : List (Fin n × Nat)) (k : Fin n) :
    ((insns.foldl (chargeInsn ReadInsnTime time) p).blocks k).uncharged =
        (p.blocks k).uncharged ∧
      ((insns.foldl (chargeInsn ReadInsnTime time) p).blocks k).freq = (p.blocks k).freq := by
  induction insns generalizing p with
  | nil => exact ⟨rfl, rfl⟩
  | cons insn insns ih =>
      obtain ⟨hcode, hfreq⟩ := ih (chargeInsn ReadInsnTime time p insn)
      obtain ⟨hcode', hfreq'⟩ := addElapsed_same p.blocks
        ((ReadInsnTime p.reader time).1.setWidth 32 - p.prev_time) p.cycle_ptr k
      exact ⟨hcode.trans hcode', hfreq.trans hfreq'⟩

/-! ## What an event charges -/

def insnSlots (blocks : Fin n → MyStaticRec n) (ks : List (Fin n)) : List (Fin n × Nat) :=
  ks.flatMap fun k => (List.range (blocks k).bb.num_insns.toNat).map (Prod.mk k)

theorem insnSlots_cons (blocks : Fin n → MyStaticRec n) (k : Fin n) (ks : List (Fin n)) :
    insnSlots blocks (k :: ks) =
      (List.range (blocks k).bb.num_insns.toNat).map (Prod.mk k) ++ insnSlots blocks ks :=
  List.flatMap_cons

theorem SameCode.insnSlots (h : SameCode blocks blocks') (ks : List (Fin n)) :
    insnSlots blocks ks = insnSlots blocks' ks := by
  unfold Qtools.insnSlots
  simp only [h.num_insns]

theorem insnSlots_map (blocks : Fin n → MyStaticRec n) (ks : List (Fin n)) :
    (insnSlots blocks ks).map (fun s => (blocks s.1).insnAt s.2) =
      ks.flatMap fun k => (blocks k).insnAddrs := by
  unfold Qtools.insnSlots MyStaticRec.insnAddrs
  simp only [List.map_flatMap, List.map_map]
  rfl

theorem lt_of_mem_insnSlots {s : Fin n × Nat} (hs : s ∈ insnSlots blocks ks) :
    s.2 < (blocks s.1).bb.num_insns.toNat := by
  obtain ⟨k, -, hs⟩ := List.mem_flatMap.mp hs
  grind

theorem chargeBlock_eq (k : Fin n) (ii left e : Nat) (p : Profile n ρ) :
    chargeBlock ReadInsnTime time k ii left e p =
      (((e - left : Nat) : Int),
        (((List.range' ii left).map (Prod.mk k)).take e).foldl (chargeInsn ReadInsnTime time) p) := by
  induction left generalizing ii e p with
  | zero =>
      rw [List.range'_zero, List.map_nil, List.take_nil]
      rfl
  | succ left ih =>
      rw [chargeBlock]
      cases e with
      | zero => simp
      | succ e =>
          have hpred : ((e + 1 : Nat) : Int) - 1 = (e : Nat) := by omega
          rw [if_neg (by omega), hpred, ih, Nat.add_sub_add_right]
          rfl

/-- The time passes over the instructions of the block and of its inner blocks, one after the
other. -/
theorem chargeChain_eq {fuel : Nat} (hchain : Chain (fun k => (p.blocks k).inner) head ks)
    (hfuel : ks.length ≤ fuel) (e : Nat) :
    chargeChain ReadInsnTime time fuel head e p =
      some (((insnSlots p.blocks ks).take e).foldl (chargeInsn ReadInsnTime time) p) := by
  induction ks generalizing head fuel e p with
  | nil =>
      rw [show head = none from hchain]
      rw [insnSlots, List.flatMap_nil, List.take_nil]
      cases fuel <;> rfl
  | cons k ks ih =>
      obtain ⟨rfl, hrest⟩ := hchain
      cases fuel with
      | zero => cases hfuel
      | succ fuel =>
          rw [chargeChain, chargeBlock_eq, ← List.range_eq_range']
          have hcode : SameCode _ p.blocks := fun k' => (foldl_chargeInsn_same ReadInsnTime time p
            (((List.range (p.blocks k).bb.num_insns.toNat).map (Prod.mk k)).take e) k').1
          dsimp only
          rw [hcode.inner k, ih (hcode.chain hrest) (Nat.le_of_succ_le_succ hfuel),
            hcode.insnSlots, insnSlots_cons, List.take_append, List.foldl_append, List.length_map,
            List.length_range]

theorem chargeFreq_eq {fuel : Nat} (hchain : Chain (fun k => (blocks k).inner) head ks)
    (hfuel : ks.length ≤ fuel) :
    chargeFreq fuel head blocks = some (ks.foldl addFreq blocks) := by
  induction ks generalizing head fuel blocks with
  | nil =>
      rw [show head = none from hchain]
      cases fuel <;> rfl
  | cons k ks ih =>
      obtain ⟨rfl, hrest⟩ := hchain
      cases fuel with
      | zero => cases hfuel
      | succ fuel =>
          have hcode := addFreq_sameCode blocks k
          rw [chargeFreq, hcode.inner k, ih (hcode.chain hrest) (Nat.le_of_succ_le_succ hfuel)]
          rfl

variable (ReadInsnTime time) in
theorem chargeEvent_eq (hchain : Chain (fun k => (p.blocks k).inner) (some k) ks)
    (hlength : ks.length ≤ n) (e : Nat) :
    chargeEvent ReadInsnTime time k e p =
      some (((insnSlots p.blocks ks).take e).foldl (chargeInsn ReadInsnTime time)
        { p with blocks := ks.foldl addFreq p.blocks }) := by
  have hcode := foldl_addFreq_sameCode p.blocks ks
  rw [chargeEvent, chargeFreq_eq hchain hlength, Option.bind_some,
    chargeChain_eq (p := { p with blocks := ks.foldl addFreq p.blocks }) (hcode.chain hchain)
      hlength, hcode.insnSlots]

/-- How often an instruction was executed, as the frequencies have it. -/
def frequency (blocks : Fin n → MyStaticRec n) (insn : Bool × BitVec 32) : Nat :=
  ∑ k, (blocks k).freq * (blocks k).insnAddrs.count insn

theorem frequency_addFreq (blocks : Fin n → MyStaticRec n) (bptr : Fin n)
    (insn : Bool × BitVec 32) : frequency (addFreq blocks bptr) insn =
      frequency blocks insn + (blocks bptr).insnAddrs.count insn := by
  have hterm : ∀ k, (addFreq blocks bptr k).freq * (addFreq blocks bptr k).insnAddrs.count insn =
      (blocks k).freq * (blocks k).insnAddrs.count insn +
        if k = bptr then (blocks bptr).insnAddrs.count insn else 0 := by
    intro k
    rw [(addFreq_sameCode blocks bptr).insnAddrs k, addFreq]
    grind
  simp [frequency, Finset.sum_add_distrib, Finset.sum_ite_eq', hterm]

theorem frequency_foldl (blocks : Fin n → MyStaticRec n) (ks : List (Fin n))
    (insn : Bool × BitVec 32) : frequency (ks.foldl addFreq blocks) insn =
      frequency blocks insn + (ks.flatMap fun k => (blocks k).insnAddrs).count insn := by
  induction ks generalizing blocks with
  | nil => rfl
  | cons k ks ih =>
      have hcode := addFreq_sameCode blocks k
      rw [List.foldl_cons, ih, frequency_addFreq, List.flatMap_cons, List.count_append]
      simp only [hcode.insnAddrs]
      omega

theorem frequency_chargeInsn (p : Profile n ρ) (insns : List (Fin n × Nat))
    (insn : Bool × BitVec 32) :
    frequency (insns.foldl (chargeInsn ReadInsnTime time) p).blocks insn =
      frequency p.blocks insn := by
  have hcode : SameCode _ p.blocks := fun k =>
    (foldl_chargeInsn_same ReadInsnTime time p insns k).1
  simp [frequency, hcode.insnAddrs, foldl_chargeInsn_same]

end

/-! ## Executions of a block -/

/-- An execution of a block counts once for each of its own instructions and for no other, and the
time passes over the first `e` of them in order. -/
structure Charges (own : List (Bool × BitVec 32)) (e : Nat) (p p' : Profile n ρ) : Prop where
  freq : ∀ insn, frequency p'.blocks insn = frequency p.blocks insn + if insn ∈ own then 1 else 0
  cycles : ∃ (blocks : Fin n → MyStaticRec n) (insns : List (Fin n × Nat)),
    (∀ k, blocks k = { p.blocks k with freq := (blocks k).freq }) ∧
    (∀ s ∈ insns, s.2 < (p.blocks s.1).bb.num_insns.toNat) ∧
    insns.map (fun s => (p.blocks s.1).insnAt s.2) = own.take e ∧
    p' = insns.foldl (chargeInsn ReadInsnTime time) { p with blocks }

/-- What is expected of `assign_inner_blocks` for the blocks of a trace. -/
structure AssignsInner (q : Qsort) (recs : Fin n → StaticRec) : Prop where
  disjoint : ∀ i j, i ≠ j →
    (assign_inner_blocks q (fun k => read (recs k)) i).insnAddrs.Disjoint
      (assign_inner_blocks q (fun k => read (recs k)) j).insnAddrs
  once : ∀ k, (read (n := n) (recs k)).insnAddrs.Nodup
  begins : ∀ k, ∃ inners,
    Chain (fun k => (assign_inner_blocks q (fun k => read (recs k)) k).inner) (some k)
      (k :: inners) ∧
    (read (n := n) (recs k)).insnAddrs <+: (k :: inners).flatMap fun k =>
      (assign_inner_blocks q (fun k => read (recs k)) k).insnAddrs
  charges : ∀ k (e : Nat) time (p : Profile n ρ),
    SameCode p.blocks (assign_inner_blocks q fun k => read (recs k)) →
    ∃ p', chargeEvent ReadInsnTime time k e p = some p' ∧
      Charges ReadInsnTime time (read (n := n) (recs k)).insnAddrs e p p'

/-- No block is longer than the address space, and of two blocks the later one is an end of the
first where it begins in front of its end. -/
structure NestedBlocks (blocks : Fin n → MyStaticRec n) : Prop where
  fits : ∀ k, (blocks k).bb.num_insns.toNat * 2 ^ (blocks k).shift ≤ 2 ^ 32
  nests : ∀ i j, incAddr blocks i < incAddr blocks j → (blocks i).Nests (blocks j)

section

variable {blocks : Fin n → MyStaticRec n} {k : Fin n} {ks : List (Fin n)}

theorem sort_nodup (q : Qsort) (blocks : Fin n → MyStaticRec n) :
    (q.sort (incAddr blocks) (List.finRange n)).Nodup :=
  (q.perm _ _).nodup_iff.mpr (List.nodup_finRange n)

theorem mem_sort_finRange (q : Qsort) (blocks : Fin n → MyStaticRec n) (k : Fin n) :
    k ∈ q.sort (incAddr blocks) (List.finRange n) :=
  (q.mem_sort _).mpr (List.mem_finRange k)

theorem sort_addr (q : Qsort) (blocks : Fin n → MyStaticRec n) :
    (q.sort (incAddr blocks) (List.finRange n)).Pairwise fun i j =>
      (blocks i).bb.bb_addr ≤ (blocks j).bb.bb_addr := by
  refine (q.sorted (incAddr blocks) (List.finRange n)).imp fun {i j} h => ?_
  rcases Prod.Lex.toLex_le_toLex.mp h with hlt | ⟨heq, -⟩
  · exact BitVec.le_def.mpr (Nat.le_of_lt hlt)
  · exact BitVec.le_def.mpr (Nat.le_of_eq heq)

theorem incAddr_inj {i j : Fin n} (h : incAddr blocks i = incAddr blocks j) : i = j :=
  (Prod.ext_iff.mp (toLex.injective h)).2

/-- The order of two blocks is the one they are sorted in. -/
theorem nests_iff_pairwise (q : Qsort) (blocks : Fin n → MyStaticRec n) :
    (∀ i j, incAddr blocks i < incAddr blocks j → (blocks i).Nests (blocks j)) ↔
      (q.sort (incAddr blocks) (List.finRange n)).Pairwise fun i j =>
        (blocks i).Nests (blocks j) := by
  have hsorted := q.sorted (incAddr blocks) (List.finRange n)
  constructor
  · intro h
    refine (hsorted.and (sort_nodup q blocks)).imp fun {i j} hij => h i j ?_
    exact lt_of_le_of_ne hij.1 fun heq => hij.2 (incAddr_inj heq)
  · intro h i j hij
    obtain ⟨a, ha, hi⟩ := List.getElem_of_mem (mem_sort_finRange q blocks i)
    obtain ⟨b, hb, hj⟩ := List.getElem_of_mem (mem_sort_finRange q blocks j)
    rcases Nat.lt_trichotomy a b with hab | rfl | hba
    · have hnests := List.pairwise_iff_getElem.mp h a b ha hb hab
      rwa [hi, hj] at hnests
    · grind
    · have hle := List.pairwise_iff_getElem.mp hsorted b a hb ha hba
      grind

/-- Nothing but the own instructions is met if each of them is, and none twice. -/
theorem eq_of_prefix_of_count {own whole : List (Bool × BitVec 32)} (hpre : own <+: whole)
    (hcount : ∀ insn, whole.count insn = if insn ∈ own then 1 else 0) : whole = own := by
  obtain ⟨more, rfl⟩ := hpre
  cases more with
  | nil => exact List.append_nil own
  | cons insn more =>
      have h := hcount insn
      grind

variable {recs : Fin n → StaticRec}

theorem assign_inner_blocks_assigned (q : Qsort) (blocks : Fin n → MyStaticRec n) :
    Assigned blocks (assign_inner_blocks q blocks)
      (q.sort (incAddr blocks) (List.finRange n)) :=
  (assignLoop_assigned blocks (sort_nodup q blocks)).1

theorem exists_inners (q : Qsort) (blocks : Fin n → MyStaticRec n)
    (hinner : ∀ k, (blocks k).inner = none) (k : Fin n) :
    ∃ inners, Chain (fun k => (assign_inner_blocks q blocks k).inner) (some k) (k :: inners) ∧
      (k :: inners).length ≤ n := by
  obtain ⟨inners, hchain, hsub⟩ := (assign_inner_blocks_assigned q blocks).exists_chain
    (fun k _ => hinner k) (mem_sort_finRange q blocks k)
  refine ⟨inners, hchain, hsub.length_le.trans ?_⟩
  rw [(q.perm _ _).length_eq, List.length_finRange]

end

variable {q : Qsort} {recs : Fin n → StaticRec}

theorem NestedBlocks.assignsInner (h : NestedBlocks fun k => read (n := n) (recs k)) :
    AssignsInner ReadInsnTime q recs := by
  have hassigned := assign_inner_blocks_assigned q fun k => read (n := n) (recs k)
  have hfits : ∀ k, (read (n := n) (recs k)).insnAddrs.Nodup := fun k =>
    insnAddrs_nodup_iff.mpr (h.fits k)
  have hnests := (nests_iff_pairwise q _).mp h.nests
  have haddr := sort_addr q fun k => read (n := n) (recs k)
  have hmem := mem_sort_finRange q fun k => read (n := n) (recs k)
  have hwhole : ∀ k, ∃ inners, Chain _ (some k) (k :: inners) ∧ _ := fun k =>
    hassigned.chain_insnAddrs (fun _ _ => rfl) haddr (fun k _ => hfits k) hnests (hmem k)
  refine ⟨fun i j hij => ?_, hfits, fun k => ?_, fun k e time p hcode => ?_⟩
  · have hdisjoint := hassigned.disjoint haddr (fun k _ => hfits k) hnests
    have hsymm : Std.Symm fun i j : Fin n =>
        (assign_inner_blocks q (fun k => read (recs k)) i).insnAddrs.Disjoint
          (assign_inner_blocks q (fun k => read (recs k)) j).insnAddrs := ⟨fun _ _ h => h.symm⟩
    exact hdisjoint.forall (hmem i) (hmem j) hij
  · obtain ⟨inners, hchain, hjoin⟩ := hwhole k
    exact ⟨inners, hchain, by rw [hjoin]⟩
  · obtain ⟨inners, hchain, hjoin⟩ := hwhole k
    obtain ⟨inners', hchain', hlength⟩ :=
      exists_inners q (fun k => read (recs k)) (fun _ => rfl) k
    rw [← hchain.unique hchain'] at hlength
    have hrun := chargeEvent_eq ReadInsnTime time (hcode.chain hchain) hlength e
    have hown : ((k :: inners).flatMap fun k => (p.blocks k).insnAddrs) =
        (read (n := n) (recs k)).insnAddrs := by
      rw [← hjoin]
      simp only [hcode.insnAddrs]
    refine ⟨_, hrun, fun insn => ?_, _, _, fun i => ?_, fun s hs => ?_, ?_, rfl⟩
    · rw [frequency_chargeInsn]
      dsimp only
      rw [frequency_foldl, hown, (hfits k).count]
    · exact foldl_addFreq_eq _ _ _
    · exact lt_of_mem_insnSlots (List.mem_of_mem_take hs)
    · rw [List.map_take, insnSlots_map, hown]

/-- From a profile in which nothing was executed, a whole chain is seen to be charged. -/
theorem AssignsInner.nestedBlocks (reader : ρ) (h : AssignsInner ReadInsnTime q recs) :
    NestedBlocks fun k => read (n := n) (recs k) := by
  have hassigned := assign_inner_blocks_assigned q fun k => read (n := n) (recs k)
  have haddr := sort_addr q fun k => read (n := n) (recs k)
  refine ⟨fun k => insnAddrs_nodup_iff.mp (h.once k), (nests_iff_pairwise q _).mpr ?_⟩
  have hdisjoint := (sort_nodup q fun k => read (n := n) (recs k)).imp fun {i j} hij =>
    h.disjoint i j hij
  refine hassigned.nests (fun _ _ => rfl) haddr hdisjoint fun k _ ks hchain => ?_
  obtain ⟨inners, hchain', hpre⟩ := h.begins k
  obtain ⟨inners', hchain'', hlength⟩ :=
    exists_inners q (fun k => read (recs k)) (fun _ => rfl) k
  rw [← hchain'.unique hchain''] at hlength
  rw [hchain.unique hchain']
  refine eq_of_prefix_of_count hpre fun insn => ?_
  obtain ⟨p', hrun, hcharges⟩ := h.charges k 0 0
    ⟨assign_inner_blocks q fun k => read (recs k), 0, none, reader⟩ fun _ => rfl
  have hfreq := hcharges.freq insn
  have hchain₀ : Chain (fun k => ((⟨assign_inner_blocks q fun k => read (recs k), 0, none,
      reader⟩ : Profile n ρ).blocks k).inner) (some k) (k :: inners) := hchain'
  rw [chargeEvent_eq ReadInsnTime 0 hchain₀ hlength 0] at hrun
  rw [← Option.some.inj hrun, frequency_chargeInsn] at hfreq
  grind [frequency_foldl]

/-- Inner blocks are assigned as expected exactly if the blocks nest. -/
theorem assignsInner_iff (reader : ρ) (q : Qsort) (recs : Fin n → StaticRec) :
    AssignsInner ReadInsnTime q recs ↔ NestedBlocks fun k => read (n := n) (recs k) :=
  ⟨fun h => h.nestedBlocks ReadInsnTime reader, fun h => h.assignsInner ReadInsnTime⟩

/-- Four instructions, and the second of them once more, alone. -/
private def nested : Fin 2 → StaticRec
  | 0 => ⟨0x8000, 4⟩
  | 1 => ⟨0x8004, 1⟩

/-- The last two instructions of the outer block are in no block of its chain. -/
theorem nested_lost : ¬∀ (q : Qsort) (n : Nat) (recs : Fin n → StaticRec),
    AssignsInner (fun reader min_time => (min_time, (reader : Unit))) q recs := by
  intro h
  obtain ⟨inners, hchain, hpre⟩ := (h Qsort.byInsertion 2 nested).begins 0
  have hinner : (assign_inner_blocks Qsort.byInsertion (fun k => read (nested k)) 0).inner =
      some 1 := by decide +kernel
  have hlast : (assign_inner_blocks Qsort.byInsertion (fun k => read (nested k)) 1).inner =
      none := by decide +kernel
  have hpath : Chain
      (fun k => (assign_inner_blocks Qsort.byInsertion (fun k => read (nested k)) k).inner)
      (some 0) [0, 1] := ⟨rfl, hinner, hlast⟩
  rw [hchain.unique hpath] at hpre
  exact absurd hpre.length_le (by decide +kernel)

end AndroidRenderer.Qtools
