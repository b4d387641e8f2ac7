import AndroidRenderer.Lib.NodeList
import AndroidRenderer.Lib.Sorting
import Mathlib.Algebra.Ring.Nat
import Mathlib.Data.List.Lex
import Mathlib.Data.List.FinRange
import Mathlib.Data.Prod.Lex

/-!
# Basic blocks inside other basic blocks

The static basic blocks of a trace may overlap. `assign_inner_blocks` sorts them by address, cuts
each block where the next one begins and links it to that one, its inner block. The instructions
that were cut off are meant to be found in the inner block and the blocks inside of it.
-/

namespace AndroidRenderer.Qtools

open NodeList

/-- The number of a record is its place among the records. -/
structure StaticRec where
  bb_addr : BitVec 32
  num_insns : BitVec 32

/-- One of `n` blocks; a pointer to a block is its number. -/
structure MyStaticRec (n : Nat) where
  bb : StaticRec
  cycles : List (BitVec 32)
  elapsed : BitVec 32
  freq : Nat
  inner : Option (Fin n)
  is_thumb : Bool

namespace MyStaticRec

variable {n : Nat}

def read (bb : StaticRec) : MyStaticRec n where
  bb := { bb with bb_addr := bb.bb_addr &&& ~~~1 }
  cycles := List.replicate bb.num_insns.toNat 0
  elapsed := 0
  freq := 0
  inner := none
  is_thumb := bb.bb_addr &&& 1 ≠ 0

/-- Two or four bytes an instruction. -/
def shift (b : MyStaticRec n) : Nat := if b.is_thumb then 1 else 2

def addr_end (b : MyStaticRec n) : BitVec 32 := b.bb.bb_addr + (b.bb.num_insns <<< b.shift)

/-- The body of the loop in `assign_inner_blocks`, for a block and the one behind it. -/
def cut (b : MyStaticRec n) (next : Fin n) (addr : BitVec 32) : MyStaticRec n :=
  if b.addr_end > addr then
    let addr_diff := addr - b.bb.bb_addr
    { b with inner := some next, bb := { b.bb with num_insns := addr_diff >>> b.shift } }
  else b

/-- The instructions of the block, each with its mode and its address. -/
def insnAt (b : MyStaticRec n) (i : Nat) : Bool × BitVec 32 :=
  (b.is_thumb, b.bb.bb_addr + BitVec.ofNat 32 (i * 2 ^ b.shift))

def insnAddrs (b : MyStaticRec n) : List (Bool × BitVec 32) :=
  (List.range b.bb.num_insns.toNat).map b.insnAt

variable {a b : MyStaticRec n} {next : Fin n} {addr : BitVec 32} {i d : Nat}

theorem addr_lt_of_le_of_lt {x y z : BitVec 32} (hxy : x ≤ y) (hyz : y < z) : x < z :=
  BitVec.lt_def.mpr (Nat.lt_of_le_of_lt (BitVec.le_def.mp hxy) (BitVec.lt_def.mp hyz))

@[simp] theorem insnAddrs_length (b : MyStaticRec n) :
    b.insnAddrs.length = b.bb.num_insns.toNat := by
  rw [insnAddrs, List.length_map, List.length_range]

theorem insnAddrs_getElem? (hi : i < b.bb.num_insns.toNat) :
    b.insnAddrs[i]? = some (b.insnAt i) := by
  rw [insnAddrs, List.getElem?_map, List.getElem?_range hi]
  rfl

theorem shift_cases (b : MyStaticRec n) : b.shift = 1 ∨ b.shift = 2 := by
  unfold shift
  simp

theorem addr_end_toNat (b : MyStaticRec n) : b.addr_end.toNat =
    (b.bb.bb_addr.toNat + b.bb.num_insns.toNat * 2 ^ b.shift) % 2 ^ 32 := by
  rw [addr_end, BitVec.toNat_add, BitVec.toNat_shiftLeft, Nat.shiftLeft_eq, Nat.add_mod_mod]

/-- A block covers no address twice if it is not longer than the address space. -/
theorem insnAddrs_nodup_iff :
    b.insnAddrs.Nodup ↔ b.bb.num_insns.toNat * 2 ^ b.shift ≤ 2 ^ 32 := by
  constructor
  · intro hnodup
    by_contra hlong
    -- the instruction at this place is at the address of the first one
    obtain ⟨m, hm, hpos⟩ : ∃ m, m * 2 ^ b.shift = 2 ^ 32 ∧ 0 < m := by
      rcases b.shift_cases with h | h <;> rw [h]
      · exact ⟨2 ^ 31, by decide, by decide⟩
      · exact ⟨2 ^ 30, by decide, by decide⟩
    have hlt : m < b.bb.num_insns.toNat := by
      refine Nat.lt_of_mul_lt_mul_right (a := 2 ^ b.shift) ?_
      omega
    have hsame : b.insnAt m = b.insnAt 0 := by
      rw [insnAt, insnAt, hm, Nat.zero_mul]
      rfl
    have h₀ := insnAddrs_getElem? (b := b) (Nat.lt_trans hpos hlt)
    have h₁ := insnAddrs_getElem? hlt
    rw [hsame, ← h₀] at h₁
    have heq := (List.getElem?_inj (by rwa [insnAddrs_length]) hnodup).mp h₁
    omega
  · intro hfits
    refine List.Nodup.map_on (fun i hi j hj hsame => ?_) List.nodup_range
    rw [List.mem_range] at hi hj
    have hpos : 0 < 2 ^ b.shift := Nat.two_pow_pos _
    have hlt : ∀ k < b.bb.num_insns.toNat, k * 2 ^ b.shift < 2 ^ 32 := fun k hk =>
      Nat.lt_of_lt_of_le (Nat.mul_lt_mul_of_pos_right hk hpos) hfits
    have haddr := congrArg BitVec.toNat (BitVec.add_right_inj _ |>.mp (Prod.ext_iff.mp hsame).2)
    rw [BitVec.toNat_ofNat, BitVec.toNat_ofNat, Nat.mod_eq_of_lt (hlt i hi),
      Nat.mod_eq_of_lt (hlt j hj)] at haddr
    exact Nat.eq_of_mul_eq_mul_right hpos haddr

/-! ## Cutting one block -/

theorem cut_of_le (h : ¬addr < b.addr_end) : b.cut next addr = b := if_neg h

theorem cut_of_lt (h : addr < b.addr_end) : b.cut next addr =
    { b with
      inner := some next
      bb := { b.bb with num_insns := (addr - b.bb.bb_addr) >>> b.shift } } := if_pos h

@[simp] theorem cut_bb_addr (b : MyStaticRec n) (next : Fin n) (addr : BitVec 32) :
    (b.cut next addr).bb.bb_addr = b.bb.bb_addr := by
  unfold cut
  split <;> rfl

@[simp] theorem cut_is_thumb (b : MyStaticRec n) (next : Fin n) (addr : BitVec 32) :
    (b.cut next addr).is_thumb = b.is_thumb := by
  unfold cut
  split <;> rfl

@[simp] theorem cut_insnAt (b : MyStaticRec n) (next : Fin n) (addr : BitVec 32) :
    (b.cut next addr).insnAt = b.insnAt := by
  funext i
  unfold insnAt shift
  rw [cut_bb_addr, cut_is_thumb]

theorem cut_num_insns (next : Fin n) (h : addr < b.addr_end) (hle : b.bb.bb_addr ≤ addr) :
    (b.cut next addr).bb.num_insns.toNat =
        (addr.toNat - b.bb.bb_addr.toNat) / 2 ^ b.shift ∧
      (b.cut next addr).bb.num_insns.toNat < b.bb.num_insns.toNat := by
  have hnum : (b.cut next addr).bb.num_insns.toNat =
      (addr.toNat - b.bb.bb_addr.toNat) / 2 ^ b.shift := by
    rw [cut_of_lt h]
    dsimp only
    rw [BitVec.toNat_ushiftRight, Nat.shiftRight_eq_div_pow, BitVec.toNat_sub_of_le hle]
  refine ⟨hnum, ?_⟩
  rw [hnum, Nat.div_lt_iff_lt_mul (Nat.two_pow_pos _)]
  have hend := BitVec.lt_def.mp h
  rw [addr_end_toNat] at hend
  have := Nat.mod_le (b.bb.bb_addr.toNat + b.bb.num_insns.toNat * 2 ^ b.shift) (2 ^ 32)
  have := BitVec.le_def.mp hle
  omega

/-- What is left of a block are its first instructions. -/
theorem cut_insnAddrs (hle : b.bb.bb_addr ≤ addr) : (b.cut next addr).insnAddrs =
    b.insnAddrs.take (b.cut next addr).bb.num_insns.toNat := by
  rw [insnAddrs, insnAddrs, cut_insnAt, ← List.map_take, List.take_range]
  grind [cut_of_le, cut_num_insns]

/-- The instructions of `b` are the last of `a`, and at least one. -/
def EndOf (b a : MyStaticRec n) : Prop :=
  ∃ d < a.bb.num_insns.toNat, b.insnAddrs = a.insnAddrs.drop d

/-- What is asked of two blocks of which `a` comes first in the order of addresses: where `a` is
cut because of `b`, `b` is its end. -/
def Nests (a b : MyStaticRec n) : Prop :=
  if b.bb.bb_addr < a.addr_end then b.EndOf a else a.insnAddrs.Disjoint b.insnAddrs

theorem num_insns_of_drop (h : b.insnAddrs = a.insnAddrs.drop d) :
    b.bb.num_insns.toNat = a.bb.num_insns.toNat - d := by
  have hlength := congrArg List.length h
  rwa [List.length_drop, insnAddrs_length, insnAddrs_length] at hlength

/-- A block that is the end of another begins at one of its instructions. -/
theorem insnAt_of_drop (hd : d < a.bb.num_insns.toNat) (h : b.insnAddrs = a.insnAddrs.drop d) :
    b.insnAt 0 = a.insnAt d := by
  have hpos : 0 < b.bb.num_insns.toNat := by
    rw [num_insns_of_drop h]
    omega
  have hfirst := insnAddrs_getElem? hpos
  rw [h, List.getElem?_drop, Nat.add_zero, insnAddrs_getElem? hd] at hfirst
  exact (Option.some.inj hfirst).symm

theorem insnAt_zero (b : MyStaticRec n) : b.insnAt 0 = (b.is_thumb, b.bb.bb_addr) := by
  rw [insnAt, Nat.zero_mul, BitVec.add_zero]

/-- The end of a block that does not run around the address space lies where its instructions
do. -/
theorem addr_of_drop (hfits : a.insnAddrs.Nodup) (hle : a.bb.bb_addr ≤ b.bb.bb_addr)
    (hd : d < a.bb.num_insns.toNat) (h : b.insnAddrs = a.insnAddrs.drop d) :
    b.bb.bb_addr.toNat = a.bb.bb_addr.toNat + d * 2 ^ a.shift := by
  have haddr := congrArg Prod.snd (insnAt_of_drop hd h)
  rw [insnAt_zero, insnAt] at haddr
  dsimp only at haddr
  have hlt : d * 2 ^ a.shift < 2 ^ 32 :=
    Nat.lt_of_lt_of_le (Nat.mul_lt_mul_of_pos_right hd (Nat.two_pow_pos _))
      (insnAddrs_nodup_iff.mp hfits)
  have hnat := congrArg BitVec.toNat haddr
  rw [BitVec.toNat_add, BitVec.toNat_ofNat, Nat.mod_eq_of_lt hlt] at hnat
  have := BitVec.le_def.mp hle
  omega

theorem EndOf.trans {c : MyStaticRec n} (hcb : c.EndOf b) (hba : b.EndOf a) : c.EndOf a := by
  obtain ⟨d, hd, hdrop⟩ := hcb
  obtain ⟨d', hd', hdrop'⟩ := hba
  have hnum := num_insns_of_drop hdrop'
  refine ⟨d' + d, by omega, ?_⟩
  rw [hdrop, hdrop', List.drop_drop]

/-- The block is cut exactly in front of its end. -/
theorem cut_of_drop (hfits : a.insnAddrs.Nodup) (hle : a.bb.bb_addr ≤ b.bb.bb_addr)
    (hcut : b.bb.bb_addr < a.addr_end) (hd : d < a.bb.num_insns.toNat)
    (h : b.insnAddrs = a.insnAddrs.drop d) :
    (a.cut next b.bb.bb_addr).bb.num_insns.toNat = d := by
  rw [(cut_num_insns next hcut hle).1, addr_of_drop hfits hle hd h, Nat.add_sub_cancel_left,
    Nat.mul_div_cancel _ (Nat.two_pow_pos _)]

/-- Where the instructions go on in the next block, that block is the end, and both end at the
same address. -/
theorem endOf_of_cut (next : Fin n) (hle : a.bb.bb_addr ≤ b.bb.bb_addr)
    (hcut : b.bb.bb_addr < a.addr_end)
    (h : a.insnAddrs = (a.cut next b.bb.bb_addr).insnAddrs ++ b.insnAddrs) :
    b.EndOf a ∧ b.addr_end = a.addr_end := by
  have hd := (cut_num_insns next hcut hle).2
  have hdrop : b.insnAddrs =
      a.insnAddrs.drop (a.cut next b.bb.bb_addr).bb.num_insns.toNat := by
    rw [h, List.drop_left' (insnAddrs_length _)]
  refine ⟨⟨_, hd, hdrop⟩, ?_⟩
  generalize (a.cut next b.bb.bb_addr).bb.num_insns.toNat = d at hd hdrop
  have hfirst := insnAt_of_drop hd hdrop
  rw [insnAt_zero, insnAt] at hfirst
  obtain ⟨hthumb, haddr⟩ := Prod.ext_iff.mp hfirst
  dsimp only at hthumb haddr
  have hshift : b.shift = a.shift := by
    unfold shift
    rw [hthumb]
  refine BitVec.eq_of_toNat_eq ?_
  rw [addr_end_toNat, addr_end_toNat, hshift, num_insns_of_drop hdrop, haddr, BitVec.toNat_add,
    BitVec.toNat_ofNat, Nat.add_mod_mod, Nat.mod_add_mod, Nat.add_assoc, ← Nat.add_mul,
    Nat.add_sub_cancel' (Nat.le_of_lt hd)]

end MyStaticRec

/-! ## The blocks in the order of their addresses -/

open MyStaticRec

variable {n : Nat} {blocks after : Fin n → MyStaticRec n} {i j k : Fin n}
  {list rest ks : List (Fin n)}

/-- The loop of `assign_inner_blocks`, over the rest of the sorted pointers. -/
def assignLoop : List (Fin n) → (Fin n → MyStaticRec n) → Fin n → MyStaticRec n
  | ii :: next :: rest, blocks =>
      assignLoop (next :: rest)
        (Function.update blocks ii ((blocks ii).cut next (blocks next).bb.bb_addr))
  | _, blocks => blocks

/-- What `cmp_inc_addr` compares. -/
def incAddr (blocks : Fin n → MyStaticRec n) (k : Fin n) : Lex (Nat × Fin n) :=
  toLex ((blocks k).bb.bb_addr.toNat, k)

/-- `assign_inner_blocks`, for the blocks of both programs. -/
def assign_inner_blocks (q : Qsort) (blocks : Fin n → MyStaticRec n) : Fin n → MyStaticRec n :=
  assignLoop (q.sort (incAddr blocks) (List.finRange n)) blocks

/-- Each block of the list is cut where the next one begins. -/
def Assigned (blocks after : Fin n → MyStaticRec n) : List (Fin n) → Prop
  | [] => True
  | [i] => after i = blocks i
  | i :: j :: rest =>
      after i = (blocks i).cut j (blocks j).bb.bb_addr ∧ Assigned blocks after (j :: rest)

theorem Assigned.congr {blocks' : Fin n → MyStaticRec n} (h : Assigned blocks' after list)
    (hsame : ∀ k ∈ list, blocks' k = blocks k) : Assigned blocks after list := by
  induction list with
  | nil => exact trivial
  | cons i rest ih =>
      cases rest with
      | nil => grind [Assigned]
      | cons j rest =>
          obtain ⟨hcut, hrest⟩ := h
          refine ⟨?_, ih hrest fun k hk => hsame k (List.mem_cons_of_mem i hk)⟩
          grind

theorem assignLoop_assigned (blocks : Fin n → MyStaticRec n) (hnodup : list.Nodup) :
    Assigned blocks (assignLoop list blocks) list ∧
      ∀ k ∉ list, assignLoop list blocks k = blocks k := by
  induction list generalizing blocks with
  | nil => exact ⟨trivial, fun k hk => rfl⟩
  | cons i rest ih =>
      cases rest with
      | nil => exact ⟨rfl, fun k hk => rfl⟩
      | cons j rest =>
          obtain ⟨hi, hnodup⟩ := List.nodup_cons.mp hnodup
          rw [assignLoop]
          obtain ⟨hassigned, hother⟩ :=
            ih (Function.update blocks i ((blocks i).cut j (blocks j).bb.bb_addr)) hnodup
          refine ⟨⟨?_, hassigned.congr fun k hk => ?_⟩, fun k hk => ?_⟩
          · rw [hother i hi, Function.update_self]
          · grind
          · grind

/-- From every block on, the inner blocks come to an end. -/
theorem Assigned.exists_chain (h : Assigned blocks after list)
    (hinner : ∀ k ∈ list, (blocks k).inner = none) (hk : k ∈ list) :
    ∃ ks, Chain (fun k => (after k).inner) (some k) (k :: ks) ∧ (k :: ks).Sublist list := by
  induction list generalizing k with
  | nil => cases hk
  | cons i rest ih =>
      have hnone := hinner i List.mem_cons_self
      have hinner' : ∀ k ∈ rest, (blocks k).inner = none := fun k hk =>
        hinner k (List.mem_cons_of_mem i hk)
      cases rest with
      | nil =>
          obtain rfl := List.mem_singleton.mp hk
          refine ⟨[], ⟨rfl, ?_⟩, List.Sublist.refl _⟩
          dsimp only
          rw [show after k = blocks k from h, hnone]
          rfl
      | cons j rest =>
          obtain ⟨hcut, hassigned⟩ := h
          rcases List.mem_cons.mp hk with rfl | hk
          · by_cases hlt : (blocks j).bb.bb_addr < (blocks k).addr_end
            · obtain ⟨ks, hchain, hsub⟩ := ih hassigned hinner' List.mem_cons_self
              refine ⟨j :: ks, ⟨rfl, ?_⟩, hsub.cons_cons k⟩
              grind [cut_of_lt]
            · refine ⟨[], ⟨rfl, ?_⟩, List.singleton_sublist.mpr List.mem_cons_self⟩
              dsimp only
              rw [hcut, cut_of_le hlt, hnone]
              rfl
          · grind

theorem Assigned.insnAddrs_prefix (h : Assigned blocks after list)
    (hle : list.Pairwise fun i j => (blocks i).bb.bb_addr ≤ (blocks j).bb.bb_addr)
    (hk : k ∈ list) : (after k).insnAddrs <+: (blocks k).insnAddrs := by
  induction list with
  | nil => cases hk
  | cons i rest ih =>
      obtain ⟨hi, hle⟩ := List.pairwise_cons.mp hle
      cases rest with
      | nil =>
          obtain rfl := List.mem_singleton.mp hk
          have heq : after k = blocks k := h
          exact heq ▸ List.prefix_refl (after k).insnAddrs
      | cons j rest =>
          obtain ⟨hcut, hassigned⟩ := h
          grind [cut_insnAddrs]

/-- Where blocks nest, nothing of a block is lost. -/
theorem Assigned.chain_insnAddrs (h : Assigned blocks after list)
    (hinner : ∀ k ∈ list, (blocks k).inner = none)
    (hle : list.Pairwise fun i j => (blocks i).bb.bb_addr ≤ (blocks j).bb.bb_addr)
    (hfits : ∀ k ∈ list, (blocks k).insnAddrs.Nodup)
    (hnests : list.Pairwise fun i j => (blocks i).Nests (blocks j)) (hk : k ∈ list) :
    ∃ ks, Chain (fun k => (after k).inner) (some k) (k :: ks) ∧
      (k :: ks).flatMap (fun k => (after k).insnAddrs) = (blocks k).insnAddrs := by
  induction list generalizing k with
  | nil => cases hk
  | cons i rest ih =>
      have hnone := hinner i List.mem_cons_self
      have hinner' : ∀ k ∈ rest, (blocks k).inner = none := fun k hk =>
        hinner k (List.mem_cons_of_mem i hk)
      have hfits' : ∀ k ∈ rest, (blocks k).insnAddrs.Nodup := fun k hk =>
        hfits k (List.mem_cons_of_mem i hk)
      obtain ⟨hi, hle'⟩ := List.pairwise_cons.mp hle
      obtain ⟨hnest, hnests'⟩ := List.pairwise_cons.mp hnests
      have hlast : after i = blocks i → ∃ ks, Chain (fun k => (after k).inner) (some i) (i :: ks) ∧
          (i :: ks).flatMap (fun k => (after k).insnAddrs) = (blocks i).insnAddrs := by
        intro hsame
        refine ⟨[], ⟨rfl, ?_⟩, ?_⟩
        · dsimp only
          rw [hsame, hnone]
          rfl
        · rw [List.flatMap_cons, List.flatMap_nil, List.append_nil, hsame]
      cases rest with
      | nil =>
          obtain rfl := List.mem_singleton.mp hk
          exact hlast h
      | cons j rest =>
          obtain ⟨hcut, hassigned⟩ := h
          rcases List.mem_cons.mp hk with rfl | hk
          · by_cases hlt : (blocks j).bb.bb_addr < (blocks k).addr_end
            · have hle := hi j List.mem_cons_self
              have hend := hnest j List.mem_cons_self
              rw [Nests, if_pos hlt] at hend
              obtain ⟨d, hd, hdrop⟩ := hend
              obtain ⟨ks, hchain, hjoin⟩ :=
                ih hassigned hinner' hle' hfits' hnests' List.mem_cons_self
              refine ⟨j :: ks, ⟨rfl, ?_⟩, ?_⟩
              · grind [cut_of_lt]
              · rw [List.flatMap_cons, hjoin, hcut, cut_insnAddrs hle,
                  cut_of_drop (hfits k List.mem_cons_self) hle hlt hd hdrop, hdrop,
                  List.take_append_drop]
            · exact hlast (by rw [hcut, cut_of_le hlt])
          · exact ih hassigned hinner' hle' hfits' hnests' hk

/-- Where blocks nest, no instruction is left in two of them. -/
theorem Assigned.disjoint (h : Assigned blocks after list)
    (hle : list.Pairwise fun i j => (blocks i).bb.bb_addr ≤ (blocks j).bb.bb_addr)
    (hfits : ∀ k ∈ list, (blocks k).insnAddrs.Nodup)
    (hnests : list.Pairwise fun i j => (blocks i).Nests (blocks j)) :
    list.Pairwise fun i j => (after i).insnAddrs.Disjoint (after j).insnAddrs := by
  induction list with
  | nil => exact List.Pairwise.nil
  | cons i rest ih =>
      have hpre : ∀ k ∈ i :: rest, (after k).insnAddrs <+: (blocks k).insnAddrs := fun k hk =>
        h.insnAddrs_prefix hle hk
      obtain ⟨hi, hle'⟩ := List.pairwise_cons.mp hle
      obtain ⟨hnest, hnests⟩ := List.pairwise_cons.mp hnests
      have hfits' : ∀ k ∈ rest, (blocks k).insnAddrs.Nodup := fun k hk =>
        hfits k (List.mem_cons_of_mem i hk)
      cases rest with
      | nil => exact List.pairwise_singleton _ _
      | cons j rest =>
          obtain ⟨hcut, hassigned⟩ := h
          refine List.pairwise_cons.mpr ⟨fun l hl => ?_, ih hassigned hle' hfits' hnests⟩
          have hl' := (hpre l (List.mem_cons_of_mem i hl)).subset
          have hnestl := hnest l hl
          unfold Nests at hnestl
          by_cases hlt : (blocks l).bb.bb_addr < (blocks i).addr_end
          · rw [if_pos hlt] at hnestl
            obtain ⟨d, hd, hdrop⟩ := hnestl
            have hjl : (blocks j).bb.bb_addr ≤ (blocks l).bb.bb_addr := by
              rcases List.mem_cons.mp hl with rfl | hl
              · exact BitVec.le_refl _
              · exact (List.pairwise_cons.mp hle').1 l hl
            have hltj : (blocks j).bb.bb_addr < (blocks i).addr_end :=
              addr_lt_of_le_of_lt hjl hlt
            have hle := hi j List.mem_cons_self
            have hend := hnest j List.mem_cons_self
            rw [Nests, if_pos hltj] at hend
            obtain ⟨d', hd', hdrop'⟩ := hend
            have hi' := hfits i List.mem_cons_self
            -- the next block begins no later than this one
            have hdd : d' ≤ d := by
              have hj := addr_of_drop hi' hle hd' hdrop'
              have hl := addr_of_drop hi' (hi l hl) hd hdrop
              have := BitVec.le_def.mp hjl
              refine Nat.le_of_mul_le_mul_right (c := 2 ^ (blocks i).shift) ?_ (Nat.two_pow_pos _)
              omega
            rw [hcut, cut_insnAddrs hle, cut_of_drop hi' hle hltj hd' hdrop']
            rw [hdrop] at hl'
            exact fun x hx hxl => List.disjoint_take_drop hi' hdd hx (hl' hxl)
          · rw [if_neg hlt] at hnestl
            have hi' := (hpre i List.mem_cons_self).subset
            exact fun x hx hxl => hnestl (hi' hx) (hl' hxl)

/-- What meets no block afterwards has met none before, if nothing is lost. -/
theorem Assigned.disjoint_of_after (h : Assigned blocks after list)
    (hinner : ∀ k ∈ list, (blocks k).inner = none)
    (hjoin : ∀ k ∈ list, ∀ ks, Chain (fun k => (after k).inner) (some k) ks →
      ks.flatMap (fun k => (after k).insnAddrs) = (blocks k).insnAddrs)
    {addrs : List (Bool × BitVec 32)} (hafter : ∀ k ∈ list, addrs.Disjoint (after k).insnAddrs)
    (hk : k ∈ list) : addrs.Disjoint (blocks k).insnAddrs := by
  obtain ⟨ks, hchain, hsub⟩ := h.exists_chain hinner hk
  rw [← hjoin k hk _ hchain]
  intro x hx hxk
  obtain ⟨m, hm, hxm⟩ := List.mem_flatMap.mp hxk
  exact hafter m (hsub.subset hm) hx hxm

/-- If nothing is lost and no instruction is left in two blocks, they nest. -/
theorem Assigned.nests (h : Assigned blocks after list)
    (hinner : ∀ k ∈ list, (blocks k).inner = none)
    (hle : list.Pairwise fun i j => (blocks i).bb.bb_addr ≤ (blocks j).bb.bb_addr)
    (hdisjoint : list.Pairwise fun i j => (after i).insnAddrs.Disjoint (after j).insnAddrs)
    (hjoin : ∀ k ∈ list, ∀ ks, Chain (fun k => (after k).inner) (some k) ks →
      ks.flatMap (fun k => (after k).insnAddrs) = (blocks k).insnAddrs) :
    list.Pairwise fun i j => (blocks i).Nests (blocks j) := by
  induction list with
  | nil => exact List.Pairwise.nil
  | cons i rest ih =>
      have hinner' : ∀ k ∈ rest, (blocks k).inner = none := fun k hk =>
        hinner k (List.mem_cons_of_mem i hk)
      obtain ⟨hi, hle'⟩ := List.pairwise_cons.mp hle
      obtain ⟨hdi, hdisjoint⟩ := List.pairwise_cons.mp hdisjoint
      have hjoin' : ∀ k ∈ rest, ∀ ks, Chain (fun k => (after k).inner) (some k) ks →
          ks.flatMap (fun k => (after k).insnAddrs) = (blocks k).insnAddrs := fun k hk =>
        hjoin k (List.mem_cons_of_mem i hk)
      cases rest with
      | nil => exact List.pairwise_singleton _ _
      | cons j rest =>
          obtain ⟨hcut, hassigned⟩ := h
          have hnests := ih hassigned hinner' hle' hdisjoint hjoin'
          refine List.pairwise_cons.mpr ⟨fun l hl => ?_, hnests⟩
          have hjl : (blocks j).bb.bb_addr ≤ (blocks l).bb.bb_addr := by
            rcases List.mem_cons.mp hl with rfl | hl
            · exact BitVec.le_refl _
            · exact (List.pairwise_cons.mp hle').1 l hl
          -- what is left of the first block meets none of the others
          have hrest := hassigned.disjoint_of_after hinner' hjoin' hdi hl
          by_cases hltj : (blocks j).bb.bb_addr < (blocks i).addr_end
          · obtain ⟨ks, hchain, -⟩ := hassigned.exists_chain hinner' List.mem_cons_self
            have hchain' : Chain (fun k => (after k).inner) (some i) (i :: j :: ks) := by
              refine ⟨rfl, ?_⟩
              dsimp only
              rw [hcut, cut_of_lt hltj]
              exact hchain
            have hwhole := hjoin i List.mem_cons_self _ hchain'
            rw [List.flatMap_cons, hjoin' j List.mem_cons_self _ hchain] at hwhole
            obtain ⟨hend, haddr⟩ := endOf_of_cut j (hi j List.mem_cons_self) hltj
              (by rw [← hcut, hwhole])
            rcases List.mem_cons.mp hl with rfl | hl
            · rwa [Nests, if_pos hltj]
            · have hnestl := (List.pairwise_cons.mp hnests).1 l hl
              unfold Nests at hnestl ⊢
              rw [haddr] at hnestl
              by_cases hlt : (blocks l).bb.bb_addr < (blocks i).addr_end
              · rw [if_pos hlt] at hnestl ⊢
                exact hnestl.trans hend
              · rw [if_neg hlt] at hnestl ⊢
                rw [← hwhole]
                intro x hx hxl
                rcases List.mem_append.mp hx with hx | hx
                · exact hrest hx hxl
                · exact hnestl hx hxl
          · grind [Nests, cut_of_le]

end AndroidRenderer.Qtools
