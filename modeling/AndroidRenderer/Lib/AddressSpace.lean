import Mathlib.Data.List.Basic
import Mathlib.Data.List.Pairwise

/-!
# Mappings in an address space

An address space is a list of mappings, each of a region to a range of addresses. A range that is
unmapped takes all mappings away that have addresses in it. Where mappings have no addresses in
common, this takes away one mapping and leaves the others. Where several names stand for one
region, the mappings can be renamed.
-/

namespace AddressSpace

structure Mapping (ρ : Type) where
  addr : Nat
  size : Nat
  region : ρ
  deriving DecidableEq, Repr

variable {ρ : Type} {mappings : List (Mapping ρ)} {m : Mapping ρ}

def Mapping.Overlaps (m : Mapping ρ) (addr size : Nat) : Prop :=
  m.addr < addr + size ∧ addr < m.addr + m.size

instance (m : Mapping ρ) (addr size : Nat) : Decidable (m.Overlaps addr size) :=
  inferInstanceAs (Decidable (_ ∧ _))

def Unused (mappings : List (Mapping ρ)) (addr size : Nat) : Prop :=
  ∀ m ∈ mappings, ¬m.Overlaps addr size

/-- The mappings without those that have addresses in the range. -/
def unmap (mappings : List (Mapping ρ)) (addr size : Nat) : List (Mapping ρ) :=
  mappings.filter fun m => ¬m.Overlaps addr size

/-- The addresses at which a region is mapped. -/
def mappedAt [DecidableEq ρ] (mappings : List (Mapping ρ)) (r : ρ) : List Nat :=
  (mappings.filter (·.region = r)).map Mapping.addr

/-- Different mappings have no addresses in common. -/
def Separate (mappings : List (Mapping ρ)) : Prop :=
  mappings.Pairwise fun m m' => ¬m.Overlaps m'.addr m'.size

theorem Mapping.overlaps_comm (m m' : Mapping ρ) :
    m.Overlaps m'.addr m'.size ↔ m'.Overlaps m.addr m.size :=
  and_comm

theorem Mapping.overlaps_self (h : 0 < m.size) : m.Overlaps m.addr m.size := by
  constructor <;> omega

theorem Separate.cons (h : Separate mappings) (hunused : Unused mappings m.addr m.size) :
    Separate (m :: mappings) :=
  List.pairwise_cons.mpr
    ⟨fun m' hm' hover => hunused m' hm' ((m.overlaps_comm m').mp hover), h⟩

theorem Separate.unmap (h : Separate mappings) (addr size : Nat) :
    Separate (unmap mappings addr size) :=
  h.filter _

/-- In a mapping's range there is no other mapping. -/
theorem Separate.eq_of_overlaps (h : Separate mappings) {m' : Mapping ρ} (hm : m ∈ mappings)
    (hm' : m' ∈ mappings) (hover : m.Overlaps m'.addr m'.size) : m = m' := by
  by_contra hne
  have hsymm : Std.Symm fun m m' : Mapping ρ => ¬m.Overlaps m'.addr m'.size :=
    ⟨fun m m' hnot hover => hnot ((m.overlaps_comm m').mpr hover)⟩
  exact List.Pairwise.forall h hm hm' hne hover

theorem unmap_unused {addr size : Nat} (h : Unused mappings addr size) :
    unmap mappings addr size = mappings :=
  List.filter_eq_self.mpr fun m hm => decide_eq_true (h m hm)

theorem mem_unmap {addr size : Nat} :
    m ∈ unmap mappings addr size ↔ m ∈ mappings ∧ ¬m.Overlaps addr size := by
  rw [unmap, List.mem_filter, decide_eq_true_eq]

section Regions

variable [DecidableEq ρ] {r : ρ}

@[grind =] theorem mappedAt_cons (m : Mapping ρ) (mappings : List (Mapping ρ)) (r : ρ) :
    mappedAt (m :: mappings) r =
      if m.region = r then m.addr :: mappedAt mappings r else mappedAt mappings r := by
  unfold mappedAt
  grind

theorem mem_mappedAt {addr : Nat} :
    addr ∈ mappedAt mappings r ↔ ∃ m ∈ mappings, m.region = r ∧ m.addr = addr := by
  simp [mappedAt, and_assoc]

theorem mappedAt_eq_nil : mappedAt mappings r = [] ↔ ∀ m ∈ mappings, m.region ≠ r := by
  simp [mappedAt]

/-- A region keeps its addresses if and only if none of its mappings is in the range. -/
theorem mappedAt_unmap_iff {addr size : Nat} :
    mappedAt (unmap mappings addr size) r = mappedAt mappings r ↔
      ∀ m ∈ mappings, m.region = r → ¬m.Overlaps addr size := by
  have hfilter : (unmap mappings addr size).filter (·.region = r) =
      (mappings.filter (·.region = r)).filter fun m => ¬m.Overlaps addr size := by
    unfold unmap
    exact List.filter_comm _ _ _
  unfold mappedAt
  rw [hfilter]
  constructor
  · intro heq m hm hr
    have hlength := congrArg List.length heq
    rw [List.length_map, List.length_map] at hlength
    have hself := List.filter_sublist.eq_of_length hlength
    have hmem : m ∈ mappings.filter (·.region = r) := List.mem_filter.mpr ⟨hm, decide_eq_true hr⟩
    exact of_decide_eq_true (List.filter_eq_self.mp hself m hmem)
  · intro h
    congr 1
    apply List.filter_eq_self.mpr
    grind

/-- A mapping is taken away, and other regions keep their addresses. -/
theorem mappedAt_unmap_of_ne (h : Separate mappings) (hm : m ∈ mappings) (hr : m.region ≠ r) :
    mappedAt (unmap mappings m.addr m.size) r = mappedAt mappings r := by
  apply mappedAt_unmap_iff.mpr
  grind [h.eq_of_overlaps]

/-- A region that is mapped once is no longer mapped. -/
theorem mappedAt_unmap_self (hm : m ∈ mappings) (hsize : 0 < m.size)
    (hone : mappedAt mappings m.region = [m.addr]) :
    mappedAt (unmap mappings m.addr m.size) m.region = [] := by
  rw [mappedAt_eq_nil]
  intro m' hm' hr
  obtain ⟨hmem, hnot⟩ := mem_unmap.mp hm'
  obtain ⟨x, hx, -⟩ := List.map_eq_singleton_iff.mp hone
  have hone : ∀ y ∈ mappings, y.region = m.region → y = x := by
    intro y hy hyr
    have hyx : y ∈ mappings.filter (·.region = m.region) :=
      List.mem_filter.mpr ⟨hy, decide_eq_true hyr⟩
    grind
  have heq : m' = m := (hone m' hmem hr).trans (hone m hm rfl).symm
  exact hnot (heq ▸ m.overlaps_self hsize)

end Regions

/-! ## Names of regions -/

section Names

variable {κ : Type} {f : ρ → κ} {k : κ}

/-- The mappings with other names for their regions. -/
def rename (f : ρ → κ) (mappings : List (Mapping ρ)) : List (Mapping κ) :=
  mappings.map fun m => ⟨m.addr, m.size, f m.region⟩

theorem unmap_rename (addr size : Nat) :
    unmap (rename f mappings) addr size = rename f (unmap mappings addr size) :=
  List.filter_map

variable [DecidableEq κ]

theorem mem_mappedAt_rename {addr : Nat} : addr ∈ mappedAt (rename f mappings) k ↔
    ∃ m ∈ mappings, f m.region = k ∧ m.addr = addr := by
  simp [mem_mappedAt, rename]

theorem mappedAt_rename_eq_nil :
    mappedAt (rename f mappings) k = [] ↔ ∀ m ∈ mappings, f m.region ≠ k := by
  simp [mappedAt_eq_nil, rename]

/-- A region whose other names are not mapped has the addresses of its one name. -/
theorem mappedAt_rename_of_forall [DecidableEq ρ] {r : ρ}
    (h : ∀ m ∈ mappings, f m.region = f r → m.region = r) :
    mappedAt (rename f mappings) (f r) = mappedAt mappings r := by
  unfold mappedAt rename
  rw [List.filter_map, List.map_map]
  congr 1
  refine List.filter_congr fun m hm => decide_eq_decide.mpr ⟨h m hm, fun heq => ?_⟩
  exact congrArg f heq

end Names

end AddressSpace
