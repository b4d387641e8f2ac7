import AndroidRenderer.Qtools.RegionLifetime
import AndroidRenderer.Qtools.SymbolLookup

/-!
# Searches for functions

The searches go through in an address space that has a region, and find the closest one; in a
table of symbols only the addresses count.
-/

namespace AndroidRenderer.Qtools.Trace

open BinarySearch

variable {s : TraceReader}

namespace TraceReader

def addrAt (symbols : List Symbol) (index : Nat) : Nat :=
  symbols[index]?.elim 0 fun sym => sym.addr.toNat

theorem symbolAt_addr {symbols : List Symbol} {index : Nat} (h : index < symbols.length) :
    (symbolAt symbols index).map (fun sym => sym.addr.toNat) = .ok (addrAt symbols index) := by
  rw [symbolAt, addrAt, List.getElem?_eq_getElem h]
  rfl

theorem FindFunction_ok (addr : BitVec 32) (symbols : List Symbol) (exact_match : Bool) :
    ∃ index, FindFunction addr symbols exact_match = .ok index ∧
      ∀ i, index = some i → i < symbols.length := by
  obtain ⟨place, hplace, hwithin⟩ := search_all_within
    (fun i (hi : i < symbols.length) => symbolAt_addr hi) addr.toNat
  refine ⟨if exact_match then place.exact else place.closest, ?_, fun i hi => ?_⟩
  · rw [FindFunction, hplace]
    rfl
  · split at hi
    · exact hwithin.exact_lt hi
    · exact hwithin.closest_lt hi

/-- Only the addresses of a table count. -/
theorem FindFunction_congr {symbols symbols' : List Symbol}
    (h : symbols.map Symbol.addr = symbols'.map Symbol.addr) (addr : BitVec 32)
    (exact_match : Bool) :
    FindFunction addr symbols exact_match = FindFunction addr symbols' exact_match := by
  have hlength : symbols.length = symbols'.length := by
    rw [← List.length_map Symbol.addr, h, List.length_map]
  have hkey : (fun index => (symbolAt symbols index).map fun sym => sym.addr.toNat) =
      fun index => (symbolAt symbols' index).map fun sym => sym.addr.toNat := by
    funext index
    have haddr : symbols[index]?.map Symbol.addr = symbols'[index]?.map Symbol.addr := by
      rw [← List.getElem?_map, h, List.getElem?_map]
    rw [symbolAt, symbolAt]
    cases hsym : symbols[index]? with
    | none => grind
    | some sym =>
        rw [hsym, Option.map_some, eq_comm, Option.map_eq_some_iff] at haddr
        obtain ⟨sym', hsym', heq⟩ := haddr
        rw [hsym']
        change Except.ok sym.addr.toNat = Except.ok sym'.addr.toNat
        rw [heq]
  grind [FindFunction]

/-- A strictly increasing table is searched to the end. -/
theorem FindFunction_place {symbols : List Symbol}
    (hstrict : symbols.Pairwise fun a b => a.addr.toNat < b.addr.toNat) (addr : BitVec 32) :
    ∃ place : Place, place.Fits (addrAt symbols) addr.toNat symbols.length ∧
      ∀ exact_match : Bool, FindFunction addr symbols exact_match =
        .ok (if exact_match then place.exact else place.closest) := by
  have hsorted : ∀ i j, i < j → j < symbols.length → addrAt symbols i ≤ addrAt symbols j := by
    intro i j hij hj
    have hlt := List.pairwise_iff_getElem.mp hstrict i j (hij.trans hj) hj hij
    grind [addrAt]
  obtain ⟨place, hplace, hfits⟩ := search_all_fits
    (fun i (hi : i < symbols.length) => symbolAt_addr hi) hsorted addr.toNat
  refine ⟨place, hfits, fun exact_match => ?_⟩
  rw [FindFunction, hplace]
  rfl

def Closest (s : TraceReader) (entries : List RegionId) (addr : BitVec 32) (region : RegionId) :
    Prop :=
  ∀ other ∈ entries, s.vstart other ≤ addr.toNat →
    s.vstart other ≤ s.vstart region ∧ s.vstart region ≤ addr.toNat

/-- A region that begins closest below the address is found. -/
theorem FindRegion_ok {entries : List RegionId} (hne : entries ≠ [])
    (halive : ∀ i ∈ entries, ∃ r, s.regions.get? i = some r) (hsorted : s.Sorted entries)
    (addr : BitVec 32) :
    ∃ region ∈ entries, s.FindRegion addr entries = .ok region ∧ s.Closest entries addr region := by
  have hget : ∀ i (hi : i < entries.length), entries.getD i 0 = entries[i] := fun i hi => by
    rw [List.getD_eq_getElem?_getD, List.getElem?_eq_getElem hi, Option.getD_some]
  have hle : ∀ i j, i < j → j < entries.length →
      s.vstart (entries.getD i 0) ≤ s.vstart (entries.getD j 0) := by
    intro i j hij hj
    rw [hget i (hij.trans hj), hget j hj]
    exact List.pairwise_iff_getElem.mp hsorted i j (hij.trans hj) hj hij
  obtain ⟨place, hplace, hfits⟩ := search_all_fits (vstartAt_ok halive) hle addr.toNat
  have hfound : ∀ k (hk : k < entries.length), place.closest.getD 0 = k →
      s.Closest entries addr entries[k] → ∃ region ∈ entries,
        s.FindRegion addr entries = .ok region ∧ s.Closest entries addr region := by
    intro k hk hclosest hmost
    refine ⟨entries[k], List.getElem_mem hk, ?_, hmost⟩
    rw [FindRegion, FindRegionIndex, hplace]
    change entryAt entries (place.closest.getD 0) = _
    rw [hclosest, entryAt, List.getElem?_eq_getElem hk]
  cases hfits with
  | @found k hk heq =>
      rw [hget k hk] at heq
      exact hfound k hk rfl fun other _ hother => ⟨hother.trans_eq heq.symm, heq.le⟩
  | @between low hlow hbelow habove =>
      -- A region that begins at or below the address is in front of the place.
      have hfront : ∀ j (hj : j < entries.length), s.vstart entries[j] ≤ addr.toNat → j < low := by
        grind
      cases low with
      | zero =>
          refine hfound 0 (List.length_pos_iff.mpr hne) rfl fun other hother hbegin => ?_
          obtain ⟨j, hj, rfl⟩ := List.getElem_of_mem hother
          exact absurd (hfront j hj hbegin) (Nat.not_lt_zero j)
      | succ low =>
          refine hfound low hlow rfl fun other hother hbegin => ?_
          obtain ⟨j, hj, rfl⟩ := List.getElem_of_mem hother
          have hlast := hbelow low (Nat.lt_succ_self low)
          rw [hget low hlow] at hlast
          refine ⟨?_, hlast.le⟩
          rcases Nat.eq_or_lt_of_le (Nat.le_of_lt_succ (hfront j hj hbegin)) with rfl | hlt
          · exact Nat.le_refl _
          · exact List.pairwise_iff_getElem.mp hsorted j low hj hlow hlt

def symbol? (s : TraceReader) (sym : SymbolRef) : Option Symbol := (s.table sym)[sym.index]?

end TraceReader

end AndroidRenderer.Qtools.Trace
