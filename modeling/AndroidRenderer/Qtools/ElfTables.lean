import AndroidRenderer.Lib.BigEndian
import AndroidRenderer.Qtools.TraceReader

/-!
# Tables of the functions of ELF files

`ReadElfSymbols` fills an array of a size that it estimates before it looks at the symbols: with
the symbols that it takes, up to two entries of its own and the executable sections. It sorts them
with `cmp_symbol_addr` and keeps the first one of each address.
-/

namespace AndroidRenderer.Qtools.Trace

/-! ## The order of the symbols -/

/-- `strcmp`; only the sign counts. -/
def strcmp : List Char → List Char → Int
  | [], [] => 0
  | [], _ :: _ => -1
  | _ :: _, [] => 1
  | a :: as, b :: bs => if a = b then strcmp as bs else (a.toNat : Int) - b.toNat

def cmp_symbol_addr (syma symb : Symbol) : Int :=
  if syma.addr < symb.addr then -1
  else if symb.addr < syma.addr then 1
  else if syma.name.toList.head? = some '_' ∨ symb.name.toList.head? = some '_' then
    if underscores syma.name < underscores symb.name then -1
    else if underscores symb.name < underscores syma.name then 1
    else strcmp syma.name.toList symb.name.toList
  else strcmp syma.name.toList symb.name.toList

theorem strcmp_neg (as bs : List Char) : strcmp as bs < 0 ↔ as < bs := by
  induction as generalizing bs with
  | nil =>
      cases bs with
      | nil => simp [strcmp]
      | cons b bs => simp [strcmp]
  | cons a as ih =>
      cases bs with
      | nil => simp [strcmp]
      | cons b bs =>
          rw [strcmp, List.cons_lt_cons_iff]
          split
          · grind
          · rename_i hne
            have hlt : (a.toNat : Int) - b.toNat < 0 ↔ a.toNat < b.toNat := by omega
            rw [hlt]
            exact ⟨.inl, fun h => h.resolve_right fun heq => hne heq.1⟩

theorem strcmp_eq_zero (as bs : List Char) : strcmp as bs = 0 ↔ as = bs := by
  induction as generalizing bs with
  | nil =>
      cases bs with
      | nil => simp [strcmp]
      | cons b bs => simp [strcmp]
  | cons a as ih =>
      cases bs with
      | nil => simp [strcmp]
      | cons b bs =>
          rw [strcmp]
          split
          · grind
          · rename_i hne
            rw [Int.sub_eq_zero, Int.ofNat_inj]
            refine ⟨fun h => absurd (Char.toNat_inj.mp h) hne, fun h => ?_⟩
            exact absurd (List.cons.inj h).1 hne

theorem underscores_eq_zero {name : String} (h : name.toList.head? ≠ some '_') :
    underscores name = 0 := by
  rw [underscores]
  cases hname : name.toList with
  | nil => rfl
  | cons c cs =>
      rw [hname] at h
      have hc : c ≠ '_' := fun heq => h (congrArg some heq)
      grind [List.takeWhile_cons_of_neg]

/-- Where no name begins with an underscore there are none to count. -/
theorem cmp_symbol_addr_eq (a b : Symbol) : cmp_symbol_addr a b =
    if a.addr < b.addr then -1
    else if b.addr < a.addr then 1
    else if underscores a.name < underscores b.name then -1
    else if underscores b.name < underscores a.name then 1
    else strcmp a.name.toList b.name.toList := by
  rw [cmp_symbol_addr]
  split
  · rfl
  · split
    · rfl
    · split
      · rfl
      · rename_i hnone
        rw [not_or] at hnone
        grind [underscores_eq_zero]

/-- The comparison is the order of the keys. -/
theorem cmp_symbol_addr_neg (a b : Symbol) :
    cmp_symbol_addr a b < 0 ↔ symbolKey a < symbolKey b := by
  rw [cmp_symbol_addr_eq, symbolKey, symbolKey, Prod.Lex.toLex_lt_toLex, Prod.Lex.toLex_lt_toLex,
    String.lt_iff_toList_lt, ← strcmp_neg]
  grind [BitVec.lt_def]

theorem cmp_symbol_addr_eq_zero (a b : Symbol) :
    cmp_symbol_addr a b = 0 ↔ symbolKey a = symbolKey b := by
  rw [cmp_symbol_addr_eq, symbolKey, symbolKey, toLex_inj, Prod.mk.injEq, toLex_inj, Prod.mk.injEq,
    ← String.toList_inj, ← strcmp_eq_zero]
  grind [BitVec.lt_def]

theorem cmp_symbol_addr_nonpos (a b : Symbol) :
    cmp_symbol_addr a b ≤ 0 ↔ symbolKey a ≤ symbolKey b := by
  rw [Int.le_iff_lt_or_eq, cmp_symbol_addr_neg, cmp_symbol_addr_eq_zero, le_iff_lt_or_eq]

/-! ## One symbol for each address -/

/-- The symbols that have the address of the one before them. -/
def countDuplicates : BitVec 32 → List Symbol → Nat
  | _, [] => 0
  | prev_addr, s :: functions =>
      (if prev_addr = s.addr then 1 else 0) + countDuplicates s.addr functions

theorem countDuplicates_add (prev_addr : BitVec 32) (functions : List Symbol) :
    countDuplicates prev_addr functions + (uniqFunctions prev_addr functions).length =
      functions.length := by
  induction functions generalizing prev_addr with
  | nil => rfl
  | cons s functions ih => grind [countDuplicates, uniqFunctions]

theorem uniqFunctions_eq_self {prev_addr : BitVec 32} {functions : List Symbol}
    (h : countDuplicates prev_addr functions = 0) :
    uniqFunctions prev_addr functions = functions := by
  refine (uniqFunctions_sublist prev_addr functions).eq_of_length ?_
  grind [countDuplicates_add]

theorem uniqFunctions_least {prev_addr : BitVec 32} {functions : List Symbol}
    (hsorted : functions.Pairwise fun a b => symbolKey a ≤ symbolKey b) {s t : Symbol}
    (hs : s ∈ uniqFunctions prev_addr functions) (ht : t ∈ functions) (haddr : t.addr = s.addr) :
    symbolKey s ≤ symbolKey t := by
  induction functions generalizing prev_addr with
  | nil => cases ht
  | cons f functions ih =>
      obtain ⟨hf, hrest⟩ := List.pairwise_cons.mp hsorted
      have haddrs : functions.Pairwise fun a b => a.addr.toNat ≤ b.addr.toNat :=
        hrest.imp fun h => Prod.Lex.monotone_fst _ _ h
      -- What stays of the others is above the address of the first one.
      have hlater : s ∈ uniqFunctions f.addr functions → symbolKey s ≤ symbolKey t := by
        intro hs
        have hlt := (uniqFunctions_strict haddrs fun x hx =>
          Prod.Lex.monotone_fst _ _ (hf x hx)).1 s hs
        grind
      grind [uniqFunctions]

/-! ## Entries of the table -/

/-- The entry behind the last function. -/
def endSymbol (region : RegionId) : Symbol := ⟨0xffffffff, "(end)", none, region, .zero⟩

theorem exists_section (region : RegionId) (path : String) {shdr : List Elf32_Shdr}
    (funcs : List Symbol) {sh : Elf32_Shdr} (hsh : sh ∈ shdr) (hexec : sh.executable = true) :
    ∃ s ∈ shdr.foldl (addSection region path) funcs, s.addr = sh.sh_addr := by
  induction shdr generalizing funcs with
  | nil => cases hsh
  | cons sh' shdr ih =>
      rw [List.foldl_cons]
      rcases List.mem_cons.mp hsh with rfl | hsh
      · have hadded : ∃ s ∈ addSection region path funcs sh, s.addr = sh.sh_addr := by
          rw [addSection, hexec, Bool.not_true, Bool.false_or]
          split
          · grind
          · split
            · exact ⟨_, List.mem_append_right _ List.mem_cons_self, rfl⟩
            · exact ⟨_, List.mem_append_right _ List.mem_cons_self, rfl⟩
        grind [mem_foldl_addSection]
      · exact ih _ hsh

theorem foldl_addSection_end {region : RegionId} {path : String} (shdr : List Elf32_Shdr)
    {funcs : List Symbol} (hmem : endSymbol region ∈ funcs)
    (hend : ∀ s ∈ funcs, s.addr = 0xffffffff → s = endSymbol region) :
    ∀ s ∈ shdr.foldl (addSection region path) funcs, s.addr = 0xffffffff →
      s = endSymbol region := by
  induction shdr generalizing funcs with
  | nil => exact hend
  | cons sh shdr ih =>
      have hmem' : endSymbol region ∈ [sh].foldl (addSection region path) funcs :=
        mem_foldl_addSection hmem
      refine ih hmem' fun s hs haddr => ?_
      rw [addSection] at hs
      split at hs
      · exact hend s hs haddr
      · rename_i hnew
        have hnone : sh.sh_addr ≠ 0xffffffff := by
          intro heq
          refine hnew (Bool.or_eq_true_iff.mpr (.inr (List.any_eq_true.mpr ⟨_, hmem, ?_⟩)))
          exact decide_eq_true heq.symm
        split at hs
        · grind
        · rcases List.mem_append.mp hs with hs | hs
          · exact hend s hs haddr
          · rw [List.mem_singleton.mp hs] at haddr
            exact absurd haddr hnone

namespace ElfFile

variable (file : ElfFile) (includeLocal : Bool) (region : RegionId) (path : String)
  (q : Qsort) (demangle : String → Option String)

theorem funcSymbols_end : ∀ s ∈ file.funcSymbols includeLocal region path,
    s.addr = 0xffffffff → s = endSymbol region := by
  rw [funcSymbols]
  refine foldl_addSection_end file.shdr (List.mem_append_right _ List.mem_cons_self) ?_
  intro s hs haddr
  rcases List.mem_append.mp hs with hs | hs
  · -- The addresses of functions are even.
    have hkept : s ∉ (file.kept includeLocal).map (funcSymbol region path) := by
      intro hs
      obtain ⟨sym, -, rfl⟩ := List.mem_map.mp hs
      have hbit := congrArg (fun addr : BitVec 32 => addr.getLsbD 0) haddr
      simp [funcSymbol] at hbit
    grind
  · exact List.mem_singleton.mp hs

theorem kept_mem_funcSymbols {sym : Elf32_Sym} (hsym : sym ∈ file.kept includeLocal) :
    funcSymbol region path sym ∈ file.funcSymbols includeLocal region path := by
  have hmem := List.mem_map_of_mem (f := funcSymbol region path) hsym
  grind [funcSymbols, mem_foldl_addSection]

/-- What a search relies on: increasing addresses from zero to that of the end, among them those
of the functions and of the executable sections, each with the least entry in the order of
`cmp_symbol_addr`, whose name is demangled. -/
structure FunctionTable (table : List Symbol) : Prop where
  strict : table.Pairwise fun a b => a.addr.toNat < b.addr.toNat
  first : ∃ s, table.head? = some s ∧ s.addr = 0
  last : table.getLast? = some (endSymbol region)
  functions : ∀ sym ∈ file.kept includeLocal, ∃ s ∈ table, s.addr = sym.st_value &&& ~~~1
  sections : ∀ sh ∈ file.shdr, sh.executable → ∃ s ∈ table, s.addr = sh.sh_addr
  least : ∀ s ∈ table, ∃ entry ∈ file.funcSymbols includeLocal region path,
    s = { entry with name := demangleName demangle entry.name } ∧
      ∀ other ∈ file.funcSymbols includeLocal region path, other.addr = entry.addr →
        cmp_symbol_addr entry other ≤ 0

theorem exists_mem_functions {s : Symbol} (hs : s ∈ file.funcSymbols includeLocal region path) :
    ∃ t ∈ file.functions includeLocal region path q demangle, t.addr = s.addr := by
  by_cases hlast : s.addr = 0xffffffff
  · grind [functions_searchable]
  · have hsorted : (q.sort symbolKey (file.funcSymbols includeLocal region path)).Pairwise
        fun a b => a.addr.toNat ≤ b.addr.toNat :=
      (q.sorted symbolKey _).imp fun h => Prod.Lex.monotone_fst _ _ h
    obtain ⟨t, ht, haddr⟩ := exists_mem_uniqFunctions ((q.mem_sort symbolKey).mpr hs) hlast hsorted
    exact ⟨_, List.mem_map_of_mem ht, haddr⟩

theorem functions_least : ∀ s ∈ file.functions includeLocal region path q demangle,
    ∃ entry ∈ file.funcSymbols includeLocal region path,
      s = { entry with name := demangleName demangle entry.name } ∧
        ∀ other ∈ file.funcSymbols includeLocal region path, other.addr = entry.addr →
          cmp_symbol_addr entry other ≤ 0 := by
  intro s hs
  obtain ⟨entry, hentry, rfl⟩ := List.mem_map.mp hs
  have hmem := (uniqFunctions_sublist _ _).subset hentry
  refine ⟨entry, (q.mem_sort symbolKey).mp hmem, rfl, fun other hother haddr => ?_⟩
  rw [cmp_symbol_addr_nonpos]
  exact uniqFunctions_least (q.sorted symbolKey _) hentry ((q.mem_sort symbolKey).mpr hother) haddr

theorem functions_table : FunctionTable file includeLocal region path demangle
    (file.functions includeLocal region path q demangle) := by
  obtain ⟨hsearchable, e, he, hend⟩ :=
    functions_searchable file includeLocal region path q demangle
  have hleast := functions_least file includeLocal region path q demangle
  have hexists := fun s => exists_mem_functions file includeLocal region path q demangle (s := s)
  generalize file.functions includeLocal region path q demangle = table at *
  obtain ⟨first, hfirst, hzero⟩ := hsearchable.zero
  refine ⟨hsearchable.strict, ⟨first, ?_, hzero⟩, ?_, fun sym hsym => ?_, fun sh hsh hexec => ?_,
    hleast⟩
  · rwa [List.head?_eq_getElem?]
  · -- Nothing is above the last address.
    have hlast : table.getLast? = some e := by
      obtain ⟨before, after, rfl⟩ := List.append_of_mem he
      cases after with
      | nil => rw [List.getLast?_concat]
      | cons s after =>
          have hlt := List.rel_of_pairwise_cons (List.pairwise_append.mp hsearchable.strict).2.1
            (List.mem_cons_self (a := s))
          rw [hend] at hlt
          exact absurd s.addr.isLt (Nat.not_lt.mpr hlt)
    obtain ⟨entry, hentry, heq, -⟩ := hleast e he
    have haddr : entry.addr = 0xffffffff := by
      rw [← hend, heq]
    rw [hlast, heq, funcSymbols_end file includeLocal region path entry hentry haddr]
    have hname : demangleName demangle "(end)" = "(end)" := if_neg (by decide)
    exact congrArg (fun name => some { endSymbol region with name := name }) hname
  · obtain ⟨s, hs, haddr⟩ := hexists _ (kept_mem_funcSymbols file includeLocal region path hsym)
    exact ⟨s, hs, haddr⟩
  · obtain ⟨t, ht, haddr⟩ := exists_section region path _ hsh hexec
    obtain ⟨s, hs, haddr'⟩ := hexists t ht
    exact ⟨s, hs, haddr'.trans haddr⟩

end ElfFile

end AndroidRenderer.Qtools.Trace
