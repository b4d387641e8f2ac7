import Mathlib.Data.Prod.Lex
import Mathlib.Data.String.Basic
import AndroidRenderer.Lib.Sorting

/-!
# Symbol tables of trace regions

`ReadElfSymbols` makes the table of the functions of an ELF file, sorted by their addresses, with
an entry at address zero and one behind the last function. The contents of the file and the
demangler are parameters.
-/

namespace AndroidRenderer.Qtools.Trace

abbrev RegionId := Nat

/-- A place in one of the arrays of symbols. -/
structure SymbolRef where
  table : Nat
  index : Nat
  deriving DecidableEq, Repr

structure SymbolFlags where
  kIsPlt : Bool
  kIsVectorStart : Bool
  kIsInterpreter : Bool
  kIsMethod : Bool
  deriving DecidableEq, Repr

namespace SymbolFlags

def zero : SymbolFlags := ⟨false, false, false, false⟩

end SymbolFlags

/-- `symbol_entry` -/
structure Symbol where
  addr : BitVec 32
  name : String
  vm_sym : Option SymbolRef
  region : RegionId
  flags : SymbolFlags
  deriving DecidableEq, Repr

/-! ## ELF files -/

structure Elf32_Shdr where
  sh_name : String
  sh_flags : BitVec 32
  sh_addr : BitVec 32

structure Elf32_Sym where
  st_name : String
  st_value : BitVec 32
  st_info : BitVec 8
  st_shndx : Nat

/-- What is read of a file: its section headers and its table of symbols. -/
structure ElfFile where
  shdr : List Elf32_Shdr
  elf_symbols : List Elf32_Sym

def SHF_EXECINSTR : BitVec 32 := 0x4
def STB_LOCAL : BitVec 8 := 0
def STT_NOTYPE : BitVec 8 := 0
def STT_FUNC : BitVec 8 := 2

/-- `ELF32_ST_TYPE` -/
def Elf32_Sym.sym_type (sym : Elf32_Sym) : BitVec 8 := sym.st_info &&& 0xf

/-- `ELF32_ST_BIND` -/
def Elf32_Sym.sym_bind (sym : Elf32_Sym) : BitVec 8 := sym.st_info >>> 4

def Elf32_Shdr.executable (sh : Elf32_Shdr) : Bool := sh.sh_flags &&& SHF_EXECINSTR ≠ 0

/-- Whether the table gets an entry for a symbol of the file. -/
def ElfFile.keeps (file : ElfFile) (includeLocal : Bool) (sym : Elf32_Sym) : Bool :=
  sym.st_name.toList.head? ≠ none && sym.st_name.toList.head? ≠ some '$' && sym.st_shndx ≠ 0 &&
    (file.shdr[sym.st_shndx]?).any Elf32_Shdr.executable &&
    (includeLocal || sym.sym_bind ≠ STB_LOCAL || sym.sym_type = STT_FUNC) &&
    (sym.sym_type = STT_FUNC || sym.sym_type = STT_NOTYPE)

/-- What follows the last `/` of a path. -/
def basename (path : String) : String :=
  .ofList (path.toList.reverse.takeWhile (· ≠ '/')).reverse

/-- Functions of the library of the virtual machine are marked. -/
def isInterpreter (path : String) : Bool := basename path = "libdvm.so"

def underscores (name : String) : Nat := (name.toList.takeWhile (· = '_')).length

/-- The order of `cmp_symbol_addr`: by address, and then names with fewer underscores first. -/
def symbolKey (s : Symbol) : ℕ ×ₗ ℕ ×ₗ String :=
  toLex (s.addr.toNat, toLex (underscores s.name, s.name))

def addSection (region : RegionId) (path : String) (funcs : List Symbol) (sh : Elf32_Shdr) :
    List Symbol :=
  if !sh.executable || funcs.any (·.addr = sh.sh_addr) then funcs
  else if sh.sh_name = ".plt" then
    funcs ++ [⟨sh.sh_addr, path ++ ":.plt", none, region,
      { SymbolFlags.zero with kIsPlt := true, kIsInterpreter := isInterpreter path }⟩]
  else funcs ++ [⟨sh.sh_addr, sh.sh_name, none, region, .zero⟩]

/-- Of the symbols with one address only the first stays. -/
def uniqFunctions : BitVec 32 → List Symbol → List Symbol
  | _, [] => []
  | prev_addr, s :: functions =>
      if prev_addr = s.addr then uniqFunctions s.addr functions
      else s :: uniqFunctions s.addr functions

/-- `demangle_names`; only names that begin with an underscore are looked at. -/
def demangleName (demangle : String → Option String) (name : String) : String :=
  if 1 < name.length ∧ name.toList.head? = some '_' then (demangle name).getD name else name

namespace ElfFile

variable (file : ElfFile) (includeLocal : Bool) (region : RegionId) (path : String)

def kept : List Elf32_Sym := file.elf_symbols.tail.filter (file.keeps includeLocal)

def zero_found : Bool := (file.kept includeLocal).any (·.st_value = 0)

/-- A kept symbol; the low bit of a thumb function's address is cleared. -/
def funcSymbol (sym : Elf32_Sym) : Symbol :=
  ⟨sym.st_value &&& ~~~1, sym.st_name, none, region,
    { SymbolFlags.zero with kIsInterpreter := isInterpreter path }⟩

/-- The entries of the table in the order in which they are made. -/
def funcSymbols : List Symbol :=
  let funcs := (file.kept includeLocal).map (funcSymbol region path)
  let funcs := if file.zero_found includeLocal then funcs
    else funcs ++ [⟨0, "(0 unknown)", none, region, .zero⟩]
  file.shdr.foldl (addSection region path)
    (funcs ++ [⟨0xffffffff, "(end)", none, region, .zero⟩])

/-- The table that `ReadElfSymbols` makes of a file. -/
def functions (q : Qsort) (demangle : String → Option String) : List Symbol :=
  (uniqFunctions (~~~0) (q.sort symbolKey (file.funcSymbols includeLocal region path))).map
    fun s => { s with name := demangleName demangle s.name }

end ElfFile

/-! ## Tables that can be searched -/

/-- A table with increasing addresses, the first of them zero. -/
structure Searchable (symbols : List Symbol) : Prop where
  strict : symbols.Pairwise fun a b => a.addr.toNat < b.addr.toNat
  zero : ∃ s, symbols[0]? = some s ∧ s.addr = 0

theorem uniqFunctions_sublist (prev_addr : BitVec 32) (functions : List Symbol) :
    (uniqFunctions prev_addr functions).Sublist functions := by
  induction functions generalizing prev_addr with
  | nil => exact .slnil
  | cons s functions ih => grind [uniqFunctions]

/-- What stays of a sorted list is above what came before it. -/
theorem uniqFunctions_strict {prev_addr : BitVec 32} {functions : List Symbol}
    (hsorted : functions.Pairwise fun a b => a.addr.toNat ≤ b.addr.toNat)
    (hprev : ∀ s ∈ functions, prev_addr.toNat ≤ s.addr.toNat) :
    (∀ s ∈ uniqFunctions prev_addr functions, prev_addr.toNat < s.addr.toNat) ∧
      (uniqFunctions prev_addr functions).Pairwise fun a b => a.addr.toNat < b.addr.toNat := by
  induction functions generalizing prev_addr with
  | nil =>
      refine ⟨fun s hs => ?_, List.Pairwise.nil⟩
      cases hs
  | cons s functions ih =>
      obtain ⟨hs, hrest⟩ := List.pairwise_cons.mp hsorted
      obtain ⟨hbelow, hstrict⟩ := ih hrest hs
      rw [uniqFunctions]
      split
      · grind
      · rename_i hne
        have hlt : prev_addr.toNat < s.addr.toNat :=
          lt_of_le_of_ne (hprev s List.mem_cons_self) fun heq => hne (BitVec.eq_of_toNat_eq heq)
        refine ⟨fun t ht => ?_, List.pairwise_cons.mpr ⟨hbelow, hstrict⟩⟩
        grind

/-- Every address stays, but that of what came before. -/
theorem exists_mem_uniqFunctions {prev_addr : BitVec 32} {functions : List Symbol} {s : Symbol}
    (hs : s ∈ functions) (hne : s.addr ≠ prev_addr)
    (hsorted : functions.Pairwise fun a b => a.addr.toNat ≤ b.addr.toNat) :
    ∃ t ∈ uniqFunctions prev_addr functions, t.addr = s.addr := by
  induction functions generalizing prev_addr with
  | nil => cases hs
  | cons f functions ih =>
      obtain ⟨hf, hrest⟩ := List.pairwise_cons.mp hsorted
      rw [uniqFunctions]
      split
      · rename_i heq
        rcases List.mem_cons.mp hs with rfl | hs
        · exact absurd heq.symm hne
        · exact ih hs (heq ▸ hne) hrest
      · by_cases hfs : s.addr = f.addr
        · exact ⟨f, List.mem_cons_self, hfs.symm⟩
        · rcases List.mem_cons.mp hs with rfl | hs
          · exact absurd rfl hfs
          · obtain ⟨t, ht, heq⟩ := ih hs hfs hrest
            exact ⟨t, List.mem_cons_of_mem _ ht, heq⟩

theorem mem_foldl_addSection {region : RegionId} {path : String} {shdr : List Elf32_Shdr}
    {funcs : List Symbol} {s : Symbol} (hs : s ∈ funcs) :
    s ∈ shdr.foldl (addSection region path) funcs := by
  induction shdr generalizing funcs with
  | nil => exact hs
  | cons sh shdr ih =>
      refine ih ?_
      grind [addSection]

theorem exists_zero_mem_funcSymbols (file : ElfFile) (includeLocal : Bool) (region : RegionId)
    (path : String) : ∃ s ∈ file.funcSymbols includeLocal region path, s.addr = 0 := by
  by_cases hzero : file.zero_found includeLocal = true
  · obtain ⟨sym, hmem, hvalue⟩ := List.any_eq_true.mp hzero
    refine ⟨ElfFile.funcSymbol region path sym, ?_, ?_⟩
    · grind [ElfFile.funcSymbols, mem_foldl_addSection]
    · rw [ElfFile.funcSymbol, of_decide_eq_true hvalue]
      rfl
  · refine ⟨⟨0, "(0 unknown)", none, region, .zero⟩, ?_, rfl⟩
    simp [ElfFile.funcSymbols, mem_foldl_addSection, hzero]

theorem end_mem_funcSymbols (file : ElfFile) (includeLocal : Bool) (region : RegionId)
    (path : String) : ⟨0xffffffff, "(end)", none, region, .zero⟩ ∈
      file.funcSymbols includeLocal region path :=
  mem_foldl_addSection (List.mem_append_right _ (List.mem_singleton.mpr rfl))

theorem functions_searchable (file : ElfFile) (includeLocal : Bool) (region : RegionId)
    (path : String) (q : Qsort) (demangle : String → Option String) :
    Searchable (file.functions includeLocal region path q demangle) ∧
      ∃ s ∈ file.functions includeLocal region path q demangle, s.addr = 0xffffffff := by
  have hsorted : (q.sort symbolKey (file.funcSymbols includeLocal region path)).Pairwise
      fun a b => a.addr.toNat ≤ b.addr.toNat :=
    (q.sorted symbolKey _).imp fun h => Prod.Lex.monotone_fst _ _ h
  obtain ⟨z, hz, hzero⟩ := exists_zero_mem_funcSymbols file includeLocal region path
  have hend := end_mem_funcSymbols file includeLocal region path
  rw [← q.mem_sort symbolKey] at hz hend
  rw [ElfFile.functions]
  generalize q.sort symbolKey (file.funcSymbols includeLocal region path) = sorted at hsorted hz hend
  cases sorted with
  | nil => cases hz
  | cons s sorted =>
      obtain ⟨hs, hrest⟩ := List.pairwise_cons.mp hsorted
      have hfirst : s.addr = 0 := by
        rcases List.mem_cons.mp hz with rfl | hz
        · exact hzero
        · have hle := hs z hz
          rw [hzero] at hle
          exact BitVec.eq_of_toNat_eq (Nat.le_zero.mp hle)
      have hkeep : uniqFunctions (~~~0) (s :: sorted) = s :: uniqFunctions s.addr sorted := by
        grind [uniqFunctions]
      obtain ⟨hbelow, hstrict⟩ := uniqFunctions_strict hrest hs
      rw [hkeep]
      refine ⟨⟨?_, _, rfl, hfirst⟩, ?_⟩
      · exact List.pairwise_map.mpr (List.pairwise_cons.mpr ⟨hbelow, hstrict⟩)
      · have hrestEnd : (⟨0xffffffff, "(end)", none, region, .zero⟩ : Symbol) ∈ sorted := by
          rcases List.mem_cons.mp hend with heq | hmem
          · grind
          · exact hmem
        have hne : (0xffffffff : BitVec 32) ≠ s.addr := by
          rw [hfirst]
          decide
        obtain ⟨t, ht, haddr⟩ := exists_mem_uniqFunctions hrestEnd hne hrest
        exact ⟨_, List.mem_map_of_mem (List.mem_cons_of_mem _ ht), haddr⟩

end AndroidRenderer.Qtools.Trace
