import AndroidRenderer.Qtools.ElfTables
import AndroidRenderer.Qtools.RegionLifetime

/-!
# Reading the symbols of ELF files

`ReadElfSymbols` finds the symbols of a file and their names in its sections, and makes the table
of its functions. A file without symbols gets a table with one entry. The array that is filled
before the table is sorted has room for all entries, since the first symbol of a file is never
taken.
-/

namespace AndroidRenderer.Qtools.Trace

open Run

/-- What goes wrong with a file that is not well formed. -/
inductive ElfFault
  | outOfBounds
  | divisionByZero
  | assertion
  deriving DecidableEq, Repr

/-- A section header with the `sh_size` bytes of its section. -/
structure ElfSection where
  sh_name : BitVec 32
  sh_type : BitVec 32
  sh_flags : BitVec 32
  sh_addr : BitVec 32
  sh_entsize : BitVec 32
  bytes : List UInt8
  deriving DecidableEq

/-- An entry of a symbol table as the file has it. -/
structure ElfEntry where
  st_name : BitVec 32
  st_value : BitVec 32
  st_info : BitVec 8
  st_shndx : BitVec 16
  deriving DecidableEq

/-- A file whose `e_shnum` section headers can be read; `swapped` where its words have to be
adjusted to the machine, which is little-endian. -/
structure ElfImage where
  swapped : Bool
  shdr : List ElfSection
  e_shstrndx : Nat

def SHT_SYMTAB : BitVec 32 := 2
def SHT_STRTAB : BitVec 32 := 3

def ElfSection.executable (sh : ElfSection) : Bool := sh.sh_flags &&& SHF_EXECINSTR ≠ 0

/-! ## Names -/

/-- The characters of a name, one for each byte. -/
def charOf (b : UInt8) : Char := Char.ofUInt8 b

/-- The character of a string table at an `int`. -/
def nameChar (names : List UInt8) (idx : BitVec 32) : Except ElfFault UInt8 :=
  if idx.msb then .error .outOfBounds else names[idx.toNat]?.elim (.error .outOfBounds) .ok

/-- The name at a position of a string table, up to its NUL. -/
def nameAt (names : List UInt8) (i : Nat) : Option String :=
  if 0 ∈ names.drop i then
    some (.ofList (((names.drop i).takeWhile (· ≠ 0)).map charOf))
  else none

/-- A copy of the name at an `int`. -/
def Strdup (names : List UInt8) (idx : BitVec 32) : Except ElfFault String :=
  if idx.msb then .error .outOfBounds else (nameAt names idx.toNat).elim (.error .outOfBounds) .ok

/-! ## Symbols -/

/-- The number that some bytes of a file denote. -/
def wordOf (swapped : Bool) (bytes : List UInt8) : Nat :=
  if swapped then BigEndian.ofBE bytes else LittleEndian.ofLE bytes

/-- The symbol with an index in the bytes of a symbol table. -/
def entryAt (swapped : Bool) (bytes : List UInt8) (ii : Nat) : ElfEntry :=
  let entry := bytes.drop (16 * ii)
  { st_name := .ofNat 32 (wordOf swapped (entry.take 4))
    st_value := .ofNat 32 (wordOf swapped ((entry.drop 4).take 4))
    st_info := .ofNat 8 (entry.getD 12 0).toNat
    st_shndx := .ofNat 16 (wordOf swapped ((entry.drop 14).take 2)) }

/-- A place of the array of `num_alloc` symbols is filled. -/
def pushSymbol (num_alloc : Nat) (funcs : List Symbol) (s : Symbol) :
    Except ElfFault (List Symbol) :=
  if funcs.length < num_alloc then .ok (funcs ++ [s]) else .error .outOfBounds

namespace ElfImage

variable (image : ElfImage)

/-- `FindSymbolTableSection` and `FindSymbolStringTableSection`; the index of the name has 16
bits. -/
def findSection (sh_type : BitVec 32) (name : String) (section_names : List UInt8) :
    Option ElfSection :=
  image.shdr.find? fun sh =>
    sh.sh_type = sh_type ∧ nameAt section_names (sh.sh_name.toNat % 65536) = some name

def FindSymbolTableSection (section_names : List UInt8) : Option ElfSection :=
  image.findSection SHT_SYMTAB ".symtab" section_names

def FindSymbolStringTableSection (section_names : List UInt8) : Option ElfSection :=
  image.findSection SHT_STRTAB ".strtab" section_names

def num_entries (symtab : ElfSection) : Nat := symtab.bytes.length / symtab.sh_entsize.toNat

def entries (symtab : ElfSection) : List ElfEntry :=
  (List.range (num_entries symtab)).map (entryAt image.swapped symtab.bytes)

/-- The array `elf_symbols`; what is read has to fill it exactly. -/
def elf_symbols (symtab : ElfSection) : Except ElfFault (List ElfEntry) :=
  if symtab.sh_entsize = 0 then .error .divisionByZero
  else if symtab.bytes.length ≠ 16 * num_entries symtab then .error .outOfBounds
  else .ok (image.entries symtab)

/-- Whether the section, the binding and the type of a symbol are ones that are taken. -/
def accepts (includeLocal : Bool) (sym : ElfEntry) : Bool :=
  let sym_type := sym.st_info &&& 0xf
  let sym_bind := sym.st_info >>> 4
  sym.st_shndx ≠ 0 && (image.shdr[sym.st_shndx.toNat]?).any ElfSection.executable &&
    (includeLocal || sym_bind ≠ STB_LOCAL || sym_type = STT_FUNC) &&
    (sym_type = STT_FUNC || sym_type = STT_NOTYPE)

section Tables

variable (symbol_names section_names : List UInt8) (includeLocal : Bool) (region : RegionId)
  (path : String) (num_alloc : Nat)

/-- The turn of a symbol, with the array and `zero_found`. -/
def addSymbol (st : List Symbol × Bool) (sym : ElfEntry) :
    Except ElfFault (List Symbol × Bool) :=
  if sym.st_name = 0 then .ok st
  else
    nameChar symbol_names sym.st_name >>= fun c =>
      if c = 0 ∨ c = 36 ∨ !image.accepts includeLocal sym then .ok st
      else
        Strdup symbol_names sym.st_name >>= fun name =>
          (pushSymbol num_alloc st.1 ⟨sym.st_value &&& ~~~1, name, none, region,
            { SymbolFlags.zero with kIsInterpreter := isInterpreter path }⟩).map fun funcs =>
              (funcs, st.2 || sym.st_value = 0)

def addSectionName (funcs : List Symbol) (sh : ElfSection) : Except ElfFault (List Symbol) :=
  if !sh.executable || funcs.any (·.addr = sh.sh_addr) then .ok funcs
  else
    Strdup section_names sh.sh_name >>= fun name =>
      if name = ".plt" then
        pushSymbol num_alloc funcs ⟨sh.sh_addr, path ++ ":.plt", none, region,
          { SymbolFlags.zero with kIsPlt := true, kIsInterpreter := isInterpreter path }⟩
      else pushSymbol num_alloc funcs ⟨sh.sh_addr, name, none, region, .zero⟩

/-- The array `func_symbols`, and whether a symbol has the value zero. -/
def fillSymbols (symbols : List ElfEntry) : Except ElfFault (List Symbol × Bool) :=
  symbols.tail.foldlM (image.addSymbol symbol_names includeLocal region path num_alloc)
    ([], false) >>= fun found =>
  (if found.2 then .ok found.1
    else pushSymbol num_alloc found.1 ⟨0, "(0 unknown)", none, region, .zero⟩) >>= fun funcs =>
  pushSymbol num_alloc funcs (endSymbol region) >>= fun funcs =>
  (image.shdr.foldlM (addSectionName section_names region path num_alloc) funcs).map fun funcs =>
    (funcs, found.2)

end Tables

/-- The symbols without those that have the address of the one before. -/
def removeDuplicates (functions : List Symbol) : Except ElfFault (List Symbol) :=
  let num_duplicates := countDuplicates (~~~0) functions
  if 0 < num_duplicates then
    let uniq_functions := uniqFunctions (~~~0) functions
    if uniq_functions.length = functions.length - num_duplicates then .ok uniq_functions
    else .error .assertion
  else .ok functions

def minAddr (zero_found : Bool) (functions : List Symbol) : Except ElfFault (BitVec 32) :=
  if zero_found then .ok 0
  else functions[1]?.elim (.error .outOfBounds) fun s => .ok s.addr

def emptyRegion (region : RegionId) (r : Region) : Region × List Symbol :=
  ({ r with vstart := 0 }, [⟨0, "(unknown)", none, region, .zero⟩])

/-- The end of `ReadElfSymbols`, with the sections that it has found. -/
def readFunctions (f : TraceFiles) (includeLocal : Bool) (region : RegionId) (r : Region)
    (section_names symtab symstr : ElfSection) : Except ElfFault (Region × List Symbol) :=
  image.elf_symbols symtab >>= fun symbols =>
  image.fillSymbols symstr.bytes section_names.bytes includeLocal region r.path
    (symbols.length + image.shdr.length + 1) symbols >>= fun filled =>
  (removeDuplicates (f.qsort.sort symbolKey filled.1)) >>= fun functions =>
  let functions := functions.map fun s => { s with name := demangleName f.demangle s.name }
  (minAddr filled.2 functions).map fun min_addr =>
    ({ r with vstart := if r.vstart = 0 then min_addr else r.vstart }, functions)

/-- `ReadElfSymbols` for a file whose section headers can be read. -/
def ReadElfSymbols (f : TraceFiles) (includeLocal : Bool) (region : RegionId) (r : Region) :
    Except ElfFault (Region × List Symbol) :=
  match image.shdr[image.e_shstrndx]? with
  | none => .error .outOfBounds
  | some section_names =>
      match image.FindSymbolTableSection section_names.bytes with
      | none => .ok (emptyRegion region r)
      | some symtab =>
          if symtab.bytes = [] then .ok (emptyRegion region r)
          else
            match image.FindSymbolStringTableSection section_names.bytes with
            | none => .ok (emptyRegion region r)
            | some symstr =>
                if symstr.bytes = [] then .ok (emptyRegion region r)
                else image.readFunctions f includeLocal region r section_names symtab symstr

/-! ## The file that is read -/

def header (section_names : List UInt8) (sh : ElfSection) : Elf32_Shdr :=
  ⟨(Strdup section_names sh.sh_name).toOption.getD "", sh.sh_flags, sh.sh_addr⟩

def named (symbol_names : List UInt8) (sym : ElfEntry) : Elf32_Sym :=
  ⟨if sym.st_name = 0 then "" else (Strdup symbol_names sym.st_name).toOption.getD "",
    sym.st_value, sym.st_info, sym.st_shndx.toNat⟩

def file (section_names symtab symstr : ElfSection) : ElfFile :=
  ⟨image.shdr.map (header section_names.bytes),
    (image.entries symtab).map (named symstr.bytes)⟩

end ElfImage

theorem charOf_eq_dollar (c : UInt8) : charOf c = '$' ↔ c = 36 := by
  constructor
  · intro h
    have hnat := congrArg Char.toNat h
    exact UInt8.toNat_inj.mp hnat
  · rintro rfl
    rfl

theorem nameAt_head {names : List UInt8} {i : Nat} {name : String}
    (h : nameAt names i = some name) :
    ∃ c, names[i]? = some c ∧ (c = 0 → name.toList = []) ∧
      (c ≠ 0 → name.toList.head? = some (charOf c)) := by
  rw [nameAt] at h
  split at h
  · rename_i hmem
    obtain rfl := Option.some.inj h
    rw [String.toList_ofList]
    cases hrest : names.drop i with
    | nil => grind
    | cons c rest =>
        refine ⟨c, ?_, fun hc => ?_, fun hc => ?_⟩
        · rw [← List.head?_drop, hrest, List.head?_cons]
        · grind [List.takeWhile_cons_of_neg]
        · rw [List.takeWhile_cons_of_pos (by simpa using hc), List.map_cons, List.head?_cons]
  · cases h

theorem exists_of_isOk {α : Type} {x : Except ElfFault α} (h : x.isOk = true) :
    ∃ a, x = .ok a := by
  cases x with
  | error e => cases h
  | ok a => exact ⟨a, rfl⟩

theorem Strdup_ok {names : List UInt8} {idx : BitVec 32} {name : String}
    (h : Strdup names idx = .ok name) :
    idx.msb = false ∧ nameAt names idx.toNat = some name := by
  rw [Strdup] at h
  split at h
  · cases h
  · rename_i hmsb
    refine ⟨Bool.eq_false_of_not_eq_true hmsb, ?_⟩
    cases hname : nameAt names idx.toNat with
    | none => grind
    | some name' => grind

namespace ElfImage

variable {image : ElfImage} {section_names symbol_names : List UInt8} {includeLocal : Bool}
  {region : RegionId} {path : String} {num_alloc : Nat} {file : ElfFile}

theorem keeps_eq (hshdr : file.shdr = image.shdr.map (header section_names))
    (sym : ElfEntry) : file.keeps includeLocal (named symbol_names sym) =
      ((named symbol_names sym).st_name.toList.head? ≠ none &&
        (named symbol_names sym).st_name.toList.head? ≠ some '$' &&
        image.accepts includeLocal sym) := by
  have hindex : (decide ((named symbol_names sym).st_shndx ≠ 0)) = decide (sym.st_shndx ≠ 0) := by
    rw [decide_eq_decide, not_iff_not]
    exact ⟨fun h => BitVec.eq_of_toNat_eq h, fun h => congrArg BitVec.toNat h⟩
  have hsection : (file.shdr[(named symbol_names sym).st_shndx]?).any Elf32_Shdr.executable =
      (image.shdr[sym.st_shndx.toNat]?).any ElfSection.executable := by
    rw [hshdr, List.getElem?_map, Option.any_map]
    rfl
  rw [ElfFile.keeps, accepts, hindex, hsection]
  simp only [Bool.and_assoc]
  rfl

/-- A symbol is taken if and only if the table keeps it. -/
theorem addSymbol_eq (hshdr : file.shdr = image.shdr.map (header section_names))
    {st : List Symbol × Bool} {sym : ElfEntry}
    (hname : sym.st_name ≠ 0 → ∃ name, Strdup symbol_names sym.st_name = .ok name)
    (hroom : st.1.length < num_alloc) :
    image.addSymbol symbol_names includeLocal region path num_alloc st sym =
      .ok (if file.keeps includeLocal (named symbol_names sym) then
          (st.1 ++ [ElfFile.funcSymbol region path (named symbol_names sym)],
            st.2 || sym.st_value = 0)
        else st) := by
  rw [keeps_eq hshdr, addSymbol]
  by_cases hzero : sym.st_name = 0
  · have hnamed : (named symbol_names sym).st_name = "" := if_pos hzero
    rw [if_pos hzero, hnamed]
    rfl
  · obtain ⟨name, hdup⟩ := hname hzero
    have hnamed : (named symbol_names sym).st_name = name := by
      rw [named, if_neg hzero, hdup]
      rfl
    obtain ⟨hmsb, hat⟩ := Strdup_ok hdup
    obtain ⟨c, hc, hempty, hhead⟩ := nameAt_head hat
    have hchar : nameChar symbol_names sym.st_name = .ok c := by
      rw [nameChar, hmsb, hc]
      rfl
    rw [if_neg hzero, hchar, hnamed]
    change (if c = 0 ∨ c = 36 ∨ !image.accepts includeLocal sym then _ else _) = _
    by_cases hnone : c = 0
    · grind
    · rw [hhead hnone]
      by_cases hdollar : c = 36
      · grind [charOf_eq_dollar]
      · have hne : charOf c ≠ '$' := fun heq => hdollar ((charOf_eq_dollar c).mp heq)
        cases haccepts : image.accepts includeLocal sym with
        | false => simp
        | true =>
            have hkeep : (decide (some (charOf c) ≠ none) && decide (some (charOf c) ≠ some '$') &&
                true) = true := by simpa using hne
            rw [if_neg (by simp [hnone, hdollar]), if_pos hkeep, hdup]
            change (pushSymbol num_alloc st.1 _).map _ = _
            rw [pushSymbol, if_pos hroom, ElfFile.funcSymbol, hnamed]
            rfl

theorem foldlM_addSymbol (hshdr : file.shdr = image.shdr.map (header section_names))
    {symbols : List ElfEntry}
    (hnames : ∀ sym ∈ symbols, sym.st_name ≠ 0 →
      ∃ name, Strdup symbol_names sym.st_name = .ok name)
    (st : List Symbol × Bool) (hroom : st.1.length + symbols.length ≤ num_alloc) :
    symbols.foldlM (image.addSymbol symbol_names includeLocal region path num_alloc) st =
      .ok (st.1 ++ ((symbols.map (named symbol_names)).filter (file.keeps includeLocal)).map
          (ElfFile.funcSymbol region path),
        st.2 || ((symbols.map (named symbol_names)).filter (file.keeps includeLocal)).any
          (·.st_value = 0)) := by
  induction symbols generalizing st with
  | nil =>
      rw [List.map_nil, List.filter_nil, List.map_nil, List.append_nil, List.any_nil,
        Bool.or_false]
      rfl
  | cons sym symbols ih =>
      rw [List.length_cons] at hroom
      have hsym : image.addSymbol symbol_names includeLocal region path num_alloc st sym = _ :=
        addSymbol_eq hshdr (hnames sym List.mem_cons_self) (by omega)
      have hrest := ih fun sym' hsym' => hnames sym' (List.mem_cons_of_mem _ hsym')
      rw [List.foldlM_cons, hsym, List.map_cons, List.filter_cons]
      cases hkeeps : file.keeps includeLocal (named symbol_names sym) with
      | false => exact hrest st (by omega)
      | true =>
          have hlength : (st.1 ++ [ElfFile.funcSymbol region path (named symbol_names sym)]).length +
              symbols.length ≤ num_alloc := by grind
          refine (hrest (_, st.2 || sym.st_value = 0) hlength).trans ?_
          rw [if_pos rfl, List.map_cons, List.any_cons, List.append_assoc, Bool.or_assoc]
          rfl

theorem addSection_length (region : RegionId) (path : String) (funcs : List Symbol)
    (sh : Elf32_Shdr) : (addSection region path funcs sh).length ≤ funcs.length + 1 := by
  rw [addSection]
  grind

theorem foldlM_addSectionName {shdr : List ElfSection}
    (hnames : ∀ sh ∈ shdr, sh.executable = true →
      ∃ name, Strdup section_names sh.sh_name = .ok name)
    (funcs : List Symbol) (hroom : funcs.length + shdr.length ≤ num_alloc) :
    shdr.foldlM (addSectionName section_names region path num_alloc) funcs =
      .ok ((shdr.map (header section_names)).foldl (addSection region path) funcs) := by
  induction shdr generalizing funcs with
  | nil => rfl
  | cons sh shdr ih =>
      rw [List.length_cons] at hroom
      have hsection : addSectionName section_names region path num_alloc funcs sh =
          .ok (addSection region path funcs (header section_names sh)) := by
        rw [addSectionName, addSection]
        change _ = Except.ok (if !sh.executable || funcs.any (·.addr = sh.sh_addr) then _ else _)
        split
        · rfl
        · rename_i hnew
          have hexec : sh.executable = true := by grind
          obtain ⟨name, hname⟩ := hnames sh List.mem_cons_self hexec
          have hheader : (header section_names sh).sh_name = name := by
            rw [header, hname]
            rfl
          rw [hname, hheader]
          change (if name = ".plt" then pushSymbol num_alloc funcs _
            else pushSymbol num_alloc funcs _) = Except.ok (if name = ".plt" then _ else _)
          split
          · exact if_pos (by omega)
          · exact if_pos (by omega)
      have hlength := addSection_length region path funcs (header section_names sh)
      rw [List.foldlM_cons, hsection]
      exact ih (fun sh' hsh' => hnames sh' (List.mem_cons_of_mem _ hsh')) _ (by omega)

/-- The array has room for all entries, where the file has a first symbol. -/
theorem fillSymbols_eq (hshdr : file.shdr = image.shdr.map (header section_names))
    {symbols : List ElfEntry} (hsymbols : file.elf_symbols = symbols.map (named symbol_names))
    (hne : symbols ≠ [])
    (hnames : ∀ sym ∈ symbols, sym.st_name ≠ 0 →
      ∃ name, Strdup symbol_names sym.st_name = .ok name)
    (hsections : ∀ sh ∈ image.shdr, sh.executable = true →
      ∃ name, Strdup section_names sh.sh_name = .ok name) :
    image.fillSymbols symbol_names section_names includeLocal region path
        (symbols.length + image.shdr.length + 1) symbols =
      .ok (file.funcSymbols includeLocal region path, file.zero_found includeLocal) := by
  obtain ⟨first, symbols, rfl⟩ := List.exists_cons_of_ne_nil hne
  have hkept : file.kept includeLocal =
      (symbols.map (named symbol_names)).filter (file.keeps includeLocal) := by
    rw [ElfFile.kept, hsymbols]
    rfl
  have hkeptLength : (file.kept includeLocal).length ≤ symbols.length := by grind
  have htaken : (first :: symbols).tail.foldlM (image.addSymbol symbol_names includeLocal region
      path ((first :: symbols).length + image.shdr.length + 1)) ([], false) =
        .ok ((file.kept includeLocal).map (ElfFile.funcSymbol region path),
          file.zero_found includeLocal) := by grind [ElfFile.zero_found, foldlM_addSymbol]
  rw [fillSymbols, htaken, ElfFile.funcSymbols, hshdr]
  change ((if file.zero_found includeLocal then Except.ok _ else pushSymbol _ _ _) >>= _) = _
  -- Two more entries leave a place for each section.
  generalize hfuncs : (file.kept includeLocal).map (ElfFile.funcSymbol region path) = funcs
  have hlength : funcs.length ≤ symbols.length := by grind
  have hend : ∀ funcs : List Symbol, funcs.length ≤ symbols.length + 1 →
      (pushSymbol ((first :: symbols).length + image.shdr.length + 1) funcs (endSymbol region) >>=
        fun funcs => (image.shdr.foldlM (addSectionName section_names region path
          ((first :: symbols).length + image.shdr.length + 1)) funcs).map fun funcs =>
            (funcs, file.zero_found includeLocal)) =
        .ok ((image.shdr.map (header section_names)).foldl (addSection region path)
          (funcs ++ [endSymbol region]), file.zero_found includeLocal) := by
    intro funcs hfuncs
    have hpush : pushSymbol ((first :: symbols).length + image.shdr.length + 1) funcs
        (endSymbol region) = .ok (funcs ++ [endSymbol region]) := by
      rw [pushSymbol, List.length_cons, if_pos (by omega)]
    have hroom : (funcs ++ [endSymbol region]).length + image.shdr.length ≤
        (first :: symbols).length + image.shdr.length + 1 := by
      rw [List.length_append, List.length_singleton, List.length_cons]
      omega
    rw [hpush]
    exact congrArg (Except.map _) (foldlM_addSectionName hsections _ hroom)
  cases hzero : file.zero_found includeLocal with
  | true =>
      rw [hzero] at hend
      exact hend funcs (by omega)
  | false =>
      rw [hzero] at hend
      have hpush : pushSymbol ((first :: symbols).length + image.shdr.length + 1) funcs
          ⟨0, "(0 unknown)", none, region, .zero⟩ =
            .ok (funcs ++ [⟨0, "(0 unknown)", none, region, .zero⟩]) := by
        rw [pushSymbol, List.length_cons, if_pos (by omega)]
      change (pushSymbol _ funcs _ >>= _) = _
      rw [hpush]
      refine hend _ ?_
      grind

theorem pushSymbol_length {funcs funcs' : List Symbol} {s : Symbol}
    (h : pushSymbol num_alloc funcs s = .ok funcs') : funcs'.length ≤ num_alloc := by
  rw [pushSymbol] at h
  grind

/-- What is in the array when it is filled has a place there. -/
theorem fillSymbols_length {symbols : List ElfEntry} {filled : List Symbol × Bool}
    (h : image.fillSymbols symbol_names section_names includeLocal region path num_alloc symbols =
      .ok filled) : filled.1.length ≤ num_alloc := by
  obtain ⟨found, -, h⟩ := bind_eq_ok.mp h
  obtain ⟨funcs, -, h⟩ := bind_eq_ok.mp h
  obtain ⟨funcs', hend, h⟩ := bind_eq_ok.mp h
  obtain ⟨funcs'', hloop, rfl⟩ := map_eq_ok.mp h
  refine foldlM_invariant (I := fun funcs : List Symbol => funcs.length ≤ num_alloc)
    (fun funcs sh funcs' hle hturn => ?_) (pushSymbol_length hend) hloop
  rw [addSectionName] at hturn
  split at hturn
  · exact Except.ok.inj hturn ▸ hle
  · obtain ⟨name, -, hturn⟩ := bind_eq_ok.mp hturn
    split at hturn
    · exact pushSymbol_length hturn
    · exact pushSymbol_length hturn

/-- The copy of the symbols has as many as were counted. -/
theorem removeDuplicates_eq (functions : List Symbol) :
    removeDuplicates functions = .ok (uniqFunctions (~~~0) functions) := by
  have hcount := countDuplicates_add (~~~0) functions
  grind [removeDuplicates, uniqFunctions_eq_self]

/-- A table has a second entry. -/
theorem minAddr_eq {demangle : String → Option String} {table : List Symbol}
    (h : file.FunctionTable includeLocal region path demangle table) (zero_found : Bool) :
    minAddr zero_found table = .ok (if zero_found then 0 else table[1]?.elim 0 Symbol.addr) := by
  rw [minAddr]
  split
  · rfl
  · obtain ⟨first, hfirst, hzero⟩ := h.first
    have hlast := h.last
    cases table with
    | nil => cases hfirst
    | cons s table =>
        obtain rfl := Option.some.inj hfirst
        cases table with
        | nil =>
            have hs : s = endSymbol region := Option.some.inj hlast
            rw [hs] at hzero
            exact absurd hzero (by decide : (0xffffffff : BitVec 32) ≠ 0)
        | cons s' table => rfl

/-! ## Files that can be read -/

/-- A file whose sections for symbols and their names are found and not empty, with entries of 16
bytes and names in the string tables. -/
structure Readable (image : ElfImage) (section_names symtab symstr : ElfSection) : Prop where
  found_names : image.shdr[image.e_shstrndx]? = some section_names
  found_symtab : image.FindSymbolTableSection section_names.bytes = some symtab
  found_symstr : image.FindSymbolStringTableSection section_names.bytes = some symstr
  nonempty : symstr.bytes ≠ []
  entsize : symtab.sh_entsize = 16
  whole : 16 ∣ symtab.bytes.length
  symbols : ∀ sym ∈ image.entries symtab, sym.st_name ≠ 0 →
    (Strdup symstr.bytes sym.st_name).isOk
  sections : ∀ sh ∈ image.shdr, sh.executable →
    (Strdup section_names.bytes sh.sh_name).isOk

namespace Readable

variable {names symtab symstr : ElfSection} {f : TraceFiles} {r : Region}

theorem elf_symbols_eq (h : image.Readable names symtab symstr) :
    image.elf_symbols symtab = .ok (image.entries symtab) := by
  have hentries : symtab.bytes.length = 16 * num_entries symtab := by
    grind [num_entries, h.entsize, h.whole]
  grind [elf_symbols, h.entsize]

theorem entries_ne_nil (h : image.Readable names symtab symstr) (hsymtab : symtab.bytes ≠ []) :
    image.entries symtab ≠ [] := by
  obtain ⟨n, hn⟩ := h.whole
  have hpos := List.length_pos_of_ne_nil hsymtab
  have hnum : num_entries symtab = n := by simp [num_entries, h.entsize, hn]
  grind [entries, List.length_nil]

theorem fillSymbols_eq (h : image.Readable names symtab symstr) (hsymtab : symtab.bytes ≠ []) :
    image.fillSymbols symstr.bytes names.bytes includeLocal region path
        ((image.entries symtab).length + image.shdr.length + 1) (image.entries symtab) =
      .ok ((image.file names symtab symstr).funcSymbols includeLocal region path,
        (image.file names symtab symstr).zero_found includeLocal) :=
  ElfImage.fillSymbols_eq rfl rfl (h.entries_ne_nil hsymtab)
    (fun sym hsym hname => exists_of_isOk (h.symbols sym hsym hname))
    fun sh hsh hexec => exists_of_isOk (h.sections sh hsh hexec)

theorem ReadElfSymbols_eq (h : image.Readable names symtab symstr) (hsymtab : symtab.bytes ≠ []) :
    image.ReadElfSymbols f includeLocal region r =
      .ok (TraceReader.ReadElfSymbols
        { f with elf := fun _ => some (image.file names symtab symstr) } includeLocal region r) := by
  have htable := ElfFile.functions_table (image.file names symtab symstr) includeLocal region r.path
    f.qsort f.demangle
  rw [ReadElfSymbols]
  simp only [h.found_names, h.found_symtab, h.found_symstr, if_neg hsymtab, if_neg h.nonempty]
  rw [readFunctions, h.elf_symbols_eq]
  change (image.fillSymbols symstr.bytes names.bytes includeLocal region r.path
    ((image.entries symtab).length + image.shdr.length + 1) (image.entries symtab) >>= _) = _
  rw [h.fillSymbols_eq hsymtab]
  change (removeDuplicates _ >>= _) = _
  rw [removeDuplicates_eq]
  exact congrArg (Except.map _) (minAddr_eq htable _)

/-- The array of a file that can be read has room for every entry, and the table that it becomes
can be searched; a file without symbols gets a table with one entry. -/
theorem ReadElfSymbols_table (h : image.Readable names symtab symstr) (f : TraceFiles)
    (includeLocal : Bool) (region : RegionId) (r : Region) :
    (symtab.bytes = [] → image.ReadElfSymbols f includeLocal region r =
      .ok ({ r with vstart := 0 }, [⟨0, "(unknown)", none, region, .zero⟩])) ∧
    (symtab.bytes ≠ [] →
      ((image.file names symtab symstr).funcSymbols includeLocal region r.path).length ≤
        num_entries symtab + image.shdr.length + 1 ∧
      ∃ r' table, image.ReadElfSymbols f includeLocal region r = .ok (r', table) ∧
        (image.file names symtab symstr).FunctionTable includeLocal region r.path f.demangle
          table) := by
  refine ⟨fun hempty => ?_, fun hsymtab => ⟨?_, _, _, h.ReadElfSymbols_eq hsymtab, ?_⟩⟩
  · rw [ReadElfSymbols]
    simp only [h.found_names, h.found_symtab, if_pos hempty]
    rfl
  · have hlength : (image.entries symtab).length = num_entries symtab := by
      rw [entries, List.length_map, List.length_range]
    rw [← hlength]
    exact fillSymbols_length (h.fillSymbols_eq hsymtab)
  · exact ElfFile.functions_table (image.file names symtab symstr) includeLocal region r.path
      f.qsort f.demangle

def smallNames : ElfSection :=
  ⟨23, SHT_STRTAB, 0, 0, 0, [0, 46, 116, 101, 120, 116, 0, 46, 115, 121, 109, 116, 97, 98, 0,
    46, 115, 116, 114, 116, 97, 98, 0, 46, 115, 104, 115, 116, 114, 116, 97, 98, 0]⟩

def smallSymtab (bytes : List UInt8) : ElfSection := ⟨7, SHT_SYMTAB, 0, 0, 16, bytes⟩

def smallSymstr : ElfSection := ⟨15, SHT_STRTAB, 0, 0, 0, [0, 102, 0]⟩

/-- A file with an executable section and some symbols. -/
def smallImage (symbols : List UInt8) : ElfImage where
  swapped := false
  shdr := [⟨0, 0, 0, 0, 0, []⟩, ⟨1, 1, 6, 0x8000, 0, []⟩, smallSymtab symbols, smallSymstr,
    smallNames]
  e_shstrndx := 4

/-- The first symbol, and a function `f` with a thumb address in the section. -/
def thumbSymbols : List UInt8 :=
  List.replicate 16 0 ++ [1, 0, 0, 0, 1, 128, 0, 0, 0, 0, 0, 0, 18, 0, 1, 0]

theorem thumb_readable : (smallImage thumbSymbols).Readable smallNames
    (smallSymtab thumbSymbols) smallSymstr := by
  refine ⟨rfl, by decide +kernel, by decide +kernel, by decide, rfl, by decide, ?_, ?_⟩
  · decide +kernel
  · decide +kernel

/-- The table of a file with one function. -/
theorem ReadElfSymbols_thumb : ∃ r' table,
    (smallImage thumbSymbols).ReadElfSymbols TraceReader.noFiles false 0 (.new "a" 0 0 0) =
      .ok (r', table) ∧
    ((smallImage thumbSymbols).file smallNames (smallSymtab thumbSymbols)
      smallSymstr).FunctionTable false 0 "a" TraceReader.noFiles.demangle table :=
  ((ReadElfSymbols_table thumb_readable TraceReader.noFiles false 0 (.new "a" 0 0 0)).2
    (by decide)).2

/-- The file without symbols has an executable section, but its table has no end. -/
theorem ReadElfSymbols_empty : (smallImage []).Readable smallNames (smallSymtab []) smallSymstr ∧
    ∃ r' table,
      (smallImage []).ReadElfSymbols TraceReader.noFiles false 0 (.new "a" 0 0 0) =
        .ok (r', table) ∧
      table.getLast? ≠ some (endSymbol 0) ∧
      ¬∃ s ∈ table, s.addr = 0x8000 := by
  refine ⟨⟨rfl, by decide +kernel, by decide +kernel, by decide, rfl, by decide, ?_, ?_⟩,
    { Region.new "a" 0 0 0 with vstart := 0 }, [⟨0, "(unknown)", none, 0, .zero⟩], ?_, ?_, ?_⟩
  · decide +kernel
  · decide +kernel
  · rfl
  · decide
  · decide

end Readable

end ElfImage

end AndroidRenderer.Qtools.Trace
