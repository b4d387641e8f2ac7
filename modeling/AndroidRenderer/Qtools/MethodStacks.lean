import AndroidRenderer.Qtools.SameMaps
import AndroidRenderer.Qtools.CurrentPids

/-!
# Java methods by time

The records of the method trace push and pop the methods of their processes. One record of the
trace is kept ahead for all processes. At the time of a query the method of a process is the one
at the top of its stack, where that is no native method, as its regions were when its last record
was handled.
-/

namespace AndroidRenderer.Qtools.Trace

open Run BinarySearch

/-! ## Stacks of methods -/

def MethodRec.enters (rec : MethodRec) : Bool :=
  rec.flags = .kMethodEnter ∨ rec.flags = .kNativeEnter

def MethodRec.poppingNative (rec : MethodRec) : Bool :=
  rec.flags = .kNativeExit ∨ rec.flags = .kNativeException

/-- A record pushes a method or pops one; an empty stack stays empty. -/
def applyMethod (stack : List MethodFrame) (rec : MethodRec) : List MethodFrame :=
  if rec.enters then ⟨rec.addr, rec.flags = .kNativeEnter⟩ :: stack else stack.tail

/-- What the reader takes: there is room for a method, and a pop is of the method on top, at its
address unless that is a native method. -/
def fits (stack : List MethodFrame) (rec : MethodRec) : Bool :=
  if rec.enters then stack.length < ProcessState.kMaxMethodStackSize
  else stack.head?.all fun frame =>
    (frame.addr = rec.addr ∨ frame.isNative) ∧ rec.poppingNative = frame.isNative

/-- Every record is one that the reader takes. -/
def allFit : List MethodFrame → List MethodRec → Bool
  | _, [] => true
  | stack, rec :: recs => fits stack rec && allFit (applyMethod stack rec) recs

def ofPid (recs : List MethodRec) (pid : Int) : List MethodRec :=
  recs.filter fun rec => rec.pid = pid

/-- The records after one time up to another. -/
def within (recs : List MethodRec) (start stop : BitVec 64) : List MethodRec :=
  recs.filter fun rec => start < rec.time ∧ rec.time ≤ stop

/-- The stack after some records of a process. -/
def stackOf (recs : List MethodRec) : List MethodFrame := recs.foldl applyMethod []

theorem stackOf_append (recs recs' : List MethodRec) :
    stackOf (recs ++ recs') = recs'.foldl applyMethod (stackOf recs) :=
  List.foldl_append

theorem allFit_append (stack : List MethodFrame) (recs recs' : List MethodRec) :
    allFit stack (recs ++ recs') =
      (allFit stack recs && allFit (recs.foldl applyMethod stack) recs') := by
  induction recs generalizing stack with
  | nil => rfl
  | cons rec recs ih => rw [List.cons_append, allFit, ih, allFit, List.foldl_cons, Bool.and_assoc]

theorem ofPid_append (recs recs' : List MethodRec) (pid : Int) :
    ofPid (recs ++ recs') pid = ofPid recs pid ++ ofPid recs' pid :=
  List.filter_append ..

theorem ofPid_singleton (rec : MethodRec) (pid : Int) :
    ofPid [rec] pid = if rec.pid = pid then [rec] else [] := by
  rw [ofPid, List.filter_singleton]
  simp

theorem within_self (recs : List MethodRec) (time : BitVec 64) : within recs time time = [] := by
  refine List.filter_eq_nil_iff.mpr fun rec _ hwithin => ?_
  obtain ⟨hlt, hle⟩ := of_decide_eq_true hwithin
  exact absurd (BitVec.lt_def.mp hlt) (Nat.not_lt.mpr (BitVec.le_def.mp hle))

def recTime (rec : MethodRec) : Nat := rec.time.toNat

/-- The records in the order of their times are those up to a time and those after it. -/
theorem within_append {recs : List MethodRec} (hsorted : recs.Pairwise (·.time ≤ ·.time))
    {a b c : BitVec 64} (hab : a ≤ b) (hbc : b ≤ c) :
    within recs a c = within recs a b ++ within recs b c := by
  have hwithin : (within recs a c).Pairwise (recTime · ≤ recTime ·) :=
    (hsorted.imp fun hle => BitVec.le_def.mp hle).filter _
  have hsplit := Replay.filter_eq_due_append hwithin (t := b.toNat) (p := fun _ => true)
    fun _ _ => rfl
  rw [List.filter_true, List.filter_true] at hsplit
  rw [hsplit, Replay.due, Replay.later, within, List.filter_filter, List.filter_filter]
  rw [BitVec.le_def] at hab hbc
  refine congrArg₂ _ (List.filter_congr fun rec _ => ?_) (List.filter_congr fun rec _ => ?_)
  · rw [← Bool.decide_and, decide_eq_decide, recTime]
    simp only [BitVec.lt_def, BitVec.le_def]
    omega
  · rw [← Bool.decide_and, decide_eq_decide, recTime]
    simp only [BitVec.lt_def, BitVec.le_def]
    omega

namespace TraceReader

variable {f : TraceFiles} {s s' : TraceReader} {p q : ProcessRef} {pid : Int}

/-! ## The method of a stack -/

/-- The symbol at an address, in the region of a process that begins closest below it; `none`
where no symbol of an increasing table has the address. -/
def MethodAt (s : TraceReader) (p : ProcessRef) (addr : BitVec 32) (found : Option SymbolRef) :
    Prop :=
  ∃ region r, region ∈ s.managerEntries p ∧ s.regions.get? region = some r ∧
    s.Closest (s.managerEntries p) addr region ∧
    (∀ sym, found = some sym → sym.table = r.symbols ∧
      ∃ x, s.symbol? sym = some x ∧ x.addr = addr - r.base_addr) ∧
    (((s.symbolsOf r).Pairwise fun a b => a.addr.toNat < b.addr.toNat) → found = none →
      ∀ x ∈ s.symbolsOf r, x.addr ≠ addr - r.base_addr)

/-- The method on top of a stack. -/
def MethodOf (s : TraceReader) (p : ProcessRef) (found : Option SymbolRef) :
    List MethodFrame → Prop
  | [] => found = none
  | frame :: _ => if frame.isNative then found = none else s.MethodAt p frame.addr found

theorem FindFunction_exact (addr : BitVec 32) (symbols : List Symbol) :
    ∃ index, FindFunction addr symbols true = .ok index ∧
      (∀ i, index = some i → ∃ sym, symbols[i]? = some sym ∧ sym.addr = addr) ∧
      ((symbols.Pairwise fun a b => a.addr.toNat < b.addr.toNat) → index = none →
        ∀ sym ∈ symbols, sym.addr ≠ addr) := by
  obtain ⟨place, hplace, hwithin⟩ := search_all_within
    (fun i (hi : i < symbols.length) => symbolAt_addr hi) addr.toNat
  refine ⟨place.exact, ?_, fun i hi => ?_, fun hstrict hnone sym hsym => ?_⟩
  · rw [FindFunction, hplace]
    rfl
  · cases hwithin with
    | @found index hlt heq =>
        obtain rfl := Option.some.inj hi
        rw [addrAt, List.getElem?_eq_getElem hlt] at heq
        exact ⟨_, List.getElem?_eq_getElem hlt, BitVec.eq_of_toNat_eq heq⟩
    | between _ => cases hi
  · obtain ⟨place', hfits, hplace'⟩ := FindFunction_place hstrict addr
    have hexact : place'.exact = place.exact := by
      have hfound := hplace' true
      rw [FindFunction, hplace] at hfound
      exact (Except.ok.inj hfound).symm
    obtain ⟨i, hi, rfl⟩ := List.getElem_of_mem hsym
    intro heq
    have hkey : addrAt symbols i = addr.toNat := by
      rw [addrAt, List.getElem?_eq_getElem hi, ← heq]
      rfl
    rw [hnone] at hexact
    cases hfits with
    | found hlt _ => cases hexact
    | @between low hle hbelow habove => grind

/-! ## Records -/

structure MethodStep (q : ProcessRef) (s s' : TraceReader) : Prop where
  maps : SameMaps s s'
  others : ∀ p ≠ q, (s'.states p).method_stack = (s.states p).method_stack ∧
    (s'.states p).current_method_sym = (s.states p).current_method_sym

def setStack (s : TraceReader) (p : ProcessRef) :
    List MethodFrame → Except TraceFault TraceReader
  | [] => .ok (s.setState p { s.states p with method_stack := [], current_method_sym := none })
  | frame :: frames =>
      (s.setState p { s.states p with method_stack := frame :: frames }).setMethod p frame

theorem HandleMethodRecord_eq (s : TraceReader) (p : ProcessRef) (rec : MethodRec) :
    s.HandleMethodRecord p rec =
      if fits (s.states p).method_stack rec then
        s.setStack p (applyMethod (s.states p).method_stack rec)
      else .error .exit := by
  rw [HandleMethodRecord, fits, applyMethod]
  by_cases henters : rec.flags = .kMethodEnter ∨ rec.flags = .kNativeEnter
  · have henters' : rec.enters = true := decide_eq_true henters
    rw [henters', if_pos henters]
    by_cases hfull : ProcessState.kMaxMethodStackSize ≤ (s.states p).method_stack.length
    · simp [hfull]
    · rw [if_neg hfull, if_pos (by simpa using hfull)]
      rfl
  · have henters' : rec.enters = false := decide_eq_false henters
    rw [henters', if_neg henters]
    cases hstack : (s.states p).method_stack with
    | nil => rfl
    | cons frame frames =>
        simp only [Bool.false_eq_true, if_false, List.head?_cons, Option.all_some, List.tail_cons]
        by_cases hother : frame.addr ≠ rec.addr ∧ !frame.isNative
        · grind
        · have hsame : frame.addr = rec.addr ∨ frame.isNative := by
            by_cases haddr : frame.addr = rec.addr
            · exact .inl haddr
            · exact .inr (by simpa [haddr] using hother)
          rw [if_neg hother]
          change (if rec.poppingNative ≠ frame.isNative then _ else _) = _
          by_cases hpop : rec.poppingNative = frame.isNative
          · rw [if_neg (fun h => h hpop), if_pos (decide_eq_true ⟨hsame, hpop⟩)]
            rfl
          · simp [hpop]

namespace MethodStep

theorem trans {a b c : TraceReader} (hab : MethodStep q a b) (hbc : MethodStep q b c) :
    MethodStep q a c := by
  refine ⟨hab.maps.trans hbc.maps, fun p hp => ?_⟩
  grind [hab.others, hbc.others]

theorem setState (s : TraceReader) {st : ProcessState} (halike : Alike st (s.states q)) :
    MethodStep q s (s.setState q st) := by
  refine ⟨SameMaps.setState s halike, fun p hp => ?_⟩
  rw [states_setState, Function.update_of_ne hp]
  exact ⟨rfl, rfl⟩

theorem setSymbol (s : TraceReader) (sym : SymbolRef) {set : Symbol → Symbol}
    (hset : ∀ sym, (set sym).addr = sym.addr) : MethodStep q s (s.setSymbol sym set) :=
  ⟨.setSymbol s sym hset, fun _ _ => ⟨rfl, rfl⟩⟩

end MethodStep

/-- The symbol that the search finds is the one at the address. -/
theorem search_methodAt (hinv : s.Inv) (hp : p < s.nstates) (hne : s.managerEntries p ≠ [])
    (addr : BitVec 32) : ∃ region found,
      s.search addr (s.managerEntries p) true = .ok (region, found) ∧ s.MethodAt p addr found := by
  obtain ⟨region, r, index, hmem, hr, hclosest, hindex, -, hsearch, -⟩ :=
    search_ok hinv hp hne addr true
  obtain ⟨index', hindex', hsome, hnone⟩ := FindFunction_exact (addr - r.base_addr) (s.symbolsOf r)
  obtain rfl := Except.ok.inj (hindex.symm.trans hindex')
  refine ⟨region, _, hsearch, region, r, hmem, hr, hclosest, fun sym hsym => ?_,
    fun hstrict hmap => hnone hstrict (Option.map_eq_none_iff.mp hmap)⟩
  obtain ⟨i, hi, rfl⟩ := Option.map_eq_some_iff.mp hsym
  exact ⟨rfl, hsome i hi⟩

theorem setStack_ok (hinv : s.Inv) (hp : p < s.nstates) (hne : s.managerEntries p ≠ [])
    (stack : List MethodFrame) : ∃ s', s.setStack p stack = .ok s' ∧ MethodStep p s s' ∧
      (s'.states p).method_stack = stack ∧ s.MethodOf p (s'.states p).current_method_sym stack := by
  cases stack with
  | nil =>
      refine ⟨_, rfl, .setState s ⟨rfl, rfl, rfl, rfl⟩, ?_, ?_⟩
      · simp
      · rw [states_setState, Function.update_self]
        rfl
  | cons frame frames =>
      let st : ProcessState := { s.states p with method_stack := frame :: frames }
      let pushed := s.setState p st
      have hstep : MethodStep p s pushed := .setState s ⟨rfl, rfl, rfl, rfl⟩
      have hself : pushed.states p = st := Function.update_self _ _ _
      -- The method is set, whatever it is.
      have hset : ∀ found, MethodStep p s (pushed.setState p
          { pushed.states p with current_method_sym := found }) ∧
          ((pushed.setState p { pushed.states p with current_method_sym := found }).states
            p).method_stack = frame :: frames ∧
          ((pushed.setState p { pushed.states p with current_method_sym := found }).states
            p).current_method_sym = found := by
        intro found
        refine ⟨hstep.trans (.setState pushed ⟨rfl, rfl, rfl, rfl⟩), ?_, ?_⟩
        · rw [states_setState, Function.update_self, hself]
        · simp
      rw [setStack, setMethod]
      cases hnative : frame.isNative with
      | true => grind [MethodOf]
      | false =>
          obtain ⟨region, found, hsearch, hat⟩ := search_methodAt hinv hp hne frame.addr
          obtain ⟨hmaps, hstack, hmethod⟩ := hset found
          have hof : s.MethodOf p found (frame :: frames) := by
            rw [MethodOf, hnative]
            exact hat
          have hsearch' : pushed.search frame.addr (pushed.managerEntries p) true =
              .ok (region, found) := by
            rw [hstep.maps.search, hstep.maps.managerEntries, hsearch]
          simp only [Bool.false_eq_true, if_false]
          change ∃ s', Except.map _ (pushed.search frame.addr (pushed.managerEntries p) true) =
            .ok s' ∧ _
          rw [hsearch']
          cases found with
          | none =>
              refine ⟨_, rfl, hmaps, hstack, ?_⟩
              exact hmethod.symm ▸ hof
          | some sym =>
              refine ⟨_, rfl, hmaps.trans (.setSymbol _ sym fun _ => rfl), hstack, ?_⟩
              exact hmethod.symm ▸ hof

/-! ## The record that is kept ahead -/

def handleMethod (s : TraceReader) (rec : MethodRec) : Except TraceFault TraceReader :=
  if rec.time = 0 then .ok s
  else
    s.processAt rec.pid >>= fun p =>
      match p with
      | none => .error .nullDereference
      | some p => s.HandleMethodRecord p rec

/-- Another record is kept, and others are still to be read. -/
def setNext (s : TraceReader) (next : MethodRec) (recs : List MethodRec) : TraceReader :=
  { s with next_method_ := next, internal_method_reader_ := recs }

theorem setNext_maps (s : TraceReader) (next : MethodRec) (recs : List MethodRec) :
    SameMaps s (s.setNext next recs) :=
  ⟨rfl, rfl, rfl, rfl, rfl, fun _ => ⟨rfl, rfl, rfl, rfl⟩, fun _ => rfl⟩

theorem setStack_setNext (s : TraceReader) (p : ProcessRef) (stack : List MethodFrame)
    (next : MethodRec) (recs : List MethodRec) :
    (s.setNext next recs).setStack p stack =
      (s.setStack p stack).map fun s => s.setNext next recs := by
  cases stack with
  | nil => rfl
  | cons frame frames =>
      let pushed := s.setState p { s.states p with method_stack := frame :: frames }
      have hsearch : (pushed.setNext next recs).search frame.addr
          ((pushed.setNext next recs).managerEntries p) true =
            pushed.search frame.addr (pushed.managerEntries p) true := by
        rw [(setNext_maps pushed next recs).search, (setNext_maps pushed next recs).managerEntries]
      change (pushed.setNext next recs).setMethod p frame = (pushed.setMethod p frame).map _
      rw [setMethod, setMethod, hsearch]
      split
      · rfl
      · cases pushed.search frame.addr (pushed.managerEntries p) true with
        | error e => rfl
        | ok found =>
            obtain ⟨region, found⟩ := found
            cases found with
            | none => rfl
            | some sym => rfl

/-- The kept record plays no part when another one is handled. -/
theorem handleMethod_setNext (s : TraceReader) (rec next : MethodRec) (recs : List MethodRec) :
    (s.setNext next recs).handleMethod rec =
      (s.handleMethod rec).map fun s => s.setNext next recs := by
  rw [handleMethod, handleMethod]
  split
  · rfl
  · change (s.processAt rec.pid >>= _) = Except.map _ (s.processAt rec.pid >>= _)
    cases s.processAt rec.pid with
    | error e => rfl
    | ok p =>
        cases p with
        | none => rfl
        | some p =>
            change (s.setNext next recs).HandleMethodRecord p rec =
              (s.HandleMethodRecord p rec).map _
            rw [HandleMethodRecord_eq, HandleMethodRecord_eq]
            change (if fits (s.states p).method_stack rec then (s.setNext next recs).setStack p
              (applyMethod (s.states p).method_stack rec) else _) = _
            split
            · exact setStack_setNext s p _ next recs
            · rfl

theorem handleMethod_next {rec : MethodRec} (h : s.handleMethod rec = .ok s') :
    s'.next_method_ = s.next_method_ := by
  have hsame := handleMethod_setNext s rec s.next_method_ s.internal_method_reader_
  change s.handleMethod rec = _ at hsame
  rw [h] at hsame
  rw [Except.ok.inj hsame]
  rfl

/-- What becomes of the kept record at the end of the trace. -/
def ended (f : TraceFiles) (rec : MethodRec) : MethodRec :=
  { rec with time := ~~~0, addr := 0, flags := f.zeroFlags }

/-- The reader with the record that it keeps and those behind. -/
def packed (r : TraceReader × MethodRec × List MethodRec) : TraceReader := r.1.setNext r.2.1 r.2.2

theorem readOn_setNext (f : TraceFiles) (t : BitVec 64) (recs : List MethodRec) (s : TraceReader)
    (rec next : MethodRec) (recs' : List MethodRec) :
    (Replay.readOn handleMethod recTime (ended f) t.toNat recs (s.setNext next recs') rec).map
        packed =
      (Replay.readOn handleMethod recTime (ended f) t.toNat recs s rec).map packed := by
  induction recs generalizing s rec with
  | nil =>
      rw [Replay.readOn, Replay.readOn, handleMethod_setNext]
      cases s.handleMethod rec with
      | error e => rfl
      | ok s' => rfl
  | cons rec' recs ih =>
      rw [Replay.readOn, Replay.readOn, handleMethod_setNext]
      cases s.handleMethod rec with
      | error e => rfl
      | ok s' =>
          change Except.map packed (if t.toNat < recTime rec' then Except.ok
            (s'.setNext next recs', rec', recs) else Replay.readOn handleMethod recTime (ended f)
              t.toNat recs (s'.setNext next recs') rec') =
            Except.map packed (if t.toNat < recTime rec' then Except.ok (s', rec', recs)
              else Replay.readOn handleMethod recTime (ended f) t.toNat recs s' rec')
          split
          · rfl
          · exact ih s' rec'

theorem readMethods_eq (f : TraceFiles) (t : BitVec 64) (recs : List MethodRec)
    (s : TraceReader) : readMethods f t recs s =
      (Replay.readOn handleMethod recTime (ended f) t.toNat recs s s.next_method_).map packed := by
  induction recs generalizing s with
  | nil =>
      rw [readMethods, Replay.readOn]
      change (s.handleMethod s.next_method_).map _ = _
      cases hhandle : s.handleMethod s.next_method_ with
      | error e => rfl
      | ok s' =>
          change Except.ok (s'.setNext (ended f s'.next_method_) []) = _
          rw [handleMethod_next hhandle]
          rfl
  | cons rec recs ih =>
      rw [readMethods, Replay.readOn]
      change (s.handleMethod s.next_method_ >>= _) = _
      cases s.handleMethod s.next_method_ with
      | error e => rfl
      | ok s' =>
          change (if t < rec.time then Except.ok (s'.setNext rec recs)
            else readMethods f t recs (s'.setNext rec recs)) = Except.map packed
              (if t.toNat < recTime rec then _ else _)
          by_cases hlater : t < rec.time
          · rw [if_pos hlater, if_pos (show t.toNat < recTime rec from BitVec.lt_def.mp hlater)]
            rfl
          · have hnot : ¬t.toNat < recTime rec := fun hlt => hlater (BitVec.lt_def.mpr hlt)
            rw [if_neg hlater, if_neg hnot, ih]
            exact readOn_setNext f t recs s' rec rec recs

/-- The records that are still to be handled. -/
def Waiting (s : TraceReader) (as : List MethodRec) : Prop :=
  ∃ marked, recTime marked = lastTime ∧
    Replay.keep marked as = (s.next_method_, s.internal_method_reader_)

/-- A query handles the records that are due. -/
theorem FindCurrentMethod_due (f : TraceFiles) (p : ProcessRef) {t : BitVec 64} (ht : t < ~~~0)
    {as : List MethodRec} (has : as.Pairwise (recTime · ≤ recTime ·)) (h : s.Waiting as) :
    ∃ setWaiting : TraceReader → TraceReader,
      s.FindCurrentMethod f p t = ((Replay.due recTime t.toNat as).foldlM handleMethod s).map
        (fun s' => (setWaiting s', (s'.states p).current_method_sym)) ∧
      ∀ s', (setWaiting s').Waiting (Replay.later recTime t.toNat as) ∧
        ∃ next recs, setWaiting s' = s'.setNext next recs := by
  obtain ⟨marked, hmarked, hkeep⟩ := h
  obtain ⟨marked', hmarked', hask⟩ := Replay.ask_eq handleMethod (ended f)
    (fun _ => (rfl : recTime (ended f _) = lastTime)) (BitVec.lt_def.mp ht) hmarked as s
  rw [hkeep] at hask
  let kept := Replay.keep marked' (Replay.later recTime t.toNat as)
  refine ⟨fun s' => s'.setNext kept.1 kept.2, ?_, fun s' => ⟨⟨marked', hmarked', rfl⟩, _, _, rfl⟩⟩
  have hread : (if t < s.next_method_.time then Except.ok s
      else readMethods f t s.internal_method_reader_ s) =
        (Replay.ask handleMethod recTime (ended f) t.toNat s s.next_method_
          s.internal_method_reader_).map packed := by
    rw [Replay.ask]
    by_cases hlater : t < s.next_method_.time
    · rw [if_pos hlater,
        if_pos (show t.toNat < recTime s.next_method_ from BitVec.lt_def.mp hlater)]
      rfl
    · have hnot : ¬t.toNat < recTime s.next_method_ := fun hlt => hlater (BitVec.lt_def.mpr hlt)
      rw [if_neg hlater, if_neg hnot, readMethods_eq]
  rw [FindCurrentMethod, hread, hask, Replay.advance_eq has]
  cases (Replay.due recTime t.toNat as).foldlM handleMethod s with
  | error e => rfl
  | ok s' => rfl

/-! ## Stacks after some records -/

def Ready (s : TraceReader) (rec : MethodRec) : Prop :=
  0 ≤ rec.pid ∧ rec.pid < kNumPids ∧
    ∃ p, s.processes_ rec.pid = some p ∧ s.managerEntries p ≠ []

theorem Ready.maps {rec : MethodRec} (h : s.Ready rec) (hmaps : SameMaps s s') :
    s'.Ready rec := by
  obtain ⟨hpos, hlt, p, hp, hne⟩ := h
  exact ⟨hpos, hlt, p, hmaps.processes ▸ hp, (hmaps.managerEntries p).symm ▸ hne⟩

/-- The method of a process where its last record was handled. -/
def MethodThen (seen : Option TraceReader) (pid : Int) (p : ProcessRef)
    (found : Option SymbolRef) : List MethodFrame → Prop
  | [] => found = none
  | frame :: _ =>
      if frame.isNative then found = none
      else ∃ s, seen = some s ∧ s.processes_ pid = some p ∧ s.MethodAt p frame.addr found

variable {found : Option SymbolRef} {recs : Int → List MethodRec} {seen : Int → Option TraceReader}

theorem MethodOf.then {stack : List MethodFrame}
    (h : s.MethodOf p found stack) (hp : s.processes_ pid = some p) :
    MethodThen (some s) pid p found stack := by
  cases stack with
  | nil => exact h
  | cons frame frames => grind [MethodOf, MethodThen]

/-- The processes after some records for each pid, each seen where its last one was handled. -/
structure MethodsInv (s : TraceReader) (recs : Int → List MethodRec)
    (seen : Int → Option TraceReader) : Prop where
  known : ∀ pid, recs pid ≠ [] → (s.processes_ pid).isSome
  stack : ∀ pid p, s.processes_ pid = some p → (s.states p).method_stack = stackOf (recs pid)
  method : ∀ pid p, s.processes_ pid = some p →
    MethodThen (seen pid) pid p (s.states p).current_method_sym (stackOf (recs pid))

def seenAfter (s : TraceReader) (recs : List MethodRec) (seen : Int → Option TraceReader)
    (pid : Int) : Option TraceReader :=
  if ofPid recs pid = [] then seen pid else some s

theorem SameMaps.symm (h : SameMaps s s') : SameMaps s' s :=
  ⟨h.regions.symm, h.hash.symm, h.processes.symm, h.current.symm, h.nstates.symm,
    fun q => ⟨(h.states q).regions.symm, (h.states q).max_regions.symm,
      (h.states q).addr_manager.symm, (h.states q).pid.symm⟩, fun t => (h.addrs t).symm⟩

theorem MethodAt.maps {addr : BitVec 32} (h : s.MethodAt p addr found)
    (hmaps : SameMaps s s') : s'.MethodAt p addr found := by
  obtain ⟨region, r, hmem, hr, hclosest, hsome, hnone⟩ := h
  have hvstart : s'.vstart = s.vstart := by
    funext i
    rw [vstart, hmaps.regions, vstart]
  have hsymbols : (s'.symbolsOf r).map Symbol.addr = (s.symbolsOf r).map Symbol.addr :=
    hmaps.addrs r.symbols
  refine ⟨region, r, ?_, hmaps.regions.symm ▸ hr, ?_, fun sym hsym => ?_,
    fun hstrict hfound x hx => ?_⟩
  · rwa [hmaps.managerEntries]
  · rwa [hmaps.managerEntries, Closest, hvstart]
  · obtain ⟨htable, x, hx, haddr⟩ := hsome sym hsym
    have hmap := congrArg (·[sym.index]?) (hmaps.addrs sym.table)
    rw [List.getElem?_map, List.getElem?_map] at hmap
    have hx' : (s.tables.getD sym.table [])[sym.index]? = some x := hx
    rw [hx', Option.map_some, Option.map_eq_some_iff] at hmap
    obtain ⟨x', hx', haddr'⟩ := hmap
    exact ⟨htable, x', hx', haddr'.trans haddr⟩
  · have hstrict' : (s.symbolsOf r).Pairwise fun a b => a.addr.toNat < b.addr.toNat := by
      have hmap : ((s'.symbolsOf r).map Symbol.addr).Pairwise fun a b => a.toNat < b.toNat :=
        List.pairwise_map.mpr hstrict
      rw [hsymbols, List.pairwise_map] at hmap
      exact hmap
    have haddr : x.addr ∈ (s.symbolsOf r).map Symbol.addr := hsymbols ▸ List.mem_map_of_mem hx
    grind

theorem MethodOf.maps {stack : List MethodFrame}
    (h : s.MethodOf p found stack) (hmaps : SameMaps s s') : s'.MethodOf p found stack := by
  cases stack with
  | nil => exact h
  | cons frame frames =>
      rw [MethodOf] at h ⊢
      split
      · grind
      · rename_i hnative
        rw [if_neg hnative] at h
        exact h.maps hmaps

/-- A record is handled if it fits the stack of its process, and ends the program if not. -/
theorem handleMethod_spec {s₀ : TraceReader} (hinv : s.Inv) (h : s.MethodsInv recs seen)
    (hmaps : SameMaps s₀ s) {rec : MethodRec} (hready : s.Ready rec) (htime : 0 < rec.time) :
    if fits (stackOf (recs rec.pid)) rec then
      ∃ s', s.handleMethod rec = .ok s' ∧ SameMaps s s' ∧
        s'.MethodsInv (fun pid => recs pid ++ ofPid [rec] pid) (seenAfter s₀ [rec] seen)
    else s.handleMethod rec = .error .exit := by
  obtain ⟨hpos, hlt, p, hp, hne⟩ := hready
  have hhandle : s.handleMethod rec = s.HandleMethodRecord p rec := by
    rw [handleMethod, if_neg (BitVec.ne_of_lt htime).symm, processAt, if_pos ⟨hpos, hlt⟩, hp]
    rfl
  rw [hhandle, HandleMethodRecord_eq, h.stack _ p hp]
  split
  · obtain ⟨hps, hpid⟩ := hinv.processes.process _ p hp
    obtain ⟨s', hok, hstep, hstack, hmethod⟩ :=
      setStack_ok hinv hps hne (applyMethod (stackOf (recs rec.pid)) rec)
    -- No other pid has the process of the record.
    have hother : ∀ pid q, rec.pid ≠ pid → s.processes_ pid = some q → q ≠ p :=
      fun pid q hpids hq hqp => hpids (hpid.symm.trans (hqp ▸ (hinv.processes.process _ q hq).2))
    refine ⟨s', hok, hstep.maps, ⟨fun pid hrecs => ?_, fun pid q hq => ?_, fun pid q hq => ?_⟩⟩
    · rw [hstep.maps.processes]
      by_cases heq : rec.pid = pid
      · grind
      · rw [ofPid_singleton, if_neg heq, List.append_nil] at hrecs
        exact h.known pid hrecs
    · rw [hstep.maps.processes] at hq
      rw [ofPid_singleton]
      by_cases heq : rec.pid = pid
      · obtain rfl := Option.some.inj (hp.symm.trans (heq ▸ hq))
        simp [stackOf_append, heq, hstack]
      · rw [if_neg heq, List.append_nil, (hstep.others q (hother pid q heq hq)).1]
        exact h.stack pid q hq
    · rw [hstep.maps.processes] at hq
      rw [seenAfter, ofPid_singleton]
      by_cases heq : rec.pid = pid
      · obtain rfl := Option.some.inj (hp.symm.trans (heq ▸ hq))
        rw [if_pos heq, if_neg (List.cons_ne_nil _ _), ← heq, stackOf_append]
        exact (hmethod.maps hmaps.symm).then (hmaps.processes ▸ hp)
      · rw [if_neg heq, if_pos rfl, List.append_nil, (hstep.others q (hother pid q heq hq)).2]
        exact h.method pid q hq
  · rfl

/-- Records without a time are none. -/
theorem foldlM_handleMethod (recs : List MethodRec) (s : TraceReader) :
    recs.foldlM handleMethod s = (recs.filter fun rec => 0 < rec.time).foldlM handleMethod s := by
  induction recs generalizing s with
  | nil => rfl
  | cons rec recs ih =>
      rw [List.foldlM_cons, List.filter_cons]
      by_cases htime : 0 < rec.time
      · grind
      · have hzero : rec.time = 0 := BitVec.le_zero_iff.mp (BitVec.not_lt.mp htime)
        rw [if_neg (by simpa using hzero), handleMethod, if_pos hzero]
        exact ih s

/-- The records go through if each one fits when its turn comes. -/
theorem handleMethods_spec {s₀ : TraceReader} (due : List MethodRec) (hinv : s.Inv)
    (h : s.MethodsInv recs seen) (hmaps : SameMaps s₀ s)
    (hdue : ∀ rec ∈ due, s.Ready rec ∧ 0 < rec.time) :
    ((∀ pid, allFit (stackOf (recs pid)) (ofPid due pid)) →
      ∃ s', due.foldlM handleMethod s = .ok s' ∧ SameMaps s s' ∧
        s'.MethodsInv (fun pid => recs pid ++ ofPid due pid) (seenAfter s₀ due seen)) ∧
    (¬(∀ pid, allFit (stackOf (recs pid)) (ofPid due pid)) →
      due.foldlM handleMethod s = .error .exit) := by
  induction due generalizing s recs seen with
  | nil =>
      refine ⟨fun _ => ⟨s, rfl, .refl s, ?_⟩, fun hnot => absurd (fun _ => rfl) hnot⟩
      have hrecs : (fun pid => recs pid ++ ofPid [] pid) = recs :=
        funext fun pid => List.append_nil _
      rw [hrecs]
      exact h
  | cons rec due ih =>
      obtain ⟨hready, htime⟩ := hdue rec List.mem_cons_self
      have hspec := handleMethod_spec hinv h hmaps hready htime
      have hsplit : ∀ pid, ofPid (rec :: due) pid = ofPid [rec] pid ++ ofPid due pid :=
        fun pid => ofPid_append [rec] due pid
      rw [List.foldlM_cons]
      by_cases hfits : fits (stackOf (recs rec.pid)) rec = true
      · rw [if_pos hfits] at hspec
        obtain ⟨s₁, hok, hstep, h₁⟩ := hspec
        have hfirst : ∀ pid, allFit (stackOf (recs pid)) (ofPid [rec] pid) = true := by
          grind [ofPid_singleton, allFit]
        have hall : (∀ pid, allFit (stackOf (recs pid)) (ofPid (rec :: due) pid) = true) ↔
            ∀ pid, allFit (stackOf (recs pid ++ ofPid [rec] pid)) (ofPid due pid) = true := by
          simp [allFit_append, Bool.true_and, stackOf_append, hsplit, hfirst]
        obtain ⟨hgood, hbad⟩ := ih (hstep.inv hinv) h₁ (hmaps.trans hstep) fun rec' hrec' =>
          ⟨(hdue rec' (List.mem_cons_of_mem _ hrec')).1.maps hstep,
            (hdue rec' (List.mem_cons_of_mem _ hrec')).2⟩
        rw [hok, hall]
        refine ⟨fun hfit => ?_, hbad⟩
        obtain ⟨s', hrest, hmaps', h'⟩ := hgood hfit
        refine ⟨s', hrest, hstep.trans hmaps', ?_⟩
        have hseen : seenAfter s₀ due (seenAfter s₀ [rec] seen) =
            seenAfter s₀ (rec :: due) seen := by
          funext pid
          rw [seenAfter, seenAfter, seenAfter, hsplit]
          cases ofPid due pid with
          | nil => rw [if_pos rfl, List.append_nil]
          | cons _ _ => rw [if_neg (List.cons_ne_nil _ _), if_neg (by simp)]
        simp only [hsplit, ← List.append_assoc]
        rwa [hseen] at h'
      · rw [if_neg hfits] at hspec
        rw [hspec]
        refine ⟨fun hall => absurd (hall rec.pid) ?_, fun _ => rfl⟩
        rw [hsplit, ofPid_singleton, if_pos rfl, List.singleton_append, allFit]
        simp [hfits]

/-! ## Runs -/

/-- What a run has done up to now: the time of the last query, the time of the query before a fork
or clone last took the pid of a process, and where the processes were when their last records were
handled. -/
structure MethodClock where
  time : BitVec 64
  born : Int → BitVec 64
  seen : Int → Option TraceReader

namespace MethodClock

def start : MethodClock := ⟨0, fun _ => 0, fun _ => none⟩

def records (c : MethodClock) (f : TraceFiles) (pid : Int) (time : BitVec 64) : List MethodRec :=
  ofPid (within f.methods (c.born pid) time) pid

/-- The records that a query handles. -/
def due (c : MethodClock) (f : TraceFiles) (time : BitVec 64) : List MethodRec :=
  within f.methods c.time time

def event (c : MethodClock) (s : TraceReader) (event : PidEvent) : MethodClock :=
  { c with
    born := fun pid =>
      if event.childPid = some pid ∧ (s.processes_ pid).isSome then c.time else c.born pid }

@[simp] theorem event_time (c : MethodClock) (s : TraceReader) (event : PidEvent) :
    (c.event s event).time = c.time :=
  rfl

theorem event_born (c : MethodClock) (s : TraceReader) (event : PidEvent) (pid : Int) :
    (c.event s event).born pid =
      if event.childPid = some pid ∧ (s.processes_ pid).isSome then c.time else c.born pid :=
  rfl

def query (c : MethodClock) (f : TraceFiles) (s : TraceReader) (time : BitVec 64) :
    MethodClock :=
  { c with time := time, seen := s.seenAfter (c.due f time) c.seen }

end MethodClock

/-- The events of the trace and the queries of its user. -/
inductive MethodAction
  | event (event : PidEvent)
  | query (pid : Int) (time : BitVec 64)

def methodStep (f : TraceFiles) (s : TraceReader × MethodClock) :
    MethodAction → Except TraceFault (TraceReader × MethodClock)
  | .event event => (s.1.HandlePidEvent f event).map fun s' => (s', s.2.event s.1 event)
  | .query pid time =>
      s.1.process pid >>= fun p =>
        (s.1.FindCurrentMethod f p time).map fun found => (found.1, s.2.query f s.1 time)

/-- Events are ones that the reader can take, and queries come in the order of their times, for
processes with regions. -/
def MethodProper (f : TraceFiles) (s : TraceReader × MethodClock) : MethodAction → Prop
  | .event event => s.1.Admissible event
  | .query pid time => (s.1.processes_ pid).isSome ∧ s.2.time ≤ time ∧ time < ~~~0 ∧
      ∀ rec ∈ s.2.due f time, s.1.Ready rec

/-- Every record that a query handles fits the stack of its process then. -/
def DueFit (f : TraceFiles) (c : MethodClock) (time : BitVec 64) : Prop :=
  ∀ pid, allFit (stackOf (c.records f pid c.time)) (ofPid (c.due f time) pid)

/-- The state between the actions of a run. -/
structure MethodRunInv (f : TraceFiles) (s : TraceReader) (c : MethodClock) : Prop where
  inv : s.Inv
  born : ∀ pid, c.born pid ≤ c.time
  waiting : ∃ recs, recs.Pairwise (recTime · ≤ recTime ·) ∧ s.Waiting recs ∧
    (recs.filter fun rec => 0 < rec.time) = f.methods.filter fun rec => c.time < rec.time
  methods : s.MethodsInv (fun pid => c.records f pid c.time) c.seen

/-- A process has the pid that a fork or clone gives it. -/
theorem child_process {event : PidEvent} (h : s.HandlePidEvent f event = .ok s')
    (hchild : event.childPid = some pid) : s'.processes_ pid = some s.nstates := by
  cases event with
  | kPidFork time tgid child =>
      obtain rfl := Option.some.inj hchild
      obtain ⟨_, -, h⟩ := bind_eq_ok.mp h
      obtain ⟨name, -, h⟩ := bind_eq_ok.mp h
      rw [(CopyRegions_threads h).processes]
      exact Function.update_self _ _ _
  | kPidClone time tgid child =>
      obtain rfl := Option.some.inj hchild
      obtain ⟨_, -, h⟩ := bind_eq_ok.mp h
      obtain ⟨name, -, h⟩ := bind_eq_ok.mp h
      obtain rfl := Except.ok.inj h
      exact Function.update_self _ _ _
  | _ => cases hchild

/-- A process that an event makes starts with an empty stack, and the others keep theirs. -/
theorem MethodsInv.event {recs' : Int → List MethodRec}
    (hinv : s.Inv) (h : s.MethodsInv recs seen) {event : PidEvent}
    (hstep : s.HandlePidEvent f event = .ok s')
    (hrecs : ∀ pid, recs' pid =
      if event.childPid = some pid ∧ (s.processes_ pid).isSome then [] else recs pid) :
    s'.MethodsInv recs' seen := by
  have hprocesses := hinv.processes
  have hgrows := (HandlePidEvent_step ⟨hprocesses.process, hprocesses.current⟩ hstep).grows
  -- The process of a pid is one that was there, or a new one that no record is of.
  have hcases : ∀ pid p, s'.processes_ pid = some p →
      s.processes_ pid = some p ∧ p < s.nstates ∧ recs' pid = recs pid ∨
        recs' pid = [] ∧ (s'.states p).method_stack = [] ∧
          (s'.states p).current_method_sym = none := by
    intro pid p hp
    by_cases hchild : event.childPid = some pid
    · right
      obtain rfl := Option.some.inj ((child_process hstep hchild).symm.trans hp)
      refine ⟨?_, hgrows.fresh _ ?_ (Nat.le_refl _)⟩
      · grind [h.known]
      · obtain hold | ⟨-, hlt, -⟩ := hgrows.process pid _ hp
        · exact absurd (hprocesses.process pid _ hold).1 (Nat.lt_irrefl _)
        · exact hlt
    · have hsame : recs' pid = recs pid := by rw [hrecs, if_neg fun hand => hchild hand.1]
      obtain hold | ⟨hle, hlt, -⟩ := hgrows.process pid p hp
      · exact .inl ⟨hold, (hprocesses.process pid p hold).1, hsame⟩
      · refine .inr ⟨?_, hgrows.fresh p hlt hle⟩
        rw [hsame]
        by_contra hne
        obtain ⟨q, hq⟩ := Option.isSome_iff_exists.mp (h.known pid hne)
        obtain rfl := Option.some.inj ((hgrows.kept pid q hchild hq).symm.trans hp)
        exact absurd (hprocesses.process pid q hq).1 (Nat.not_lt.mpr hle)
  refine ⟨fun pid hne => ?_, fun pid p hp => ?_, fun pid p hp => ?_⟩
  · have hchild : event.childPid = some pid → s.processes_ pid = none := by
      intro hchild
      rw [← Option.not_isSome_iff_eq_none]
      intro hsome
      rw [hrecs, if_pos ⟨hchild, hsome⟩] at hne
      exact hne rfl
    have hold : recs pid ≠ [] := by grind
    obtain ⟨q, hq⟩ := Option.isSome_iff_exists.mp (h.known pid hold)
    grind [hgrows.kept]
  · obtain ⟨hold, hlt, hsame⟩ | ⟨hnil, hstack, -⟩ := hcases pid p hp
    · rw [(hgrows.states p hlt).method_stack, hsame, h.stack pid p hold]
    · rw [hstack, hnil]
      rfl
  · obtain ⟨hold, hlt, hsame⟩ | ⟨hnil, -, hmethod⟩ := hcases pid p hp
    · rw [(hgrows.states p hlt).current_method, hsame]
      exact h.method pid p hold
    · rw [hmethod, hnil]
      rfl

namespace MethodRunInv

variable {c : MethodClock}

theorem event (h : MethodRunInv f s c) {event : PidEvent} (hok : s.Admissible event)
    (hstep : s.HandlePidEvent f event = .ok s') : MethodRunInv f s' (c.event s event) := by
  have hprocesses := h.inv.processes
  have hgrows := (HandlePidEvent_step ⟨hprocesses.process, hprocesses.current⟩ hstep).grows
  refine ⟨(HandlePidEvent_meets h.inv event hok).result s' hstep, fun pid => ?_, ?_,
    h.methods.event h.inv hstep fun pid => ?_⟩
  · grind [MethodClock.event_born, MethodClock.event_time, h.born]
  · obtain ⟨recs, hsorted, ⟨marked, hmarked, hkeep⟩, hrecs⟩ := h.waiting
    refine ⟨recs, hsorted, ⟨marked, hmarked, ?_⟩, hrecs⟩
    rw [hgrows.next_method, hgrows.method_reader]
    exact hkeep
  · rw [MethodClock.records, MethodClock.event_born, MethodClock.event_time]
    split
    · rw [within_self]
      rfl
    · rfl

/-- A query handles the records since the last one, and reads the method then. -/
theorem query (h : MethodRunInv f s c) (hsorted : f.methods.Pairwise (·.time ≤ ·.time))
    {time : BitVec 64} (hok : MethodProper f (s, c) (.query pid time))
    (hp : s.processes_ pid = some p) :
    (DueFit f c time → ∃ s' found, s.FindCurrentMethod f p time = .ok (s', found) ∧
      MethodRunInv f s' (c.query f s time) ∧
      MethodThen ((c.query f s time).seen pid) pid p found (stackOf (c.records f pid time))) ∧
    (¬DueFit f c time → s.FindCurrentMethod f p time = .error .exit) := by
  obtain ⟨-, hle, htime, hready⟩ := hok
  have hle : c.time ≤ time := hle
  obtain ⟨recs, hrecs, hwaiting, hmethods⟩ := h.waiting
  obtain ⟨setWaiting, hfind, hset⟩ := FindCurrentMethod_due f p htime hrecs hwaiting
  have hdue : (Replay.due recTime time.toNat recs).filter (fun rec => 0 < rec.time) =
      c.due f time := by
    rw [Replay.due, List.filter_comm, hmethods, List.filter_filter]
    refine List.filter_congr fun rec _ => ?_
    rw [← Bool.decide_and, decide_eq_decide, recTime]
    simp only [BitVec.le_def]
    exact and_comm
  have hlater : (Replay.later recTime time.toNat recs).filter (fun rec => 0 < rec.time) =
      f.methods.filter fun rec => time < rec.time := by
    rw [Replay.later, List.filter_comm, hmethods, List.filter_filter]
    refine List.filter_congr fun rec _ => ?_
    rw [← Bool.decide_and, decide_eq_decide, recTime]
    simp only [BitVec.lt_def]
    rw [BitVec.le_def] at hle
    omega
  have happend : ∀ q, c.records f q c.time ++ ofPid (c.due f time) q = c.records f q time := by
    grind [MethodClock.records, MethodClock.due, ofPid_append, within_append, h.born]
  have hpositive : ∀ rec ∈ c.due f time, s.Ready rec ∧ 0 < rec.time := by grind
  obtain ⟨hgood, hbad⟩ := handleMethods_spec (c.due f time) h.inv h.methods (.refl s) hpositive
  rw [hfind, foldlM_handleMethod, hdue]
  refine ⟨fun hfit => ?_, fun hnot => ?_⟩
  · obtain ⟨s', hok, hmaps, hs'⟩ := hgood hfit
    obtain ⟨hwaiting', next, recs', hnext⟩ := hset s'
    rw [hok]
    refine ⟨_, _, rfl, ⟨?_, fun q => BitVec.le_trans (h.born q) hle, ?_, ?_⟩, ?_⟩
    · rw [hnext]
      exact (setNext_maps s' next recs').inv (hmaps.inv h.inv)
    · exact ⟨_, Replay.later_sorted hrecs, hwaiting', hlater⟩
    · simp only [happend] at hs'
      rw [hnext]
      exact ⟨hs'.known, hs'.stack, hs'.method⟩
    · have hp' : s'.processes_ pid = some p := hmaps.processes ▸ hp
      have hmethod := hs'.method pid p hp'
      simp only [happend] at hmethod
      exact hmethod
  · rw [hbad hnot]
    rfl

end MethodRunInv

/-- Before the first event no record has been read. -/
theorem start_threads {kernel_files : List String} (h : start f kernel_files = .ok s) :
    SameThreads (blank f) s := by
  have hhashed : ∀ (s : TraceReader) (r : Region) (symbols : List Symbol),
      SameThreads s (s.newHashedRegion r symbols) :=
    fun _ _ _ => ⟨rfl, rfl, rfl, rfl, rfl, fun _ => ⟨rfl, rfl, rfl⟩⟩
  obtain ⟨t, hnew, hread⟩ := bind_eq_ok.mp h
  have ht : SameThreads (blank f) t := foldlM_invariant (I := SameThreads (blank f))
    (fun _ _ _ hb hok => (hb.trans (hhashed _ _ _)).trans (AddRegion_threads hok)) (.refl _) hnew
  refine foldlM_invariant (I := SameThreads (blank f)) (fun b _ b' hb hok => ?_) ht hread
  obtain ⟨first, -, hok⟩ := bind_eq_ok.mp hok
  obtain ⟨u, hadd, rfl⟩ := map_eq_ok.mp hok
  exact ((hb.trans (hhashed _ _ _)).trans (AddRegion_threads hadd)).setState_of ⟨rfl, rfl, rfl⟩

theorem start_runInv (hsorted : f.methods.Pairwise (·.time ≤ ·.time)) {kernel_files : List String}
    (h : start f kernel_files = .ok s) (hs : s.Started) : MethodRunInv f s .start := by
  have hthreads := start_threads h
  have hnone : ∀ pid, MethodClock.start.records f pid 0 = [] := by
    intro pid
    change ofPid (within f.methods 0 0) pid = []
    rw [within_self]
    rfl
  refine ⟨hs.inv, fun _ => BitVec.le_refl _, ?_, fun pid hne => absurd (hnone pid) hne,
    fun pid p _ => ?_, fun pid p _ => ?_⟩
  · refine ⟨⟨0, 0, 0, f.zeroFlags⟩ :: f.methods, List.pairwise_cons.mpr
      ⟨fun _ _ => Nat.zero_le _, hsorted.imp fun hle => BitVec.le_def.mp hle⟩, ?_, rfl⟩
    refine ⟨⟨~~~0, 0, 0, f.zeroFlags⟩, rfl, ?_⟩
    rw [hthreads.next_method, hthreads.method_reader]
    rfl
  · rw [(hthreads.states p).method_stack]
    exact congrArg stackOf (hnone pid).symm
  · have hmethod : (s.states p).current_method_sym = none := (hthreads.states p).current_method
    change MethodThen _ pid p _ (stackOf (MethodClock.start.records f pid 0))
    rw [hnone, hmethod]
    rfl

theorem methodStep_inv (hsorted : f.methods.Pairwise (·.time ≤ ·.time)) {c c' : MethodClock}
    (h : MethodRunInv f s c) {action : MethodAction} (hok : MethodProper f (s, c) action)
    (hstep : methodStep f (s, c) action = .ok (s', c')) : MethodRunInv f s' c' := by
  cases action with
  | event event =>
      obtain ⟨t, ht, heq⟩ := map_eq_ok.mp hstep
      obtain ⟨rfl, rfl⟩ := Prod.mk.inj heq
      exact h.event hok ht
  | query pid time =>
      obtain ⟨p, hp, hstep⟩ := bind_eq_ok.mp hstep
      obtain ⟨found, hfound, heq⟩ := map_eq_ok.mp hstep
      obtain ⟨rfl, rfl⟩ := Prod.mk.inj heq
      have hp : s.processes_ pid = some p := by grind [process]
      obtain ⟨hgood, hbad⟩ := h.query hsorted hok hp
      grind

/-- In a run of events and queries, a query gives the method on top of the stack of its process,
as its regions were when its last record was handled. A record that does not fit the stack of its
process ends the program. -/
theorem FindCurrentMethod_stack (f : TraceFiles) (kernel_files : List String)
    (hsorted : f.methods.Pairwise (·.time ≤ ·.time)) :
    ∃ s₀, start f kernel_files = .ok s₀ ∧
      ∀ s c, Reach (methodStep f) (MethodProper f) (s₀, .start) (s, c) →
        ∀ pid p time, s.processes_ pid = some p → MethodProper f (s, c) (.query pid time) →
          (DueFit f c time → ∃ s' found, s.FindCurrentMethod f p time = .ok (s', found) ∧
            MethodThen ((c.query f s time).seen pid) pid p found
              (stackOf (c.records f pid time))) ∧
          (¬DueFit f c time → s.FindCurrentMethod f p time = .error .exit) := by
  obtain ⟨s₀, hstart, hs₀⟩ := start_ok f kernel_files
  refine ⟨s₀, hstart, fun s c hrun pid p time hp hok => ?_⟩
  have hinv : MethodRunInv f s c := by
    refine hrun.invariant (I := fun t => MethodRunInv f t.1 t.2) ?_ ?_
    · exact start_runInv hsorted hstart hs₀
    · exact fun t action t' ht hproper hstep => methodStep_inv hsorted ht hproper hstep
  obtain ⟨hgood, hbad⟩ := hinv.query hsorted hok hp
  refine ⟨fun hfit => ?_, hbad⟩
  obtain ⟨s', found, hfound, -, hthen⟩ := hgood hfit
  exact ⟨s', found, hfound, hthen⟩

/-- A reader without files whose trace of methods has some records. -/
def methodFiles (recs : List MethodRec) : TraceFiles := { noFiles with methods := recs }

/-- A process enters the method at the end of the boot loader. -/
def entered : TraceFiles := methodFiles [⟨1, 0x14, 0, .kMethodEnter⟩]

theorem entered_fit : DueFit entered .start 1 := by
  intro pid
  change allFit (stackOf (MethodClock.start.records entered pid 0)) (ofPid [_] pid) = true
  rw [ofPid_singleton]
  split
  · rfl
  · rfl

theorem FindCurrentMethod_entered : ∃ s₀ s' found, start entered [] = .ok s₀ ∧
    s₀.FindCurrentMethod entered 0 1 = .ok (s', found) ∧
    MethodThen (some s₀) 0 0 found [⟨0x14, false⟩] := by
  obtain ⟨s₀, hstart, hquery⟩ := FindCurrentMethod_stack entered [] (List.pairwise_singleton _ _)
  have hcheck : ((start entered []).toOption.any fun s =>
      decide (s.processes_ 0 = some 0) && decide (s.managerEntries 0 ≠ [])) = true := by
    decide +kernel
  rw [hstart] at hcheck
  obtain ⟨hp, hne⟩ := Bool.and_eq_true_iff.mp hcheck
  have hp := of_decide_eq_true hp
  have hproper : MethodProper entered (s₀, .start) (.query 0 1) := by
    refine ⟨Option.isSome_iff_exists.mpr ⟨0, hp⟩, BitVec.le_def.mpr (Nat.zero_le _), by decide,
      fun rec hrec => ?_⟩
    obtain rfl := List.mem_singleton.mp hrec
    exact ⟨by decide, by decide, 0, hp, of_decide_eq_true hne⟩
  obtain ⟨s', found, hfound, hthen⟩ :=
    (hquery s₀ .start .refl 0 0 1 hp hproper).1 entered_fit
  exact ⟨s₀, s', found, hstart, hfound, hthen⟩

/-- A process leaves another method than the one on top of its stack. -/
def mismatched : List MethodRec := [⟨1, 0x1000, 0, .kMethodEnter⟩, ⟨2, 0x2000, 0, .others⟩]

/-- The stack is empty then, but the program ends. -/
theorem mismatch_exits : ∃ s₀, start (methodFiles mismatched) [] = .ok s₀ ∧
    stackOf (ofPid (within mismatched 0 2) 0) = [] ∧
    s₀.FindCurrentMethod (methodFiles mismatched) 0 2 = .error .exit := by
  obtain ⟨s₀, hstart, -⟩ := start_ok (methodFiles mismatched) []
  have hcheck : ((start (methodFiles mismatched) []).toOption.any fun s =>
      decide ((s.FindCurrentMethod (methodFiles mismatched) 0 2).map (fun _ => ()) =
        .error .exit)) = true := by decide +kernel
  rw [hstart] at hcheck
  refine ⟨s₀, hstart, rfl, ?_⟩
  have hfault := of_decide_eq_true hcheck
  cases hfind : s₀.FindCurrentMethod (methodFiles mismatched) 0 2 with
  | error e =>
      rw [hfind] at hfault
      exact congrArg Except.error (Except.error.inj hfault)
  | ok found =>
      rw [hfind] at hfault
      cases hfault

end TraceReader

end AndroidRenderer.Qtools.Trace
