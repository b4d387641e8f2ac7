import AndroidRenderer.Qtools.TraceReader

/-!
# Functions and current methods

The function at an address is searched in the symbols of the region there. Method records, which
are read up to a time, say which Java method is current in a process.
-/

namespace AndroidRenderer.Qtools.Trace

namespace TraceReader

/-! ## Symbols -/

/-- An access to an array of symbols. -/
def symbolAt (symbols : List Symbol) (index : Nat) : Except TraceFault Symbol :=
  match symbols[index]? with
  | none => .error .outOfBounds
  | some sym => .ok sym

/-- The array that a reference points into. -/
def table (s : TraceReader) (sym : SymbolRef) : List Symbol := s.tables.getD sym.table []

def setSymbol (s : TraceReader) (sym : SymbolRef) (set : Symbol → Symbol) : TraceReader :=
  { s with tables := s.tables.modify sym.table fun symbols => symbols.modify sym.index set }

def FindFunction (addr : BitVec 32) (symbols : List Symbol) (exact_match : Bool) :
    Except TraceFault (Option Nat) :=
  (BinarySearch.search (fun index => (symbolAt symbols index).map fun sym => sym.addr.toNat)
    addr.toNat symbols.length 0 symbols.length).map
      fun place => if exact_match then place.exact else place.closest

def search (s : TraceReader) (addr : BitVec 32) (entries : List RegionId) (exact_match : Bool) :
    Except TraceFault (RegionId × Option SymbolRef) :=
  s.FindRegion addr entries >>= fun region =>
    s.region region >>= fun r =>
      (FindFunction (addr - r.base_addr) (s.symbolsOf r) exact_match).map fun index =>
        (region, index.map fun index => ⟨r.symbols, index⟩)

/-! ## Java methods -/

def processAt (s : TraceReader) (pid : Int) : Except TraceFault (Option ProcessRef) :=
  if 0 ≤ pid ∧ pid < kNumPids then .ok (s.processes_ pid) else .error .outOfBounds

/-- The end of `HandleMethodRecord`: the top of the stack is the current method if it is not
native. -/
def setMethod (s : TraceReader) (p : ProcessRef) (frame : MethodFrame) :
    Except TraceFault TraceReader :=
  if frame.isNative then .ok (s.setState p { s.states p with current_method_sym := none })
  else
    (s.search frame.addr (s.managerEntries p) true).map fun found =>
      let s := s.setState p { s.states p with current_method_sym := found.2 }
      found.2.elim s fun sym => s.setSymbol sym fun sym => { sym with region := found.1 }

def HandleMethodRecord (s : TraceReader) (p : ProcessRef) (rec : MethodRec) :
    Except TraceFault TraceReader :=
  let st := s.states p
  if rec.flags = .kMethodEnter ∨ rec.flags = .kNativeEnter then
    if ProcessState.kMaxMethodStackSize ≤ st.method_stack.length then .error .exit
    else
      let frame : MethodFrame := ⟨rec.addr, rec.flags = .kNativeEnter⟩
      (s.setState p { st with method_stack := frame :: st.method_stack }).setMethod p frame
  else
    match st.method_stack with
    | [] => .ok (s.setState p { st with current_method_sym := none })
    | frame :: frames =>
        let poppingNative : Bool := rec.flags = .kNativeExit ∨ rec.flags = .kNativeException
        if frame.addr ≠ rec.addr ∧ !frame.isNative then .error .exit
        else if poppingNative ≠ frame.isNative then .error .exit
        else
          match frames with
          | [] => .ok (s.setState p { st with method_stack := [], current_method_sym := none })
          | top :: frames =>
              (s.setState p { st with method_stack := top :: frames }).setMethod p top

/-- The record that was read is handled, unless none was read yet. -/
def handleNextMethod (s : TraceReader) : Except TraceFault TraceReader :=
  if s.next_method_.time = 0 then .ok s
  else
    s.processAt s.next_method_.pid >>= fun p =>
      match p with
      | none => .error .nullDereference
      | some p => s.HandleMethodRecord p s.next_method_

/-- The loop of `FindCurrentMethod` over the records that are still to be read. -/
def readMethods (f : TraceFiles) (time : BitVec 64) :
    List MethodRec → TraceReader → Except TraceFault TraceReader
  | [], s =>
      s.handleNextMethod.map fun s =>
        { s with
          next_method_ := { s.next_method_ with time := ~~~0, addr := 0, flags := f.zeroFlags }
          internal_method_reader_ := [] }
  | rec :: recs, s =>
      s.handleNextMethod >>= fun s =>
        let s := { s with next_method_ := rec, internal_method_reader_ := recs }
        if time < rec.time then .ok s else readMethods f time recs s

/-- `FindCurrentMethod`, for the process with the pid. -/
def FindCurrentMethod (f : TraceFiles) (s : TraceReader) (p : ProcessRef) (time : BitVec 64) :
    Except TraceFault (TraceReader × Option SymbolRef) :=
  (if time < s.next_method_.time then .ok s
    else readMethods f time s.internal_method_reader_ s).map fun s =>
      (s, (s.states p).current_method_sym)

end TraceReader

end AndroidRenderer.Qtools.Trace
