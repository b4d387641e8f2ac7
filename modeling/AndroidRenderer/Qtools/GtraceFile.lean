import AndroidRenderer.Lib.LittleEndian
import AndroidRenderer.Lib.RoundUp

/-!
# Blocks of a gtrace file

`Gtrace` writes the entries and exits of procedures as records of eight bytes into blocks of
`kGtraceEntriesPerBlock` entries. A block has a header with its number and with the process that
all of its records belong to; where the process changes, the rest of a block is filled with zeros.
-/

namespace AndroidRenderer.Qtools

open LittleEndian

def kGtraceEntriesPerBlock : Nat := 1024

def kMillion : BitVec 32 := 1000000

def kTicsPerSecond : BitVec 32 := 200 * kMillion

def kBaseTic : BitVec 32 := 0x1000

/-- Members of a structure, as `fwrite` finds them. -/
def structBytes (members : List (BitVec 32)) : List UInt8 :=
  members.flatMap fun m => leBytes 4 m.toNat

@[simp] theorem structBytes_length (members : List (BitVec 32)) :
    (structBytes members).length = 4 * members.length := by
  induction members with
  | nil => rfl
  | cons m members ih =>
      rw [structBytes, List.flatMap_cons, List.length_append, leBytes_length, List.length_cons]
      change 4 + (structBytes members).length = _
      omega

/-- `trace_entry` -/
structure TraceEntry where
  cycle : BitVec 32
  event : BitVec 32

/-- `block_header` -/
structure BlockHeader where
  blockno : BitVec 32
  entry_width : BitVec 32
  block_tic : BitVec 32
  block_time : BitVec 32
  usec_cpu : BitVec 32
  pid : BitVec 32
  bug_count : BitVec 32
  zero_count : BitVec 32

/-- `first_header` -/
structure FirstHeader where
  common : BlockHeader
  tic : BitVec 32
  one : BitVec 32
  tics_per_second : BitVec 32
  trace_time : BitVec 32
  version : BitVec 32
  file_proc : BitVec 32
  pdate : BitVec 32
  ptime : BitVec 32

def TraceEntry.bytes (entry : TraceEntry) : List UInt8 := structBytes [entry.cycle, entry.event]

def BlockHeader.members (bh : BlockHeader) : List (BitVec 32) :=
  [bh.blockno, bh.entry_width, bh.block_tic, bh.block_time, bh.usec_cpu, bh.pid, bh.bug_count,
    bh.zero_count]

def FirstHeader.members (fh : FirstHeader) : List (BitVec 32) :=
  fh.common.members ++ [fh.tic, fh.one, fh.tics_per_second, fh.trace_time, fh.version,
    fh.file_proc, fh.pdate, fh.ptime]

/-- `Gtrace`, with what has been written to `ftrace_`. -/
structure Gtrace where
  ftrace_ : List UInt8
  start_sec_ : BitVec 32
  pdate_ : BitVec 32
  ptime_ : BitVec 32
  num_entries_ : Nat
  blockno_ : BitVec 32
  current_pid_ : BitVec 32

namespace Gtrace

/-- The constructor, and `Open`. -/
def Open (pdate ptime : BitVec 32) : Gtrace where
  ftrace_ := []
  start_sec_ := 0
  pdate_ := pdate
  ptime_ := ptime
  num_entries_ := 0
  blockno_ := 1
  current_pid_ := 0

/-- `fwrite` -/
def write (g : Gtrace) (bytes : List UInt8) : Gtrace := { g with ftrace_ := g.ftrace_ ++ bytes }

def FillFirstHeader (g : Gtrace) (start_sec pid : BitVec 32) : FirstHeader where
  common :=
    { blockno := 0, entry_width := 8, block_tic := kBaseTic, block_time := start_sec,
      usec_cpu := 0, pid := pid, bug_count := 0, zero_count := 0 }
  tic := kBaseTic + 1
  one := 1
  tics_per_second := kTicsPerSecond
  trace_time := start_sec
  version := 5
  file_proc := (16 <<< 8) ||| 12
  pdate := g.pdate_
  ptime := g.ptime_

def WriteFirstHeader (g : Gtrace) (start_sec pid : BitVec 32) : Gtrace :=
  let g := { g with current_pid_ := pid, start_sec_ := start_sec }
  { g.write (structBytes (g.FillFirstHeader start_sec pid).members) with num_entries_ := 8 }

/-- The header that `WriteBlockHeader` writes. -/
def blockHeader (g : Gtrace) (cycle pid : BitVec 32) : BlockHeader where
  blockno := g.blockno_
  entry_width := 8
  block_tic := cycle + kBaseTic
  block_time := g.start_sec_ + cycle / kTicsPerSecond
  usec_cpu := 0
  pid := pid
  bug_count := 0
  zero_count := 0

def WriteBlockHeader (g : Gtrace) (cycle pid : BitVec 32) : Gtrace :=
  { g.write (structBytes (g.blockHeader cycle pid).members) with blockno_ := g.blockno_ + 1 }

def AddGtraceRecord (g : Gtrace) (filenum procnum cycle pid is_exit : BitVec 32) : Gtrace :=
  let g :=
    if g.current_pid_ ≠ pid then
      let g := { g with current_pid_ := pid }
      let num_zeros := (kGtraceEntriesPerBlock - g.num_entries_) * 8
      { (g.write (List.replicate num_zeros 0)).WriteBlockHeader cycle pid with num_entries_ := 4 }
    else g
  let g :=
    if g.num_entries_ = kGtraceEntriesPerBlock then
      { g.WriteBlockHeader cycle pid with num_entries_ := 4 }
    else g
  let entry : TraceEntry :=
    { cycle := cycle + kBaseTic, event := filenum <<< 13 ||| procnum <<< 1 ||| is_exit }
  { g.write entry.bytes with num_entries_ := g.num_entries_ + 1 }

def AddProcEntry (g : Gtrace) (filenum procnum cycle pid : BitVec 32) : Gtrace :=
  g.AddGtraceRecord filenum procnum cycle pid 0

def AddProcExit (g : Gtrace) (filenum procnum cycle pid : BitVec 32) : Gtrace :=
  g.AddGtraceRecord filenum procnum cycle pid 1

/-- What the destructor leaves in the file. -/
def close (g : Gtrace) : List UInt8 :=
  let pos := g.ftrace_.length
  let pos_end := roundUp pos 0x2000
  if pos_end > pos then g.ftrace_ ++ List.replicate (pos_end - pos) 0 else g.ftrace_

end Gtrace

/-- A call of `AddProcEntry` or `AddProcExit`. -/
structure GtraceCall where
  filenum : BitVec 32
  procnum : BitVec 32
  cycle : BitVec 32
  pid : BitVec 32
  is_exit : Bool

namespace GtraceCall

def run (g : Gtrace) (c : GtraceCall) : Gtrace :=
  if c.is_exit then g.AddProcExit c.filenum c.procnum c.cycle c.pid
  else g.AddProcEntry c.filenum c.procnum c.cycle c.pid

def record (c : GtraceCall) : TraceEntry where
  cycle := c.cycle + kBaseTic
  event := c.filenum <<< 13 ||| c.procnum <<< 1 ||| if c.is_exit then 1 else 0

end GtraceCall

/-- `WriteFirstHeader`, and the calls behind it. -/
def Gtrace.traced (pdate ptime start_sec pid : BitVec 32) (calls : List GtraceCall) : Gtrace :=
  calls.foldl GtraceCall.run ((Gtrace.Open pdate ptime).WriteFirstHeader start_sec pid)

/-! ## Blocks -/

/-- The header that a block begins with. -/
inductive GtraceHeader
  | first (fh : FirstHeader)
  | block (bh : BlockHeader)

def GtraceHeader.common : GtraceHeader → BlockHeader
  | first fh => fh.common
  | block bh => bh

def GtraceHeader.members : GtraceHeader → List (BitVec 32)
  | first fh => fh.members
  | block bh => bh.members

def GtraceHeader.entries : GtraceHeader → Nat
  | first _ => 8
  | block _ => 4

theorem GtraceHeader.members_length (h : GtraceHeader) : h.members.length = 2 * h.entries := by
  cases h <;> rfl

theorem GtraceHeader.entries_pos (h : GtraceHeader) : 0 < h.entries := by
  cases h with
  | first fh => exact Nat.succ_pos 7
  | block bh => exact Nat.succ_pos 3

theorem GtraceHeader.entries_le (h : GtraceHeader) : h.entries ≤ 8 := by
  cases h with
  | first fh => exact Nat.le_refl 8
  | block bh => exact Nat.le_add_left 4 4

/-- A header, the records of calls and entries of zeros. -/
structure GtraceBlock where
  header : GtraceHeader
  calls : List GtraceCall
  zeros : Nat

namespace GtraceBlock

def bytes (b : GtraceBlock) : List UInt8 :=
  structBytes b.header.members ++ (b.calls.flatMap fun c => c.record.bytes) ++
    List.replicate (b.zeros * 8) 0

def entries (b : GtraceBlock) : Nat := b.header.entries + b.calls.length + b.zeros

theorem records_length (calls : List GtraceCall) :
    (calls.flatMap fun c => c.record.bytes).length = 8 * calls.length := by
  induction calls with
  | nil => rfl
  | cons c calls ih =>
      rw [List.flatMap_cons, List.length_append, ih, TraceEntry.bytes, structBytes_length,
        List.length_cons]
      grind

theorem bytes_length (b : GtraceBlock) : b.bytes.length = 8 * b.entries := by
  rw [bytes, entries, List.length_append, List.length_append, structBytes_length,
    b.header.members_length, records_length, List.length_replicate]
  omega

/-- A header leaves room for records. -/
theorem entries_of_header (h : GtraceHeader) :
    (⟨h, [], 0⟩ : GtraceBlock).entries ≤ kGtraceEntriesPerBlock := by
  have := h.entries_le
  unfold entries kGtraceEntriesPerBlock
  grind

def fill (b : GtraceBlock) : GtraceBlock :=
  { b with zeros := kGtraceEntriesPerBlock - b.entries }

variable {b : GtraceBlock}

theorem fill_entries (hzeros : b.zeros = 0) (hle : b.entries ≤ kGtraceEntriesPerBlock) :
    b.fill.entries = kGtraceEntriesPerBlock := by
  unfold fill entries at *
  dsimp only
  omega

theorem fill_bytes (hzeros : b.zeros = 0) : b.fill.bytes =
    b.bytes ++ List.replicate ((kGtraceEntriesPerBlock - b.entries) * 8) 0 := by
  unfold fill bytes
  dsimp only
  rw [hzeros, Nat.zero_mul, List.replicate_zero, List.append_nil]

end GtraceBlock

/-- The file holds the blocks one after the other. They are numbered from zero, the first one has
the long header, the records of the calls are found in call order, and each in a block of its
process. -/
structure GtraceBlocks (file : List UInt8) (calls : List GtraceCall)
    (blocks : List GtraceBlock) : Prop where
  bytes : file = blocks.flatMap GtraceBlock.bytes
  calls : blocks.flatMap GtraceBlock.calls = calls
  blockno : ∀ k b, blocks[k]? = some b → b.header.common.blockno = BitVec.ofNat 32 k
  header : ∀ k b, blocks[k]? = some b → b.header.entries = if k = 0 then 8 else 4
  pid : ∀ b ∈ blocks, ∀ c ∈ b.calls, c.pid = b.header.common.pid

namespace GtraceBlocks

variable {file : List UInt8} {calls : List GtraceCall} {full : List GtraceBlock}
  {last b : GtraceBlock} {c : GtraceCall}

/-- A change of the last block that leaves its header. -/
theorem setLast (h : GtraceBlocks file calls (full ++ [last])) {file' : List UInt8}
    {calls' : List GtraceCall} (hheader : b.header = last.header)
    (hfile : file' = full.flatMap GtraceBlock.bytes ++ b.bytes)
    (hcalls : calls' = full.flatMap GtraceBlock.calls ++ b.calls)
    (hpid : ∀ c ∈ b.calls, c.pid = b.header.common.pid) :
    GtraceBlocks file' calls' (full ++ [b]) := by
  have hat : ∀ (k : Nat) (b' : GtraceBlock), (full ++ [b])[k]? = some b' →
      ∃ old : GtraceBlock, (full ++ [last])[k]? = some old ∧ b'.header = old.header := by
    intro k b' hk
    grind
  refine ⟨?_, ?_, fun k b' hk => ?_, fun k b' hk => ?_, fun b' hb' => ?_⟩
  · grind
  · grind
  · obtain ⟨old, hold, heq⟩ := hat k b' hk
    rw [heq]
    exact h.blockno k old hold
  · grind [h.header]
  · grind [h.pid]

/-- One more block, without records. -/
theorem push (h : GtraceBlocks file calls full) {bh : BlockHeader} (hfull : full ≠ [])
    (hblockno : bh.blockno = BitVec.ofNat 32 full.length) :
    GtraceBlocks (file ++ structBytes bh.members) calls (full ++ [⟨.block bh, [], 0⟩]) := by
  have hat : ∀ k b, (full ++ [(⟨.block bh, [], 0⟩ : GtraceBlock)])[k]? = some b →
      full[k]? = some b ∨ (k = full.length ∧ b = ⟨.block bh, [], 0⟩) := by grind
  refine ⟨?_, ?_, fun k b hk => ?_, fun k b hk => ?_, fun b hb => ?_⟩
  · rw [List.flatMap_append, ← h.bytes, List.flatMap_singleton, GtraceBlock.bytes]
    rfl
  · rw [List.flatMap_append, h.calls, List.flatMap_singleton, List.append_nil]
  · rcases hat k b hk with hk | ⟨rfl, rfl⟩
    · exact h.blockno k b hk
    · exact hblockno
  · rcases hat k b hk with hk | ⟨rfl, rfl⟩
    · exact h.header k b hk
    · rw [if_neg (fun hzero => hfull (List.length_eq_zero_iff.mp hzero))]
      rfl
  · grind [h.pid]

end GtraceBlocks

/-! ## The blocks of a run -/

/-- All blocks but the last are complete; `Gtrace` knows the length, the number and the process of
the last one. -/
structure Gtrace.Layout (g : Gtrace) (calls : List GtraceCall) (full : List GtraceBlock)
    (last : GtraceBlock) : Prop where
  blocks : GtraceBlocks g.ftrace_ calls (full ++ [last])
  complete : ∀ b ∈ full, b.entries = kGtraceEntriesPerBlock
  zeros : last.zeros = 0
  num_entries : g.num_entries_ = last.entries
  le : last.entries ≤ kGtraceEntriesPerBlock
  blockno : g.blockno_ = BitVec.ofNat 32 (full.length + 1)
  pid : g.current_pid_ = last.header.common.pid

namespace Gtrace

variable {g : Gtrace} {calls : List GtraceCall} {full : List GtraceBlock} {last : GtraceBlock}
  {c : GtraceCall}

/-- The block is filled up, and the next one begun. -/
def nextBlock (g : Gtrace) (cycle pid : BitVec 32) : Gtrace :=
  let num_zeros := (kGtraceEntriesPerBlock - g.num_entries_) * 8
  { (g.write (List.replicate num_zeros 0)).WriteBlockHeader cycle pid with
    num_entries_ := 4
    current_pid_ := pid }

/-- The record is written behind the others. -/
def addEntry (g : Gtrace) (entry : TraceEntry) : Gtrace :=
  { g.write entry.bytes with num_entries_ := g.num_entries_ + 1 }

/-- A block ends where the process changes and where it is full, both with the same effect. -/
theorem run_eq (g : Gtrace) (c : GtraceCall) : c.run g =
    (if g.current_pid_ ≠ c.pid ∨ g.num_entries_ = kGtraceEntriesPerBlock
      then g.nextBlock c.cycle c.pid else g).addEntry c.record := by
  have hadd : c.run g = g.AddGtraceRecord c.filenum c.procnum c.cycle c.pid
      (if c.is_exit then 1 else 0) := by
    unfold GtraceCall.run AddProcExit AddProcEntry
    split <;> rfl
  rw [hadd, AddGtraceRecord]
  by_cases hpid : g.current_pid_ ≠ c.pid
  · have hnext : g.current_pid_ ≠ c.pid ∨ g.num_entries_ = kGtraceEntriesPerBlock := .inl hpid
    have hroom : ¬(g.nextBlock c.cycle c.pid).num_entries_ = kGtraceEntriesPerBlock := by
      change ¬4 = 1024
      omega
    rw [if_pos hpid, if_pos hnext]
    change (if (g.nextBlock c.cycle c.pid).num_entries_ = kGtraceEntriesPerBlock then
      { (g.nextBlock c.cycle c.pid).WriteBlockHeader c.cycle c.pid with num_entries_ := 4 }
      else g.nextBlock c.cycle c.pid).addEntry c.record = _
    rw [if_neg hroom]
  · rw [if_neg hpid]
    by_cases hfull : g.num_entries_ = kGtraceEntriesPerBlock
    · have hnext : g.current_pid_ ≠ c.pid ∨ g.num_entries_ = kGtraceEntriesPerBlock := .inr hfull
      have hzeros : g.write (List.replicate 0 0) = g := by
        rw [write, List.replicate_zero, List.append_nil]
      have hblock : g.nextBlock c.cycle c.pid =
          { g.WriteBlockHeader c.cycle c.pid with num_entries_ := 4 } := by
        rw [nextBlock, hfull, Nat.sub_self, Nat.zero_mul, hzeros, ← not_not.mp hpid]
        rfl
      rw [if_pos hfull, if_pos hnext, hblock]
      rfl
    · have hsame : ¬(g.current_pid_ ≠ c.pid ∨ g.num_entries_ = kGtraceEntriesPerBlock) :=
        not_or.mpr ⟨hpid, hfull⟩
      rw [if_neg hfull, if_neg hsame]
      rfl

theorem Layout.nextBlock (h : g.Layout calls full last) (cycle pid : BitVec 32) :
    (g.nextBlock cycle pid).Layout calls (full ++ [last.fill])
      ⟨.block (g.blockHeader cycle pid), [], 0⟩ := by
  have hfill : GtraceBlocks
      (g.ftrace_ ++ List.replicate ((kGtraceEntriesPerBlock - g.num_entries_) * 8) 0) calls
      (full ++ [last.fill]) := by
    refine h.blocks.setLast rfl ?_ ?_ (h.blocks.pid last (List.mem_append_right _ ?_))
    · rw [h.blocks.bytes, List.flatMap_append, List.flatMap_singleton, h.num_entries,
        GtraceBlock.fill_bytes h.zeros, List.append_assoc]
    · rw [← h.blocks.calls, List.flatMap_append, List.flatMap_singleton]
      rfl
    · exact List.mem_singleton_self last
  have hlength : (full ++ [last.fill]).length = full.length + 1 := List.length_append
  refine ⟨hfill.push (List.append_ne_nil_of_right_ne_nil _ (List.cons_ne_nil _ _)) ?_,
    fun b hb => ?_, rfl, rfl, GtraceBlock.entries_of_header _, ?_, rfl⟩
  · rw [hlength]
    exact h.blockno
  · rcases List.mem_append.mp hb with hb | hb
    · exact h.complete b hb
    · rw [List.mem_singleton.mp hb]
      exact GtraceBlock.fill_entries h.zeros h.le
  · change g.blockno_ + 1 = _
    simp [h.blockno, BitVec.ofNat_add, hlength]

theorem Layout.addEntry (h : g.Layout calls full last) (hpid : g.current_pid_ = c.pid)
    (hroom : g.num_entries_ ≠ kGtraceEntriesPerBlock) :
    (g.addEntry c.record).Layout (calls ++ [c]) full
      { last with calls := last.calls ++ [c] } := by
  have hentries : ({ last with calls := last.calls ++ [c] } : GtraceBlock).entries =
      last.entries + 1 := by grind [GtraceBlock.entries]
  have hbytes : ({ last with calls := last.calls ++ [c] } : GtraceBlock).bytes =
      last.bytes ++ c.record.bytes := by
    unfold GtraceBlock.bytes
    dsimp only
    rw [h.zeros, Nat.zero_mul, List.replicate_zero, List.append_nil, List.append_nil,
      List.flatMap_append, List.flatMap_singleton, List.append_assoc]
  refine ⟨h.blocks.setLast rfl ?_ ?_ ?_, h.complete, h.zeros, ?_, ?_, h.blockno, h.pid⟩
  · change g.ftrace_ ++ c.record.bytes = _
    rw [hbytes, h.blocks.bytes, List.flatMap_append, List.flatMap_singleton, List.append_assoc]
  · rw [← h.blocks.calls, List.flatMap_append, List.flatMap_singleton, List.append_assoc]
  · grind [h.pid, h.blocks.pid]
  · change g.num_entries_ + 1 = _
    rw [hentries, h.num_entries]
  · have := h.le
    grind [h.num_entries]

theorem Layout.run (h : g.Layout calls full last) (c : GtraceCall) :
    ∃ full' last', (c.run g).Layout (calls ++ [c]) full' last' := by
  rw [run_eq]
  split
  · have hnext := h.nextBlock c.cycle c.pid
    have hroom : (g.nextBlock c.cycle c.pid).num_entries_ ≠ kGtraceEntriesPerBlock := by
      change 4 ≠ 1024
      omega
    exact ⟨_, _, hnext.addEntry rfl hroom⟩
  · rename_i hsame
    rw [not_or, not_not] at hsame
    exact ⟨_, _, h.addEntry hsame.1 hsame.2⟩

theorem Layout.foldl (h : g.Layout calls full last) (more : List GtraceCall) :
    ∃ full' last', (more.foldl GtraceCall.run g).Layout (calls ++ more) full' last' := by
  induction more generalizing g calls full last with
  | nil => grind
  | cons c more ih =>
      obtain ⟨full', last', hrun⟩ := h.run c
      grind

theorem WriteFirstHeader_layout (pdate ptime start_sec pid : BitVec 32) :
    ((Open pdate ptime).WriteFirstHeader start_sec pid).Layout [] []
      ⟨.first ((Open pdate ptime).FillFirstHeader start_sec pid), [], 0⟩ := by
  have hat : ∀ {k : Nat} {b b' : GtraceBlock}, ([] ++ [b])[k]? = some b' → k = 0 ∧ b' = b := by
    simp [List.nil_append, List.getElem?_singleton]
  refine ⟨⟨?_, rfl, fun k b hk => ?_, fun k b hk => ?_, fun b hb => ?_⟩,
    (fun b hb => by cases hb), rfl, rfl, GtraceBlock.entries_of_header _, rfl, rfl⟩
  · rfl
  · obtain ⟨rfl, rfl⟩ := hat hk
    rfl
  · obtain ⟨rfl, rfl⟩ := hat hk
    rfl
  · grind

theorem traced_layout (pdate ptime start_sec pid : BitVec 32) (calls : List GtraceCall) :
    ∃ full last, (traced pdate ptime start_sec pid calls).Layout calls full last :=
  (WriteFirstHeader_layout pdate ptime start_sec pid).foldl calls

/-- Complete blocks have the length that the destructor extends the file to a multiple of. -/
theorem flatMap_bytes_length {blocks : List GtraceBlock}
    (h : ∀ b ∈ blocks, b.entries = kGtraceEntriesPerBlock) :
    (blocks.flatMap GtraceBlock.bytes).length = 0x2000 * blocks.length := by
  induction blocks with
  | nil => rfl
  | cons b blocks ih =>
      rw [List.flatMap_cons, List.length_append, b.bytes_length, h b List.mem_cons_self,
        ih fun b' hb' => h b' (List.mem_cons_of_mem b hb'), kGtraceEntriesPerBlock,
        List.length_cons]
      omega

/-- The destructor completes the last block. -/
theorem Layout.close_eq (h : g.Layout calls full last) :
    g.close = full.flatMap GtraceBlock.bytes ++ last.fill.bytes := by
  have hlast : last.bytes.length = 8 * last.entries := last.bytes_length
  have hpos : 0 < last.bytes.length := by
    have := last.header.entries_pos
    rw [hlast, GtraceBlock.entries]
    omega
  have hle : last.bytes.length ≤ 0x2000 := by
    have := h.le
    unfold kGtraceEntriesPerBlock at this
    omega
  have hfile : g.ftrace_ = full.flatMap GtraceBlock.bytes ++ last.bytes := by
    rw [h.blocks.bytes, List.flatMap_append, List.flatMap_singleton]
  have hlength : g.ftrace_.length = last.bytes.length + 0x2000 * full.length := by
    rw [hfile, List.length_append, flatMap_bytes_length h.complete, Nat.add_comm]
  have hround : roundUp g.ftrace_.length 0x2000 = 0x2000 + 0x2000 * full.length := by
    grind [roundUp_add_of_dvd, roundUp_eq_self_iff]
  have hzeros : roundUp g.ftrace_.length 0x2000 - g.ftrace_.length =
      (kGtraceEntriesPerBlock - last.entries) * 8 := by
    rw [hround, hlength, kGtraceEntriesPerBlock]
    omega
  rw [close, hzeros, GtraceBlock.fill_bytes h.zeros, ← List.append_assoc, ← hfile]
  split
  · rfl
  · rename_i hfull
    have hnone : (kGtraceEntriesPerBlock - last.entries) * 8 = 0 := by
      rw [← hzeros]
      omega
    grind

theorem Layout.close (h : g.Layout calls full last) :
    GtraceBlocks g.close calls (full ++ [last.fill]) := by
  refine h.blocks.setLast rfl h.close_eq ?_ (h.blocks.pid last (List.mem_append_right _ ?_))
  · rw [← h.blocks.calls, List.flatMap_append, List.flatMap_singleton]
    rfl
  · exact List.mem_singleton_self last

/-- The file is made of complete blocks, up to the last one, which the destructor completes. -/
theorem traced_blocks (pdate ptime start_sec pid : BitVec 32) (calls : List GtraceCall) :
    ∃ full last,
      GtraceBlocks (traced pdate ptime start_sec pid calls).ftrace_ calls (full ++ [last]) ∧
      (∀ b ∈ full, b.bytes.length = 8 * kGtraceEntriesPerBlock) ∧
      last.bytes.length ≤ 8 * kGtraceEntriesPerBlock ∧ last.zeros = 0 ∧
      GtraceBlocks (traced pdate ptime start_sec pid calls).close calls (full ++ [last.fill]) ∧
      last.fill.bytes.length = 8 * kGtraceEntriesPerBlock := by
  obtain ⟨full, last, h⟩ := traced_layout pdate ptime start_sec pid calls
  refine ⟨full, last, h.blocks, fun b hb => ?_, ?_, h.zeros, h.close, ?_⟩
  · rw [b.bytes_length, h.complete b hb]
  · rw [last.bytes_length]
    exact Nat.mul_le_mul_left 8 h.le
  · rw [last.fill.bytes_length, GtraceBlock.fill_entries h.zeros h.le]

end Gtrace

end AndroidRenderer.Qtools
