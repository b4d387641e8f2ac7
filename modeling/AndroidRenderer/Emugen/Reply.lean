import AndroidRenderer.Emugen.RoundTrip
import Mathlib.Algebra.Group.Action.Defs
import Mathlib.Algebra.Order.BigOperators.Group.List
import Mathlib.Algebra.Order.Ring.Nat

/-!
# The reply

The decoder sends back the room of the `out` pointers, in the lengths it read from
the packet, and the return value. The encoder reads back every `inout` and `out`
pointer and the return value. The two agree for every call of an entry point
exactly when it has no `inout` pointer, whose contents the decoder never sends,
and no large parameter separates its `out` pointers: behind the first one such a
parameter puts a hole, and the next length is read from it.
-/

namespace AndroidRenderer.Emugen

open LittleEndian

/-- The client's side of the reply: the bytes still in the stream, the contents
read for each pointer, by position, and the bytes of the return value. -/
structure Readback where
  incoming : List UInt8
  received : List (Nat × List UInt8)
  retval : List UInt8

/-- `IOStream::readback` blocks, here `none`, when the bytes do not arrive. -/
def EncStmt.receive (args : Args) (s : Readback) : EncStmt → Option Readback
  | .readback p =>
      if p.1.nullAllowed && (args p.2).isNull then some s
      else if size args p ≤ s.incoming.length then
        some { s with
          incoming := s.incoming.drop (size args p)
          received := s.received ++ [(p.2, s.incoming.take (size args p))] }
      else none
  | .readRetval bytes =>
      if bytes ≤ s.incoming.length then
        some { s with
          incoming := s.incoming.drop bytes
          retval := s.incoming.take bytes }
      else none
  | _ => some s

def receiveAll (args : Args) : List EncStmt → Readback → Option Readback
  | [], s => some s
  | c :: cs, s => (c.receive args s).bind (receiveAll args cs)

/-- The pointers the client reads back; a `NULL` that is allowed is skipped. -/
def isReadBack (args : Args) (p : Param) : Bool :=
  p.1.isPointer && p.1.readsBack && !(p.1.nullAllowed && (args p.2).isNull)

/-- The bytes of the return value the server function left. -/
def retvalOf (e : EntryPoint) (r : Served) : List UInt8 :=
  if returnsValue e.retval then leBytes e.retval.bytes r.retval else []

/-- The client reads exactly the reply: every pointer gets the contents the server
left behind it, then comes the return value, and nothing remains. -/
def Agree (e : EntryPoint) (opcode : Nat) (args : Args) (junk rest : Mem)
    (server : List Decoded → Served) (stale : Mem) : Prop :=
  ∃ bytes s decoded r, encode e opcode args junk = some bytes ∧
    dispatch e ⟨ofList bytes rest, server, stale⟩ = some s ∧ s.called = some decoded ∧
    receiveAll args (genReadback e) ⟨s.reply, [], []⟩ = some r ∧ r.incoming = [] ∧
    r.received = (e.params.filter (isReadBack args)).map (fun p =>
      (p.2, load ((server decoded).contents p.2) 0 (size args p))) ∧
    r.retval = retvalOf e (server decoded)

/-- Agreement whatever the undetermined bytes and the server function are. -/
def Agrees (e : EntryPoint) (opcode : Nat) (args : Args) : Prop :=
  ∀ junk rest server stale, Agree e opcode args junk rest server stale

/-- No large parameter lies between two `out` pointers, and neither of them is large. -/
def OutsTogether (ps : List Param) : Prop :=
  ∀ pre p mid q post, ps = pre ++ p :: (mid ++ q :: post) → isOut p = true →
    isOut q = true → ∀ v ∈ p :: (mid ++ [q]), v.1.isLarge = false

structure ReplySafe (e : EntryPoint) : Prop where
  noInout : ∀ p ∈ e.params, p.1.isPointer = true → p.1.pointerDir ≠ .pointerInout
  outsTogether : OutsTogether e.params

/-! ## Reading back -/

theorem receiveAll_append (args : Args) (a b : List EncStmt) (s : Readback) :
    receiveAll args (a ++ b) s = (receiveAll args a s).bind (receiveAll args b) := by
  induction a generalizing s with
  | nil => rfl
  | cons c cs ih =>
      simp only [List.cons_append, receiveAll, Option.bind_assoc]
      congr 1
      funext t
      exact ih t

variable {args : Args} {p : Param} {e : EntryPoint} {ps : List Param} {opcode : Nat}

theorem size_of_null (h : (p.1.nullAllowed && (args p.2).isNull) = true) : size args p = 0 := by
  simp [size, h]

/-- Pointers read back their contents one after the other. -/
theorem receiveAll_readback (args : Args) (c : Nat → Mem) (qs : List Param)
    (tail : List UInt8) (rcv : List (Nat × List UInt8)) (rv : List UInt8) :
    receiveAll args (qs.map .readback)
      ⟨qs.flatMap (fun p => load (c p.2) 0 (size args p)) ++ tail, rcv, rv⟩ =
      some ⟨tail, rcv ++ (qs.filter fun p => !(p.1.nullAllowed && (args p.2).isNull)).map
        (fun p => (p.2, load (c p.2) 0 (size args p))), rv⟩ := by
  induction qs generalizing rcv with
  | nil => simp [receiveAll]
  | cons p qs ih =>
      rw [List.map_cons, receiveAll, List.flatMap_cons, List.append_assoc, EncStmt.receive]
      cases hn : p.1.nullAllowed && (args p.2).isNull with
      | true =>
          rw [if_pos rfl, size_of_null hn, load_zero, List.nil_append, Option.bind_some, ih,
            List.filter_cons, hn]
          rfl
      | false => grind

/-- However the contents are, reading back takes the sizes of the pointers. -/
theorem receiveAll_readback_length {qs : List Param} {s r : Readback}
    (h : receiveAll args (qs.map .readback) s = some r) :
    s.incoming.length = (qs.map (size args)).sum + r.incoming.length := by
  induction qs generalizing s with
  | nil =>
      obtain rfl := Option.some.inj h
      simp
  | cons p qs ih =>
      rw [List.map_cons, receiveAll, EncStmt.receive] at h
      rw [List.map_cons, List.sum_cons]
      split at h
      · rename_i hn
        rw [Option.bind_some] at h
        rw [size_of_null hn, ih h]
        omega
      · grind

theorem readRetval_bytes (e : EntryPoint) (r : Served) (rcv : List (Nat × List UInt8))
    (args : Args) :
    receiveAll args (if e.retval.isPointer then []
      else if e.retval.name ≠ "void" then [.readRetval e.retval.bytes] else [])
      ⟨retvalOf e r, rcv, []⟩ = some ⟨[], rcv, retvalOf e r⟩ := by
  unfold retvalOf returnsValue
  cases hp : e.retval.isPointer with
  | true => simp [receiveAll]
  | false =>
      by_cases hname : e.retval.name = "void"
      · have hbytes : e.retval.bytes = 0 := by
          rw [VarType.bytes, (e.retval.void_empty hname).1]
          rfl
        simp [hname, hbytes, receiveAll]
      · by_cases hbytes : e.retval.bytes = 0
        · simp [hname, hbytes, receiveAll, EncStmt.receive]
        · simp [hname, hbytes, receiveAll, EncStmt.receive, List.take_of_length_le]

/-- The encoder's half, once the decoder read the lengths of the `out` pointers
right: the reply is consumed without a remainder. -/
theorem receiveAll_genReadback {m : Mem} (r : Served)
    (hno : ∀ p ∈ e.params, p.1.isPointer = true → p.1.pointerDir ≠ .pointerInout)
    (hlen : outLengths m (varOffsets .header e.params) =
      (e.params.filter isOut).map fun p => (p.2, size args p)) :
    receiveAll args (genReadback e) ⟨replyBytes e m r, [], []⟩ =
      some ⟨[], (e.params.filter (isReadBack args)).map (fun p =>
        (p.2, load (r.contents p.2) 0 (size args p))), retvalOf e r⟩ := by
  have hback : ∀ p ∈ e.params, (p.1.isPointer && p.1.readsBack) = isOut p := by
    intro p hp
    have := hno p hp
    cases hptr : p.1.isPointer with
    | false => simp [isOut, hptr]
    | true => cases hd : p.1.pointerDir <;> simp_all [isOut, Var.readsBack, Var.sendsData]
  have hfilter : (e.params.filter isOut).filter
      (fun p => !(p.1.nullAllowed && (args p.2).isNull)) = e.params.filter (isReadBack args) := by
    rw [List.filter_filter]
    refine List.filter_congr fun p hp => ?_
    rw [isReadBack, hback p hp, Bool.and_comm]
  rw [genReadback, List.filter_congr hback, receiveAll_append, replyBytes, hlen,
    List.flatMap_map]
  rw [receiveAll_readback, Option.bind_some, List.nil_append, hfilter]
  exact readRetval_bytes e r _ args

/-! ## The lengths of the `out` pointers -/

/-- `varoffset` behind the parameters `ps`. -/
def offsetAfter (off : OffExpr) (ps : List Param) : OffExpr :=
  ps.foldl (fun off p => nextOffset p off) off

theorem varOffsets_append (off : OffExpr) (ps qs : List Param) :
    varOffsets off (ps ++ qs) = varOffsets off ps ++ varOffsets (offsetAfter off ps) qs := by
  induction ps generalizing off with
  | nil => rfl
  | cons p ps ih =>
      rw [List.cons_append, varOffsets, ih]
      rfl

theorem outLengths_of_decodes {m : Mem}
    (hc : args.Conform ps) (off : OffExpr)
    (h : decodeFrom m (off.eval m) ps = expectedArgs args ps) :
    outLengths m (varOffsets off ps) = (ps.filter isOut).map fun p => (p.2, size args p) := by
  induction ps generalizing off with
  | nil => rfl
  | cons p ps ih =>
      obtain ⟨hhead, htail⟩ := decodeFrom_cons h
      rw [← eval_nextOffset] at htail
      have hrest := ih (fun q hq => hc q (by simp [hq])) (nextOffset p off) htail
      simp only [outLengths] at hrest ⊢
      rw [varOffsets, List.filter_cons, List.filter_cons]
      cases hout : isOut p with
      | false => simpa [hout] using hrest
      | true =>
          have hp := (isOut_iff.mp hout).1
          have hsize := length_of_decodeAt (hc p (by simp))
            (Var.not_isVoid_of_isPointer hp) hp hhead
          have hlen : lengthAt m (p, off) = size args p := hsize
          grind

theorem outLengths_cons {m : Mem} {off : OffExpr} (h : isOut p = true)
    (qs : List (Param × OffExpr)) :
    outLengths m ((p, off) :: qs) = (p.2, lengthAt m (p, off)) :: outLengths m qs := by
  simp [outLengths, h]

theorem outLengths_append (m : Mem) (xs ys : List (Param × OffExpr)) :
    outLengths m (xs ++ ys) = outLengths m xs ++ outLengths m ys := by
  simp [outLengths]

theorem outLengths_eq_nil {m : Mem} {off : OffExpr}
    (h : ∀ p ∈ ps, isOut p = false) : outLengths m (varOffsets off ps) = [] := by
  have := map_fst_outLengths m off ps
  rw [outPointers, List.filter_eq_nil_iff.mpr (by simpa using h)] at this
  exact List.map_eq_nil_iff.mp this

/-! ## Safe entry points agree -/

theorem OutsTogether.tail (h : OutsTogether (p :: ps)) :
    OutsTogether ps := by
  intro pre p' mid q post hps
  exact h (p :: pre) p' mid q post (by rw [hps]; rfl)

/-- Up to the last `out` pointer `q` no hole precedes a parameter: a fragment with
room in it is not closed by a large parameter there. -/
theorem aligned_of_outsTogether {post : List Param} {q : Param}
    (hc : args.Conform ps) (hq : isOut q = true) (ht : OutsTogether (ps ++ q :: post))
    {a w : Nat} (hfits : Fits args a w (ps ++ q :: post))
    (haw : a = w ∨ ∀ p ∈ ps ++ [q], p.1.isLarge = false) :
    Aligned args a w (ps ++ [q]) := by
  induction ps generalizing a w with
  | nil =>
      rw [List.nil_append] at hfits ⊢
      grind [Fits, Aligned]
  | cons p ps ih =>
      have hcps : args.Conform ps := fun r hr => hc r (by simp [hr])
      rw [List.cons_append] at hfits ⊢ ht haw
      have ih := @ih hcps ht.tail
      -- an `out` pointer here forbids large parameters up to `q`
      have hsmall : isOut p = true → ∀ r ∈ p :: (ps ++ [q]), r.1.isLarge = false :=
        fun hp => ht [] p ps q post rfl hp hq
      rw [Fits] at hfits
      rw [Aligned]
      split
      · rename_i hl
        rw [if_pos hl] at hfits
        have hsends : p.1.sendsData = true := by grind [isOut]
        grind
      · rename_i hl
        rw [if_neg hl] at hfits
        refine ih hfits ?_
        have hstored := stored_length (hc p (by simp))
        grind [isOut]

theorem exists_last_out (ps : List Param) :
    (∀ p ∈ ps, isOut p = false) ∨
      ∃ pre q post, ps = pre ++ q :: post ∧ isOut q = true ∧ ∀ p ∈ post, isOut p = false := by
  induction ps with
  | nil => exact Or.inl (by simp)
  | cons p ps ih =>
      rcases ih with h | ⟨pre, q, post, rfl, hq, hpost⟩
      · cases hp : isOut p with
        | false => exact Or.inl (by simpa [hp] using h)
        | true => exact Or.inr ⟨[], p, ps, rfl, hp, h⟩
      · exact Or.inr ⟨p :: pre, q, post, rfl, hq, hpost⟩

theorem outLengths_of_outsTogether (hc : args.Conform e.params)
    (ht : OutsTogether e.params) (hfits : Fits args 8 8 e.params) (junk rest : Mem)
    {front : List UInt8} (hfront : front.length = 8) :
    outLengths (ofList (front ++ layout args junk 8 8 8 e.params) rest)
      (varOffsets .header e.params) = (e.params.filter isOut).map fun p => (p.2, size args p) := by
  rcases exists_last_out e.params with hnone | ⟨pre, q, post, hps, hq, hpost⟩
  · rw [outLengths_eq_nil hnone, List.filter_eq_nil_iff.mpr (by simpa using hnone), List.map_nil]
  · have hm := holds_behind front (layout args junk 8 8 8 e.params) rest
    rw [hfront] at hm
    generalize ofList _ rest = m at hm ⊢
    have hsplit : e.params = (pre ++ [q]) ++ post := by simp [hps]
    have hcpre : args.Conform (pre ++ [q]) := fun p hp => hc p (by
      rw [hsplit]
      exact List.mem_append_left _ hp)
    have haligned : Aligned args 8 8 (pre ++ [q]) :=
      aligned_of_outsTogether (fun p hp => hcpre p (by simp [hp])) hq (hps ▸ ht) (hps ▸ hfits)
        (Or.inl rfl)
    rw [hsplit] at hm
    have hdec := decodeFrom_layout hcpre haligned hm
    have hfilter : post.filter isOut = [] := List.filter_eq_nil_iff.mpr (by simpa using hpost)
    rw [hsplit, varOffsets_append, outLengths_append, outLengths_eq_nil hpost, List.append_nil,
      outLengths_of_decodes hcpre .header hdec, List.filter_append (pre ++ [q]) post, hfilter,
      List.append_nil]

theorem agrees_of_replySafe (hsafe : ReplySafe e) (hc : args.Conform e.params)
    (hfits : Fits args 8 8 e.params) :
    Agrees e opcode args := by
  intro junk rest server stale
  have henc := encode_eq e opcode args junk
  rw [if_pos hfits] at henc
  generalize hfront : header opcode (evalSize args (packetSizeExpr e.params)) = front at henc
  have hlen := outLengths_of_outsTogether hc hsafe.outsTogether hfits junk rest
    (hfront ▸ header_length _ _)
  obtain ⟨s, hs, hcalled, hreply⟩ := dispatch_eq e
    ⟨ofList (front ++ layout args junk 8 8 8 e.params) rest, server, stale⟩
  refine ⟨_, s, _, ⟨[], _, _⟩, henc, hs, hcalled, ?_, rfl, rfl, rfl⟩
  rw [hreply]
  exact receiveAll_genReadback _ hsafe.noInout hlen

/-! ## Unsafe entry points disagree on some call

The calls below pass zeros and empty buffers, apart from one or two single bytes of
room or data. -/

/-- A zero, or `n` zero bytes, or room for `n` bytes. -/
def probeArg (v : Var) (n : Nat) : Arg :=
  if !v.isPointer then .scalar 0
  else if v.sendsData then .buffer false (List.replicate n 0)
  else .room false n

/-- The call that passes `f i` bytes behind the pointer at position `i`. -/
def probe (vs : List Var) (f : Nat → Nat) : Args := fun i =>
  match vs[i]? with
  | some v => probeArg v (f i)
  | none => .scalar 0

theorem probe_eq (f : Nat → Nat) (hp : p ∈ e.params) :
    probe e.vars f p.2 = probeArg p.1 (f p.2) := by
  have := List.mem_zipIdx_iff_getElem?.mp hp
  rw [probe, this]

theorem conforms_probeArg (v : Var) {n : Nat} (hn : n < 2 ^ 32) : (probeArg v n).Conforms v := by
  unfold probeArg
  cases hp : v.isPointer with
  | false => exact .scalar hp (Nat.pow_pos (by decide))
  | true =>
      cases hd : v.sendsData with
      | true => exact .buffer hp hd (by simpa using hn) (by simp)
      | false => exact .room hp hd hn (by simp)

theorem conform_probe (e : EntryPoint) {f : Nat → Nat} (hf : ∀ i, f i < 2 ^ 32) :
    (probe e.vars f).Conform e.params := by
  intro p hp
  rw [probe_eq f hp]
  exact conforms_probeArg p.1 (hf p.2)

theorem size_of_probeArg {n : Nat} (h : args p.2 = probeArg p.1 n)
    (hp : p.1.isPointer = true) (hn : n < 2 ^ 32) : size args p = n := by
  rw [size, h, probeArg]
  cases p.1.sendsData <;> simpa [hp, Arg.isNull, Arg.len] using hn

@[simp] theorem isNull_probeArg (v : Var) (n : Nat) : (probeArg v n).isNull = false := by
  unfold probeArg
  split
  · rfl
  · split <;> rfl

def width (p : Param) : Nat := if p.1.isPointer then 4 else p.1.type.bytes

/-- The parameters are called with zeros and empty buffers. -/
def Blank (args : Args) (ps : List Param) : Prop := ∀ p ∈ ps, args p.2 = probeArg p.1 0

theorem leBytes_zero (k : Nat) : leBytes k 0 = List.replicate k 0 := by
  induction k with
  | zero => rfl
  | succ k ih => rw [leBytes, Nat.zero_div, ih]; rfl

theorem stored_blank (h : args p.2 = probeArg p.1 0) :
    stored args p = List.replicate (width p) 0 := by
  unfold stored width
  grind [probeArg, Arg.value, leBytes_zero, sentBytes, size_of_probeArg]

theorem sentLarge_blank {junk : Mem} {pos : Nat}
    (h : args p.2 = probeArg p.1 0) (hl : p.1.isLarge = true) :
    sentLarge args junk pos p = List.replicate (width p) 0 := by
  have hp := Var.isLarge_isPointer hl
  rw [sentLarge_eq_stored hl (Or.inr (size_of_probeArg h hp (by decide))), stored_blank h]

theorem allocSize_blank (h : args p.2 = probeArg p.1 0) :
    allocSize args p = width p := by
  unfold allocSize width
  grind [size_of_probeArg]

/-- Blank parameters behind no hole are zeros. -/
theorem layout_blank {args : Args} {junk : Mem} {ps : List Param} (h : Blank args ps)
    (rest : List Param) (pos w : Nat) :
    ∃ pos' w', w' ≤ w + (ps.map width).sum ∧ layout args junk pos w w (ps ++ rest) =
      List.replicate (ps.map width).sum 0 ++ layout args junk pos' w' w' rest := by
  induction ps generalizing pos w with
  | nil => exact ⟨pos, w, Nat.le_refl _, rfl⟩
  | cons p ps ih =>
      have hp := h p (by simp)
      have hps : Blank args ps := fun r hr => h r (by simp [hr])
      rw [List.map_cons, List.sum_cons, List.replicate_add]
      cases hl : p.1.isLarge with
      | true =>
          have hgap : gap w w = 0 := Nat.sub_eq_zero_of_le (Nat.mod_le w _)
          obtain ⟨pos', w', hw, ht⟩ := ih hps (pos + width p) 0
          refine ⟨pos', w', by omega, ?_⟩
          simp only [List.cons_append, layout, if_pos hl, hgap, load_zero, List.nil_append,
            sentLarge_blank hp hl, List.length_replicate, Nat.add_zero, ht, List.append_assoc]
      | false =>
          obtain ⟨pos', w', hw, ht⟩ := ih hps (pos + width p) (w + width p)
          refine ⟨pos', w', by omega, ?_⟩
          simp only [List.cons_append, layout, hl, Bool.false_eq_true, if_false, stored_blank hp,
            allocSize_blank hp, List.length_replicate, ht, List.append_assoc]

/-- Behind no hole a pointer starts with its length. -/
theorem layout_pointer {args : Args} {junk : Mem} {q : Param} (hq : q.1.isPointer = true)
    (post : List Param) (pos w : Nat) :
    ∃ tail, layout args junk pos w w (q :: post) = leBytes 4 (size args q) ++ tail := by
  rw [layout]
  split
  · have hgap : gap w w = 0 := Nat.sub_eq_zero_of_le (Nat.mod_le w _)
    simp [load_zero, sentLarge, List.nil_append, List.append_assoc, hgap]
  · simp [stored, List.append_assoc, hq]

/-- A large parameter on the way puts the hole of one byte before the next length. -/
theorem layout_blank_hole {args : Args} {ps post : List Param} {q : Param}
    (h : Blank args ps) (hq : q.1.isPointer = true)
    (hl : ∃ p ∈ ps ++ [q], p.1.isLarge = true) (pos : Nat) {w : Nat}
    (hw : w + (ps.map width).sum + 1 < 2 ^ 32) :
    ∃ tail, layout args (fun _ => 0) pos (w + 1) w (ps ++ q :: post) =
      List.replicate ((ps.map width).sum + 1) 0 ++ (leBytes 4 (size args q) ++ tail) := by
  have hgap : ∀ {w : Nat}, w + 1 < 2 ^ 32 → gap (w + 1) w = 1 := by
    intro w hw
    rw [gap, Nat.mod_eq_of_lt hw, Nat.add_sub_cancel_left]
  have hzero : load (fun _ => 0) pos 1 = [0] := rfl
  induction ps generalizing pos w with
  | nil =>
      have hlq : q.1.isLarge = true := by simpa using hl
      simp only [List.map_nil, List.sum_nil, Nat.add_zero] at hw
      rw [List.nil_append, layout, if_pos hlq, hgap hw, hzero, sentLarge]
      exact ⟨_, by simp only [List.append_assoc]; rfl⟩
  | cons p ps ih =>
      have hp := h p (by simp)
      have hps : Blank args ps := fun r hr => h r (by simp [hr])
      simp only [List.map_cons, List.sum_cons] at hw ⊢
      cases hlp : p.1.isLarge with
      | true =>
          obtain ⟨pos', w', -, hrest⟩ := @layout_blank args (fun _ => 0) ps hps (q :: post)
            (pos + 1 + width p) 0
          obtain ⟨tail, ht⟩ := @layout_pointer args (fun _ => 0) q hq post pos' w'
          rw [ht] at hrest
          refine ⟨tail, ?_⟩
          have hw' : w + 1 < 2 ^ 32 := by omega
          rw [List.replicate_succ, List.replicate_add]
          simp only [List.cons_append, layout, if_pos hlp, hgap hw', hzero, List.nil_append,
            sentLarge_blank hp hlp, List.length_replicate, hrest, List.append_assoc]
      | false =>
          obtain ⟨tail, ht⟩ := @ih hps (by simpa [hlp] using hl) (pos + width p)
            (w + width p) (by omega) rfl
          refine ⟨tail, ?_⟩
          rw [Nat.add_assoc (width p), List.replicate_add (width p), List.append_assoc]
          simp only [List.cons_append, layout, hlp, Bool.false_eq_true, if_false,
            stored_blank hp, allocSize_blank hp, List.length_replicate,
            Nat.add_right_comm w 1 (width p), ht]

/-- The first `out` pointer with a byte of room, and what follows up to the second. -/
theorem layout_outs {args : Args} {mid post : List Param} {p q : Param}
    (hmid : Blank args mid) (hp : isOut p = true) (hq : q.1.isPointer = true)
    (hpa : args p.2 = probeArg p.1 1) (hl : ∃ v ∈ p :: (mid ++ [q]), v.1.isLarge = true)
    (pos : Nat) {w : Nat} (hw : w + 4 + (mid.map width).sum + 1 < 2 ^ 32) :
    ∃ tail, layout args (fun _ => 0) pos w w (p :: (mid ++ q :: post)) =
      leBytes 4 1 ++ (List.replicate ((mid.map width).sum + 1) 0 ++
        (leBytes 4 (size args q) ++ tail)) := by
  have hptr := (isOut_iff.mp hp).1
  have hsends : p.1.sendsData = false := by simpa [isOut, hptr] using hp
  have hsize : size args p = 1 := size_of_probeArg hpa hptr (by decide)
  have hnull : (args p.2).isNull = false := by rw [hpa, isNull_probeArg]
  cases hlp : p.1.isLarge with
  | true =>
      have hgap : gap w w = 0 := Nat.sub_eq_zero_of_le (Nat.mod_le w _)
      have hbody : sentLarge args (fun _ => 0) pos p = leBytes 4 1 ++ [0] := by
        rw [sentLarge, hsize, hsends, hnull, Bool.and_false]
        rfl
      obtain ⟨pos', w', -, hrest⟩ := @layout_blank args (fun _ => 0) mid hmid (q :: post)
        (pos + 5) 0
      obtain ⟨tail, ht⟩ := @layout_pointer args (fun _ => 0) q hq post pos' w'
      rw [ht] at hrest
      refine ⟨tail, ?_⟩
      simp only [layout, if_pos hlp, hgap, load_zero, List.nil_append, Nat.add_zero, hbody,
        List.length_append, leBytes_length, List.length_singleton, hrest,
        List.replicate_succ, List.append_assoc, List.cons_append]
  | false =>
      have hstored : stored args p = leBytes 4 1 := by grind [stored]
      have halloc : allocSize args p = 1 + 4 := by rw [allocSize, if_pos hptr, hsize]
      obtain ⟨tail, ht⟩ := @layout_blank_hole args mid post q hmid hq
        (by simpa [hlp] using hl) (pos + 4) (w + 4) (by omega)
      grind [layout]

/-- The decoder steps over zeros as over blank parameters. -/
theorem eval_offsetAfter_blank {m : Mem} (ps : List Param) (off : OffExpr)
    (h : Holds m (off.eval m) (List.replicate (ps.map width).sum 0)) :
    (offsetAfter off ps).eval m = off.eval m + (ps.map width).sum := by
  induction ps generalizing off with
  | nil => rfl
  | cons p ps ih =>
      rw [List.map_cons, List.sum_cons, List.replicate_add, holds_append,
        List.length_replicate] at h
      have hstep : (nextOffset p off).eval m = off.eval m + width p := by
        rw [eval_nextOffset, stepOffset, width]
        cases hv : p.1.isVoid with
        | true => simp [Var.not_isPointer_of_isVoid hv, Var.bytes_of_isVoid hv]
        | false =>
            cases hp : p.1.isPointer with
            | false => rfl
            | true =>
                have hload : loadLE m (off.eval m) 4 = 0 := by
                  have h0 := h.1
                  rw [width, if_pos hp, ← leBytes_zero] at h0
                  exact h0.loadLE (by decide)
                simp [hload]
      rw [List.map_cons, List.sum_cons, ← Nat.add_assoc, ← hstep]
      exact ih (nextOffset p off) (by rw [hstep]; exact h.2)

/-- The decoder takes the length of the second `out` pointer for 256. -/
theorem outLengths_outs {m : Mem} {pre mid post : List Param} {p q : Param} {tail : List UInt8}
    (hp : isOut p = true) (hq : isOut q = true)
    (h : Holds m 8 (List.replicate (pre.map width).sum 0 ++ (leBytes 4 1 ++
      (List.replicate ((mid.map width).sum + 1) 0 ++ (leBytes 4 1 ++ tail))))) :
    257 ≤ ((outLengths m (varOffsets .header (pre ++ p :: (mid ++ q :: post)))).map
      Prod.snd).sum := by
  simp only [holds_append, List.length_replicate, leBytes_length] at h
  obtain ⟨hpre, hp1, hmid, hq1, -⟩ := h
  have hoff := eval_offsetAfter_blank pre .header hpre
  generalize hoffp : offsetAfter .header pre = offp at hoff
  change offp.eval m = 8 + (pre.map width).sum at hoff
  have hplen : lengthAt m (p, offp) = 1 := by
    rw [lengthAt, hoff]
    exact hp1.loadLE (by decide)
  have hnext : (nextOffset p offp).eval m = 8 + (pre.map width).sum + 4 := by
    have hptr := (isOut_iff.mp hp).1
    have hsends : p.1.sendsData = false := by simpa [isOut, hptr] using hp
    rw [eval_nextOffset, stepOffset, hoff]
    simp [Var.not_isVoid_of_isPointer hptr, hptr, hsends]
  rw [List.replicate_succ', holds_append, List.length_replicate] at hmid
  have hoffq := eval_offsetAfter_blank mid (nextOffset p offp) (by rw [hnext]; exact hmid.1)
  generalize hoq : offsetAfter (nextOffset p offp) mid = offq at hoffq
  rw [hnext] at hoffq
  have hqlen : lengthAt m (q, offq) = 256 := by
    have hbytes : Holds m (offq.eval m) [0, 1, 0, 0] := by
      have hword := hq1
      change Holds m _ ([1, 0, 0] ++ [0]) at hword
      rw [holds_append] at hword
      rw [← List.singleton_append, holds_append, hoffq]
      exact ⟨hmid.2, hword.1⟩
    have hload : load m (offq.eval m) 4 = [0, 1, 0, 0] := hbytes.load_eq rfl
    rw [lengthAt, loadLE, hload]
    rfl
  grind [varOffsets_append, varOffsets, outLengths_append, outLengths_cons]

/-! ## Counting the reply -/

/-- What the client takes for the return value is what the server sends for it. -/
theorem readRetval_length {s r : Readback}
    (h : receiveAll args (if e.retval.isPointer then []
      else if e.retval.name ≠ "void" then [.readRetval e.retval.bytes] else []) s = some r)
    (served : Served) :
    s.incoming.length = (retvalOf e served).length + r.incoming.length := by
  unfold retvalOf returnsValue
  cases hp : e.retval.isPointer with
  | true =>
      rw [hp, if_pos rfl] at h
      obtain rfl := Option.some.inj h
      simp
  | false =>
      rw [hp, if_neg (by simp)] at h
      by_cases hname : e.retval.name = "void"
      · rw [if_neg (by simp [hname])] at h
        obtain rfl := Option.some.inj h
        have hbytes : e.retval.bytes = 0 := by
          rw [VarType.bytes, (e.retval.void_empty hname).1]
          rfl
        simp [hbytes]
      · rw [if_pos hname] at h
        simp only [receiveAll, Option.bind_fun_some, EncStmt.receive] at h
        split at h
        · obtain rfl := Option.some.inj h
          by_cases hbytes : e.retval.bytes = 0
          · simp [hbytes]
          · simp [hbytes]
            omega
        · cases h

/-- When the two sides agree, the decoder read lengths that add up to the sizes of
the pointers the client reads back. -/
theorem Agree.sum_sizes {junk rest stale : Mem}
    {server : List Decoded → Served} (hfits : Fits args 8 8 e.params)
    (h : Agree e opcode args junk rest server stale) :
    ∃ front : List UInt8, front.length = 8 ∧
      ((outLengths (ofList (front ++ layout args junk 8 8 8 e.params) rest)
        (varOffsets .header e.params)).map Prod.snd).sum =
      ((e.params.filter fun p => p.1.isPointer && p.1.readsBack).map (size args)).sum := by
  obtain ⟨bytes, s, decoded, r, henc, hs, hcalled, hread, hnil, -, -⟩ := h
  rw [encode_eq, if_pos hfits] at henc
  refine ⟨_, header_length opcode (evalSize args (packetSizeExpr e.params)), ?_⟩
  rw [Option.some.inj henc]
  obtain ⟨s', hs', -, hreply⟩ := dispatch_eq e ⟨ofList bytes rest, server, stale⟩
  obtain rfl := Option.some.inj (hs.symm.trans hs')
  rw [genReadback, receiveAll_append, Option.bind_eq_some_iff] at hread
  obtain ⟨t, ht, hretval⟩ := hread
  have hpointers := receiveAll_readback_length ht
  have hlast := readRetval_length hretval
    (server (decodedArgs (ofList bytes rest) e.params))
  have htotal : s.reply.length =
      ((outLengths (ofList bytes rest) (varOffsets .header e.params)).map Prod.snd).sum +
        (retvalOf e (server (decodedArgs (ofList bytes rest) e.params))).length := by
    rw [hreply, replyBytes, List.length_append, List.length_flatMap]
    simp only [load_length]
    rfl
  grind

/-! ## The reply of an entry point -/

theorem aligned_of_no_room (hc : args.Conform ps)
    (hroom : ∀ p ∈ ps, isOut p = true → size args p = 0) {a : Nat}
    (hfits : Fits args a a ps) : Aligned args a a ps := by
  induction ps generalizing a with
  | nil => trivial
  | cons p ps ih =>
      have hcps : args.Conform ps := fun q hq => hc q (by simp [hq])
      have ih := @ih hcps fun q hq => hroom q (by simp [hq])
      have hp := hroom p (by simp)
      rw [Fits] at hfits
      rw [Aligned]
      split
      · grind [isOut]
      · rename_i hl
        rw [if_neg hl] at hfits
        have hstored := stored_length (hc p (by simp))
        have hsize : (if p.1.isPointer && !p.1.sendsData then size args p else 0) = 0 := by
          split
          · exact hp ‹_›
          · rfl
        rw [hsize, Nat.add_zero] at hstored
        grind

theorem size_blank (h : args p.2 = probeArg p.1 0) :
    size args p = 0 := by
  rw [size, h, probeArg]
  cases p.1.isPointer <;> cases p.1.sendsData <;> simp [Arg.isNull, Arg.len]

theorem sum_size_blank (h : Blank args ps)
    (f : Param → Bool) : ((ps.filter f).map (size args)).sum = 0 := by
  refine List.sum_eq_zero fun n hn => ?_
  obtain ⟨p, hp, rfl⟩ := List.mem_map.mp hn
  exact size_blank (h p (List.mem_filter.mp hp).1)

theorem sum_size_cons_le (args : Args) (p : Param) (ps : List Param) (f : Param → Bool) :
    (((p :: ps).filter f).map (size args)).sum ≤
      size args p + ((ps.filter f).map (size args)).sum := by
  rw [List.filter_cons]
  grind

theorem fits_probe {f : Nat → Nat}
    (hf : ∀ i, f i ≤ 1) : Fits (probe e.vars f) 8 8 e.params := by
  have hlen := e.vars_length_lt
  have hf' : ∀ i, f i < 2 ^ 32 := fun i => Nat.lt_of_le_of_lt (hf i) (by decide)
  refine fits_of_lt (conform_probe e hf') (Nat.le_refl 8) ?_
  have hle : (e.params.map (allocSize (probe e.vars f))).sum ≤
      (e.params.map (allocSize (probe e.vars f))).length • 5 := by
    refine List.sum_le_card_nsmul _ _ fun n hn => ?_
    obtain ⟨p, hp, rfl⟩ := List.mem_map.mp hn
    unfold allocSize
    split
    · rename_i hptr
      rw [size_of_probeArg (probe_eq f hp) hptr (hf' p.2)]
      have := hf p.2
      omega
    · exact Nat.le_trans (VarConverter.bytes_le _) (by decide)
  grind [EntryPoint.params, List.length_zipIdx]

theorem sum_width_le (ps : List Param) : (ps.map width).sum ≤ 4 * ps.length := by
  have := List.sum_le_card_nsmul (ps.map width) 4 fun n hn => by
    obtain ⟨p, -, rfl⟩ := List.mem_map.mp hn
    unfold width
    split
    · exact Nat.le_refl 4
    · exact VarConverter.bytes_le _
  grind

/-- One byte behind an `inout` pointer is never sent back. -/
theorem not_agrees_of_inout (hp : p ∈ e.params)
    (hptr : p.1.isPointer = true) (hd : p.1.pointerDir = .pointerInout) :
    ∃ args, args.Conform e.params ∧ Fits args 8 8 e.params ∧ ¬ Agrees e opcode args := by
  let f : Nat → Nat := fun i => if i = p.2 then 1 else 0
  have hf : ∀ i, f i ≤ 1 := by grind
  have hc := conform_probe e (f := f) fun i => Nat.lt_of_le_of_lt (hf i) (by decide)
  have hfits := fits_probe (e := e) hf
  refine ⟨probe e.vars f, hc, hfits, fun h => ?_⟩
  obtain ⟨front, hfront, hsum⟩ :=
    (h (fun _ => 0) (fun _ => 0) (fun _ => ⟨fun _ _ => 0, 0⟩) (fun _ => 0)).sum_sizes hfits
  -- the `out` pointers have no room, so their lengths are read right
  have hroom : ∀ q ∈ e.params, isOut q = true → size (probe e.vars f) q = 0 := by
    intro q hq hout
    refine size_blank ?_
    rw [probe_eq f hq]
    have hne : q.2 ≠ p.2 := by
      intro heq
      have : q = p := List.inj_on_of_nodup_map (positions_nodup e) hq hp heq
      rw [this] at hout
      simp [isOut, Var.sendsData, hd] at hout
    simp [f, hne]
  have hm := holds_behind front (layout (probe e.vars f) (fun _ => 0) 8 8 8 e.params) fun _ => 0
  rw [hfront, ← List.append_nil e.params] at hm
  have hdec := decodeFrom_layout hc (aligned_of_no_room hc hroom hfits) hm
  rw [List.append_nil] at hdec
  rw [outLengths_of_decodes hc .header hdec, List.map_map] at hsum
  have hzero : ((e.params.filter isOut).map
      (Prod.snd ∘ fun q => (q.2, size (probe e.vars f) q))).sum = 0 := by
    refine List.sum_eq_zero fun n hn => ?_
    grind
  have hone : 1 ≤ ((e.params.filter fun p => p.1.isPointer && p.1.readsBack).map
      (size (probe e.vars f))).sum := by
    refine List.single_le_sum (fun _ _ => Nat.zero_le _) 1 (List.mem_map.mpr ⟨p, ?_, ?_⟩)
    · exact List.mem_filter.mpr ⟨hp, by simp [hptr, Var.readsBack, hd]⟩
    · exact size_of_probeArg (by rw [probe_eq f hp]; simp [f]) hptr (by decide)
  omega

/-- One byte of room behind two `out` pointers that a large parameter separates is
answered with at least 257 bytes. -/
theorem not_agrees_of_not_outsTogether (ht : ¬ OutsTogether e.params) :
    ∃ args, args.Conform e.params ∧ Fits args 8 8 e.params ∧ ¬ Agrees e opcode args := by
  simp only [OutsTogether, not_forall, Bool.not_eq_false] at ht
  obtain ⟨pre, p, mid, q, post, hps, hp, hq, v, hv, hvl⟩ := ht
  let f : Nat → Nat := fun i => if i = p.2 ∨ i = q.2 then 1 else 0
  have hf : ∀ i, f i ≤ 1 := by grind
  have hc := conform_probe e (f := f) fun i => Nat.lt_of_le_of_lt (hf i) (by decide)
  have hfits := fits_probe (e := e) hf
  refine ⟨probe e.vars f, hc, hfits, fun h => ?_⟩
  obtain ⟨front, hfront, hsum⟩ :=
    (h (fun _ => 0) (fun _ => 0) (fun _ => ⟨fun _ _ => 0, 0⟩) (fun _ => 0)).sum_sizes hfits
  have hnodup := positions_nodup e
  have hmem : ∀ r ∈ pre ++ p :: (mid ++ q :: post),
      probe e.vars f r.2 = probeArg r.1 (f r.2) := fun r hr => probe_eq f (hps ▸ hr)
  have hlength : pre.length + (mid.length + post.length) + 2 = e.vars.length := by
    have := congrArg List.length hps
    simp only [EntryPoint.params, List.length_zipIdx, List.length_append, List.length_cons] at this
    omega
  rw [hps] at hnodup hsum
  simp only [List.map_append, List.map_cons, List.nodup_append, List.nodup_cons, List.mem_append,
    List.mem_cons, List.mem_map, not_or] at hnodup
  obtain ⟨-, ⟨⟨hpmid, hpq, hppost⟩, -, ⟨hqpost, -⟩, hmidq⟩, hprene⟩ := hnodup
  have hblank : ∀ qs : List Param, (∀ r ∈ qs, r ∈ pre ++ p :: (mid ++ q :: post)) →
      (∀ r ∈ qs, r.2 ≠ p.2 ∧ r.2 ≠ q.2) → Blank (probe e.vars f) qs := by
    intro qs hsub hne r hr
    rw [hmem r (hsub r hr)]
    simp [f, hne r hr]
  have hpre : Blank (probe e.vars f) pre := by
    refine hblank pre (fun r hr => by simp [hr]) fun r hr => ⟨?_, ?_⟩
    · exact hprene r.2 ⟨r, hr, rfl⟩ p.2 (Or.inl rfl)
    · exact hprene r.2 ⟨r, hr, rfl⟩ q.2 (Or.inr (Or.inr (Or.inl rfl)))
  have hmid : Blank (probe e.vars f) mid := by
    refine hblank mid (fun r hr => by simp [hr]) fun r hr => ⟨?_, ?_⟩
    · exact fun heq => hpmid ⟨r, hr, heq⟩
    · exact hmidq r.2 ⟨r, hr, rfl⟩ q.2 (Or.inl rfl)
  have hpost : Blank (probe e.vars f) post := by
    refine hblank post (fun r hr => by simp [hr]) fun r hr => ⟨?_, ?_⟩
    · exact fun heq => hppost ⟨r, hr, heq⟩
    · exact fun heq => hqpost ⟨r, hr, heq⟩
  have hpa : probe e.vars f p.2 = probeArg p.1 1 := by
    rw [hmem p (by simp)]
    simp [f]
  have hqa : probe e.vars f q.2 = probeArg q.1 1 := by
    rw [hmem q (by simp)]
    simp [f]
  have hqptr := (isOut_iff.mp hq).1
  have hqsize := size_of_probeArg hqa hqptr (by decide)
  -- the packet
  obtain ⟨pos', w', hw', hlayout⟩ := @layout_blank (probe e.vars f) (fun _ => 0) pre hpre
    (p :: (mid ++ q :: post)) 8 8
  have hlen := e.vars_length_lt
  have hwpre := sum_width_le pre
  have hwmid := sum_width_le mid
  obtain ⟨tail, htail⟩ := @layout_outs (probe e.vars f) mid post p q hmid hp hqptr hpa
    ⟨v, hv, hvl⟩ pos' w' (by omega)
  rw [hqsize] at htail
  have hm := holds_behind front (layout (probe e.vars f) (fun _ => 0) 8 8 8
    (pre ++ p :: (mid ++ q :: post))) fun _ => 0
  rw [hfront] at hm
  generalize ofList _ _ = m at hm hsum
  rw [hlayout, htail] at hm
  have hmany := @outLengths_outs m pre mid post p q tail hp hq hm
  rw [hsum] at hmany
  have hcons := fun (r : Param) (qs : List Param) => sum_size_cons_le (probe e.vars f) r qs
    fun p => p.1.isPointer && p.1.readsBack
  have hpmid := hcons p (mid ++ q :: post)
  have hqpost := hcons q post
  simp only [List.filter_append, List.map_append, List.sum_append, sum_size_blank hpre,
    sum_size_blank hmid, sum_size_blank hpost, hqsize,
    size_of_probeArg hpa (isOut_iff.mp hp).1 (by decide)] at hmany hpmid hqpost
  omega

/-- The reply of an entry point agrees for exactly the calls whose packet fits, if
and only if the entry point is safe. -/
theorem agrees_iff_replySafe (e : EntryPoint) (opcode : Nat) :
    (∀ args, args.Conform e.params → (Agrees e opcode args ↔ Fits args 8 8 e.params)) ↔
      ReplySafe e := by
  constructor
  · intro h
    refine ⟨fun p hp hptr hd => ?_, ?_⟩
    · obtain ⟨args, hc, hfits, hnot⟩ := not_agrees_of_inout hp hptr hd
      exact hnot ((h args hc).mpr hfits)
    · by_contra ht
      obtain ⟨args, hc, hfits, hnot⟩ := not_agrees_of_not_outsTogether ht
      exact hnot ((h args hc).mpr hfits)
  · refine fun hsafe args hc => ⟨fun h => ?_, agrees_of_replySafe hsafe hc⟩
    obtain ⟨bytes, -, -, -, henc, -⟩ :=
      h (fun _ => 0) (fun _ => 0) (fun _ => ⟨fun _ _ => 0, 0⟩) (fun _ => 0)
    rw [encode_eq] at henc
    by_contra hfits
    simp [hfits] at henc

/-- `void f(void *a)` with `a` an `inout` pointer. -/
private def inoutLike : EntryPoint :=
  ⟨"f", voidType, [.small ptrType .pointerInout false], by decide⟩

private def inoutArgs : Args := fun _ => .buffer false [7]

/-- The client waits for a byte that the decoder never sends. -/
theorem inoutLike_not_agrees :
    ¬ ∀ (e : EntryPoint) (opcode : Nat) (args : Args), args.Conform e.params →
      Fits args 8 8 e.params → Agrees e opcode args := by
  intro h
  have hc : inoutArgs.Conform inoutLike.params := by
    intro p hp
    simp only [EntryPoint.params, inoutLike, List.zipIdx_cons, List.zipIdx_nil, List.mem_cons,
      List.not_mem_nil, or_false] at hp
    subst hp
    exact .buffer rfl rfl (by decide) (by decide)
  have hagrees := h inoutLike 0 inoutArgs hc (by decide)
  obtain ⟨bytes, s, decoded, r, -, hs, -, hread, -⟩ :=
    hagrees (fun _ => 0) (fun _ => 0) (fun _ => ⟨fun _ _ => 0, 0⟩) (fun _ => 0)
  obtain ⟨s', hs', -, hreply⟩ := dispatch_eq inoutLike
    ⟨ofList bytes fun _ => 0, fun _ => ⟨fun _ _ => 0, 0⟩, fun _ => 0⟩
  obtain rfl := Option.some.inj (hs.symm.trans hs')
  have hnil : s.reply = [] := hreply
  rw [hnil] at hread
  cases hread

end AndroidRenderer.Emugen
