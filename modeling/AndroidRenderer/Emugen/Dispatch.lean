import AndroidRenderer.Emugen.Decoder

/-!
# What a dispatched packet does

The generated `case` body is a list of small statements over shared locals. Here
its effect is computed once: the server function is called with `decodedArgs`, and
the reply is the contents of the `out` pointers in parameter order followed by the
return value. Nothing else in the development runs the statements again.
-/

namespace AndroidRenderer.Emugen

open LittleEndian

def lengthAt (m : Mem) (q : Param × OffExpr) : Nat := loadLE m (q.2.eval m) 4

/-- What the server receives for one parameter. -/
def decodeVar (m : Mem) (q : Param × OffExpr) : List Decoded :=
  if q.1.1.isVoid then []
  else if !q.1.1.isPointer then [.scalar (loadLE m (q.2.eval m) q.1.1.type.bytes)]
  else if q.1.1.nullAllowed && lengthAt m q == 0 then [.null]
  else if q.1.1.sendsData then [.data (load m (q.2.eval m + 4) (lengthAt m q))]
  else [.room (lengthAt m q)]

def decodedArgs (m : Mem) (ps : List Param) : List Decoded :=
  (varOffsets .header ps).flatMap (decodeVar m)

/-- The `out` pointers with the lengths the decoder reads for them. -/
def outLengths (m : Mem) (qs : List (Param × OffExpr)) : List (Nat × Nat) :=
  (qs.filter fun q => isOut q.1).map fun q => (q.1.2, lengthAt m q)

/-- The reply: the contents behind each `out` pointer, then the return value. -/
def replyBytes (e : EntryPoint) (m : Mem) (r : Served) : List UInt8 :=
  (outLengths m (varOffsets .header e.params)).flatMap (fun o => load (r.contents o.1) 0 o.2) ++
    if returnsValue e.retval then leBytes e.retval.bytes r.retval else []

theorem map_fst_varOffsets (off : OffExpr) (ps : List Param) :
    (varOffsets off ps).map Prod.fst = ps := by
  induction ps generalizing off with
  | nil => rfl
  | cons p ps ih => simp [varOffsets, ih]

theorem map_fst_outLengths (m : Mem) (off : OffExpr) (ps : List Param) :
    (outLengths m (varOffsets off ps)).map Prod.fst = outPointers ps := by
  induction ps generalizing off with
  | nil => rfl
  | cons p ps ih =>
      have htail := ih (nextOffset p off)
      simp only [outLengths, outPointers, List.map_map] at htail ⊢
      rw [varOffsets, List.filter_cons, List.filter_cons]
      cases hp : isOut p <;> simpa using htail

theorem runAll_append (env : DecEnv) (a b : List DecStmt) (s : DecState) :
    runAll env (a ++ b) s = (runAll env a s).bind (runAll env b) := by
  induction a generalizing s with
  | nil => rfl
  | cons c cs ih =>
      simp only [List.cons_append, runAll, Option.bind_assoc]
      congr 1
      funext t
      exact ih t

/-! ## Positions -/

theorem positions_nodup (e : EntryPoint) : (e.params.map Prod.snd).Nodup := by
  rw [EntryPoint.params, List.zipIdx_map_snd]
  exact List.nodup_range'

/-- The locals `tmpPtr<j>Size` after a list of assignments. -/
def assign (f : Nat → Nat) (ls : List (Nat × Nat)) : Nat → Nat :=
  ls.foldl (fun f l => Function.update f l.1 l.2) f

theorem assign_of_not_mem {f : Nat → Nat} {ls : List (Nat × Nat)} {j : Nat}
    (h : j ∉ ls.map Prod.fst) : assign f ls j = f j := by
  induction ls generalizing f with
  | nil => rfl
  | cons l ls ih =>
      simp only [List.map_cons, List.mem_cons, not_or] at h
      rw [assign, List.foldl_cons, ← assign, ih h.2, Function.update_of_ne h.1]

theorem assign_of_mem {f : Nat → Nat} {ls : List (Nat × Nat)} (h : (ls.map Prod.fst).Nodup)
    {l : Nat × Nat} (hl : l ∈ ls) : assign f ls l.1 = l.2 := by
  induction ls generalizing f with
  | nil => simp at hl
  | cons l' ls ih =>
      simp only [List.map_cons, List.nodup_cons] at h
      rcases List.mem_cons.mp hl with rfl | hl
      · change assign (Function.update f l.1 l.2) ls l.1 = l.2
        rw [assign_of_not_mem h.1, Function.update_self]
      · exact ih h.2 hl

/-! ## The passes -/

theorem run_tmpSizes (env : DecEnv) (qs : List (Param × OffExpr)) (s : DecState) :
    runAll env (qs.flatMap fun q => if isOut q.1 then [.tmpSize q.1.2 q.2] else []) s =
      some { s with
        tmpSize := assign s.tmpSize (outLengths env.mem qs)
        totalTmpSize := s.totalTmpSize + ((outLengths env.mem qs).map Prod.snd).sum } := by
  induction qs generalizing s with
  | nil => rfl
  | cons q qs ih =>
      rw [List.flatMap_cons, runAll_append]
      cases hq : isOut q.1 with
      | false => simp [Bool.false_eq_true, runAll, ih, outLengths, hq]
      | true =>
          simp only [if_true, runAll, DecStmt.exec, Option.bind_some, ih]
          simp [outLengths, hq, assign, lengthAt, Nat.add_assoc]

theorem isOut_iff {p : Param} :
    isOut p = true ↔ p.1.isPointer = true ∧ p.1.pointerDir = .pointerOut := by
  simp [isOut, Var.sendsData_eq_false]

/-- The state a single `memAlloc` leaves, as far as the `out` pointers are concerned. -/
theorem run_memAlloc_step (env : DecEnv) (outs : List Nat) (q : Param × OffExpr) (s : DecState)
    (hq : isOut q.1 = false → q.1.2 ∉ outs) :
    ∃ t, runAll env (memAlloc outs q.1 q.2) s = some t ∧
      (t.totalTmpSize = s.totalTmpSize ∧ t.tmpBuf = s.tmpBuf ∧ t.reply = s.reply) ∧
      (∀ j ∈ outs, t.tmpSize j = s.tmpSize j) ∧
      ∀ j, t.tmpPtr j = if isOut q.1 ∧ j = q.1.2
        then ((outs.takeWhile (· ≠ j)).map s.tmpSize).sum else s.tmpPtr j := by
  unfold memAlloc
  cases hp : q.1.1.isPointer with
  | false => exact ⟨s, rfl, ⟨rfl, rfl, rfl⟩, fun _ _ => rfl, fun j => by simp [isOut, hp]⟩
  | true =>
      cases hd : q.1.1.pointerDir with
      | pointerIn =>
          have hout : isOut q.1 = false := by simp [isOut, Var.sendsData, hd]
          exact ⟨s, rfl, ⟨rfl, rfl, rfl⟩, fun _ _ => rfl, fun j => by simp [hout]⟩
      | pointerInout =>
          have hout : isOut q.1 = false := by simp [isOut, Var.sendsData, hd]
          refine ⟨_, rfl, ⟨rfl, rfl, rfl⟩, fun j hj => ?_, fun j => by simp [hout]⟩
          grind
      | pointerOut =>
          have hout : isOut q.1 = true := isOut_iff.mpr ⟨hp, hd⟩
          refine ⟨_, rfl, ⟨rfl, rfl, rfl⟩, fun _ _ => rfl, fun j => ?_⟩
          grind [DecState.offset]

/-- `PASS_MemAlloc` sets the pointers into the reply buffer and touches no local
that an `out` pointer uses. -/
theorem run_memAlloc (env : DecEnv) (outs : List Nat) (qs : List (Param × OffExpr))
    (hq : ∀ q ∈ qs, isOut q.1 = false → q.1.2 ∉ outs) (s : DecState) :
    ∃ t, runAll env (qs.flatMap fun q => memAlloc outs q.1 q.2) s = some t ∧
      (t.totalTmpSize = s.totalTmpSize ∧ t.tmpBuf = s.tmpBuf ∧ t.reply = s.reply) ∧
      (∀ j ∈ outs, t.tmpSize j = s.tmpSize j) ∧
      ∀ j, t.tmpPtr j = if j ∈ outPointers (qs.map Prod.fst)
        then ((outs.takeWhile (· ≠ j)).map s.tmpSize).sum else s.tmpPtr j := by
  induction qs generalizing s with
  | nil => exact ⟨s, rfl, ⟨rfl, rfl, rfl⟩, fun _ _ => rfl, fun j => by simp [outPointers]⟩
  | cons q qs ih =>
      obtain ⟨t, ht, ⟨htotal, hbuf, hreply⟩, hsize, hptr⟩ :=
        run_memAlloc_step env outs q s (hq q (by simp))
      obtain ⟨u, hu, ⟨htotal', hbuf', hreply'⟩, hsize', hptr'⟩ :=
        ih (fun q' h' => hq q' (List.mem_cons_of_mem _ h')) t
      refine ⟨u, ?_, ⟨htotal'.trans htotal, hbuf'.trans hbuf, hreply'.trans hreply⟩,
        fun j hj => (hsize' j hj).trans (hsize j hj), fun j => ?_⟩
      · rw [List.flatMap_cons, runAll_append, ht, Option.bind_some, hu]
      · have hsum : ((outs.takeWhile (· ≠ j)).map t.tmpSize).sum =
            ((outs.takeWhile (· ≠ j)).map s.tmpSize).sum := by
          congr 1
          exact List.map_congr_left fun i hi => hsize i (List.takeWhile_subset _ hi)
        grind [outPointers]

/-! ## The reply buffer -/

/-- The pointers `js` lie one behind the other in the reply buffer from `base` on. -/
def Adjacent (s : DecState) : Nat → List Nat → Prop
  | _, [] => True
  | base, j :: js => s.tmpPtr j = base ∧ Adjacent s (base + s.tmpSize j) js

/-- The server fills adjacent pointers without leaving or missing a byte. -/
theorem fillRoom_eq (r : Served) (s : DecState) (js : List Nat) (base : Nat)
    (hadj : Adjacent s base js) (hroom : base + (js.map s.tmpSize).sum ≤ s.tmpBuf.length) :
    fillRoom r s js = some (s.tmpBuf.take base ++
      js.flatMap (fun j => load (r.contents j) 0 (s.tmpSize j)) ++
      s.tmpBuf.drop (base + (js.map s.tmpSize).sum)) := by
  induction js generalizing base with
  | nil => simp [fillRoom]
  | cons j js ih =>
      obtain ⟨hptr, hadj⟩ := hadj
      simp only [List.map_cons, List.sum_cons] at hroom
      rw [fillRoom, ih _ hadj (by omega), Option.bind_some, hptr]
      have hfront : (s.tmpBuf.take base).length = base := by
        rw [List.length_take]
        omega
      have hsplit : s.tmpBuf.take (base + s.tmpSize j) =
          s.tmpBuf.take base ++ (s.tmpBuf.drop base).take (s.tmpSize j) := List.take_add
      have hmid : ((s.tmpBuf.drop base).take (s.tmpSize j)).length = s.tmpSize j := by grind
      have hstore := Buffer.store?_append (s.tmpBuf.take base)
        ((s.tmpBuf.drop base).take (s.tmpSize j) ++
          (js.flatMap (fun j => load (r.contents j) 0 (s.tmpSize j)) ++
            s.tmpBuf.drop (base + s.tmpSize j + (js.map s.tmpSize).sum)))
        (load (r.contents j) 0 (s.tmpSize j))
      rw [hfront, load_length, if_pos (by rw [List.length_append, hmid]; omega),
        List.drop_left' hmid] at hstore
      grind

/-! ## The whole case -/

private theorem adjacent_outPointers (s : DecState) (outs pre js : List Nat)
    (hsplit : outs = pre ++ js) (hnodup : outs.Nodup)
    (hptr : ∀ j ∈ outs, s.tmpPtr j = ((outs.takeWhile (· ≠ j)).map s.tmpSize).sum) :
    Adjacent s (pre.map s.tmpSize).sum js := by
  induction js generalizing pre with
  | nil => trivial
  | cons j js ih =>
      refine ⟨?_, ?_⟩
      · have hnot : j ∉ pre := by
          rw [hsplit] at hnodup
          exact fun h => (List.nodup_append.mp hnodup).2.2 j h j (by simp) rfl
        have hbefore : outs.takeWhile (· ≠ j) = pre := by
          rw [hsplit, List.takeWhile_append_of_pos]
          · simp
          · grind
        rw [hptr j (by simp [hsplit]), hbefore]
      · have := ih (pre ++ [j]) (by simpa using hsplit)
        simpa using this

private theorem filterMap_tmpPtr (off : OffExpr) (ps : List Param) :
    ((varOffsets off ps).flatMap fun q => decArg q.1 q.2).filterMap DecArg.tmpPtr? =
      outPointers ps := by
  induction ps generalizing off with
  | nil => rfl
  | cons p ps ih =>
      have hhead : (decArg p off).filterMap DecArg.tmpPtr? =
          if isOut p then [p.2] else [] := by
        grind [decArg, isOut, Var.not_isPointer_of_isVoid, DecArg.tmpPtr?]
      rw [varOffsets, List.flatMap_cons, List.filterMap_append, hhead, ih]
      cases hout : isOut p <;> simp [outPointers, hout]

/-- The arguments of the call, evaluated when the locals hold the lengths of the
`out` pointers. -/
private theorem map_eval_decArg (m : Mem) (s : DecState) (qs : List (Param × OffExpr))
    (hs : ∀ q ∈ qs, isOut q.1 = true → s.tmpSize q.1.2 = lengthAt m q) :
    (qs.flatMap fun q => decArg q.1 q.2).map (·.eval m s) = qs.flatMap (decodeVar m) := by
  induction qs with
  | nil => rfl
  | cons q qs ih =>
      rw [List.flatMap_cons, List.map_append, ih fun q' h' => hs q' (List.mem_cons_of_mem _ h'),
        List.flatMap_cons]
      congr 1
      have hq := hs q (by simp)
      unfold decArg decodeVar
      grind [DecArg.eval, lengthAt, isOut]

private def retvalBytes (e : EntryPoint) : Nat :=
  if returnsValue e.retval then e.retval.bytes else 0

/-- After `PASS_TmpBuffAlloc` the reply buffer has room for the `out` pointers and
the return value, and nothing else. -/
private theorem run_passTmpBuffAlloc (e : EntryPoint) (env : DecEnv) :
    ∃ s, runAll env (passTmpBuffAlloc e) .start = some s ∧
      s.tmpSize = assign (fun _ => 0) (outLengths env.mem (varOffsets .header e.params)) ∧
      s.tmpBuf.length =
        ((outLengths env.mem (varOffsets .header e.params)).map Prod.snd).sum + retvalBytes e ∧
      s.reply = [] := by
  rw [passTmpBuffAlloc, pass, List.append_assoc, runAll_append, run_tmpSizes, Option.bind_some,
    runAll_append]
  have houts : (outPointers e.params).isEmpty = true →
      outLengths env.mem (varOffsets .header e.params) = [] := by
    rw [← map_fst_outLengths env.mem .header, List.isEmpty_iff]
    exact List.map_eq_nil_iff.mp
  cases hr : returnsValue e.retval with
  | true =>
      refine ⟨_, rfl, rfl, ?_, rfl⟩
      simp [retvalBytes, hr, DecState.start]
  | false =>
      cases ho : (outPointers e.params).isEmpty with
      | true =>
          refine ⟨_, rfl, rfl, ?_, rfl⟩
          simp [retvalBytes, hr, houts ho, DecState.start]
      | false =>
          refine ⟨_, rfl, rfl, ?_, rfl⟩
          simp [retvalBytes, hr, DecState.start]

/-- A dispatched packet calls the server once, with the decoded arguments, and
flushes the reply. -/
theorem dispatch_eq (e : EntryPoint) (env : DecEnv) :
    ∃ s, dispatch e env = some s ∧ s.called = some (decodedArgs env.mem e.params) ∧
      s.reply = replyBytes e env.mem (env.server (decodedArgs env.mem e.params)) := by
  generalize hqs : varOffsets .header e.params = qs
  generalize hls : outLengths env.mem qs = ls
  have hfst : ls.map Prod.fst = outPointers e.params := by
    rw [← hls, ← hqs, map_fst_outLengths]
  have hnodup : (outPointers e.params).Nodup :=
    (positions_nodup e).sublist (List.filter_sublist.map _)
  have hlocals : ∀ l ∈ ls, assign (fun _ => 0) ls l.1 = l.2 :=
    fun l hl => assign_of_mem (hfst ▸ hnodup) hl
  obtain ⟨s, hs, hsize, hbuf, hreply⟩ := run_passTmpBuffAlloc e env
  rw [hqs, hls] at hsize hbuf
  have hnotOut : ∀ q ∈ qs, isOut q.1 = false → q.1.2 ∉ outPointers e.params := by
    intro q hq hout hmem
    obtain ⟨p, hp, hpos⟩ := List.mem_map.mp hmem
    rw [List.mem_filter] at hp
    have hq' : q.1 ∈ e.params := by grind [map_fst_varOffsets]
    have : p = q.1 := List.inj_on_of_nodup_map (positions_nodup e) hp.1 hq' hpos
    simp [← this, hp.2] at hout
  obtain ⟨t, ht, ⟨-, htbuf, htreply⟩, htsize, htptr⟩ :=
    run_memAlloc env (outPointers e.params) qs hnotOut s
  have houtLen : ∀ l ∈ ls, t.tmpSize l.1 = l.2 := by
    intro l hl
    rw [htsize l.1 (hfst ▸ List.mem_map_of_mem hl), hsize, hlocals l hl]
  have hargs : (qs.flatMap fun q => decArg q.1 q.2).map (·.eval env.mem t) =
      decodedArgs env.mem e.params := by
    rw [map_eval_decArg env.mem t qs, decodedArgs, hqs]
    intro q hq hout
    refine houtLen (q.1.2, lengthAt env.mem q) ?_
    grind [outLengths]
  have hadj : Adjacent t 0 (outPointers e.params) := by
    refine adjacent_outPointers t (outPointers e.params) [] _ rfl hnodup fun j hj => ?_
    rw [htptr, ← hqs, map_fst_varOffsets, if_pos hj]
    congr 1
    exact List.map_congr_left fun i hi => (htsize i (List.takeWhile_subset _ hi)).symm
  have hsum : (outPointers e.params).map t.tmpSize = ls.map Prod.snd := by
    rw [← hfst, List.map_map]
    exact List.map_congr_left houtLen
  have hcontents : ∀ r : Served,
      (outPointers e.params).flatMap (fun j => load (r.contents j) 0 (t.tmpSize j)) =
        ls.flatMap (fun l => load (r.contents l.1) 0 l.2) := by
    intro r
    rw [← hfst, List.flatMap_map]
    exact List.flatMap_congr fun l hl => by rw [houtLen l hl]
  generalize hdec : decodedArgs env.mem e.params = decoded at hargs
  have hfill := fillRoom_eq (env.server decoded) t (outPointers e.params) 0 hadj (by
    rw [hsum, htbuf, hbuf]
    omega)
  rw [hsum, hcontents, htbuf, List.take_zero, List.nil_append, Nat.zero_add] at hfill
  have hbufLen : (s.tmpBuf.drop (ls.map Prod.snd).sum).length = retvalBytes e := by
    rw [List.length_drop, hbuf]
    omega
  obtain ⟨u, hu, hucalled, hubuf, hureply⟩ : ∃ u, runAll env (passFunctionCall e) t = some u ∧
      u.called = some decoded ∧
      u.tmpBuf = replyBytes e env.mem (env.server decoded) ∧ u.reply = [] := by
    rw [replyBytes, hqs, hls, passFunctionCall, pass, hqs]
    simp only [runAll, DecStmt.exec, Option.bind_fun_some, hargs]
    rw [← hqs, filterMap_tmpPtr, hfill, Option.bind_some]
    cases hr : returnsValue e.retval with
    | false => grind [retvalBytes]
    | true =>
        rw [retvalBytes, hr, if_pos rfl] at hbufLen
        have hoffset : t.offset (outPointers e.params) =
            (ls.flatMap (fun l => load ((env.server decoded).contents l.1) 0 l.2)).length := by
          simp [DecState.offset, List.length_flatMap, load_length, hsum]
        simp only [if_true, hoffset, Buffer.store?_append, leBytes_length, hbufLen, Nat.le_refl,
          Option.map_some]
        grind
  have hrun : dispatch e env = runAll env (passEpilog e) u := by
    grind [dispatch, genDecoderImpl, runAll_append, passMemAlloc, pass]
  rw [hrun, passEpilog]
  by_cases hexist : returnsValue e.retval || !(outPointers e.params).isEmpty
  · rw [if_pos hexist]
    refine ⟨_, rfl, hucalled, ?_⟩
    simp [List.nil_append, hureply, hubuf]
  · rw [if_neg hexist]
    refine ⟨u, rfl, hucalled, ?_⟩
    simp only [Bool.or_eq_true, not_or, Bool.not_eq_true, Bool.not_eq_false',
      List.isEmpty_iff] at hexist
    have hnil : ls = [] := List.map_eq_nil_iff.mp (hfst.trans hexist.2)
    simp [hureply, replyBytes, hqs, hls, hnil, hexist.1]

end AndroidRenderer.Emugen
