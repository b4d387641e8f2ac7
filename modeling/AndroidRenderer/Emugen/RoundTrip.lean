import AndroidRenderer.Emugen.Dispatch
import AndroidRenderer.Emugen.Layout

/-!
# Decoding what the encoder sent

The encoder and the decoder walk over the same parameters, but an `out` pointer
breaks their agreement on offsets. The encoder counts its length in the fragment's
allocation, and sends the room itself when the pointer is large; the decoder steps
over the length field only. Whatever is read behind such a hole is undetermined.

`Aligned` says that no parameter lies behind a hole. It is exactly the condition
under which every call is decoded to the arguments it was made with.
-/

namespace AndroidRenderer.Emugen

open LittleEndian

/-- What the server should receive for one parameter. -/
def expectedVar (args : Args) (p : Param) : List Decoded :=
  if p.1.isVoid then []
  else if !p.1.isPointer then [.scalar (args p.2).value]
  else if p.1.nullAllowed && size args p == 0 then [.null]
  else if p.1.sendsData then [.data (args p.2).data]
  else [.room (size args p)]

def expectedArgs (args : Args) (ps : List Param) : List Decoded :=
  ps.flatMap (expectedVar args)

/-- No hole precedes a parameter: a large pointer starts right behind the stored
bytes of its fragment, and one of direction `out` has no room or is the last. -/
def Aligned (args : Args) : Nat → Nat → List Param → Prop
  | _, _, [] => True
  | a, w, p :: ps =>
      if p.1.isLarge then
        a % 2 ^ 32 = w ∧
          (p.1.sendsData = true ∨ size args p = 0 ∨ ∀ q ∈ ps, q.1.isVoid = true) ∧
          Aligned args 0 0 ps
      else Aligned args (a + allocSize args p) (w + (stored args p).length) ps

/-- The call of `e` with `args` reaches the server as it was made. -/
def RoundTrip (e : EntryPoint) (opcode : Nat) (args : Args) (junk rest : Mem) : Prop :=
  ∃ bytes, encode e opcode args junk = some bytes ∧
    ∀ server stale, ∃ s, dispatch e ⟨ofList bytes rest, server, stale⟩ = some s ∧
      s.called = some (expectedArgs args e.params)

/-! ## Decoding at numeric offsets -/

/-- The offset behind a parameter that lies at `off`. -/
def stepOffset (m : Mem) (p : Param) (off : Nat) : Nat :=
  if p.1.isVoid then off
  else if !p.1.isPointer then off + p.1.type.bytes
  else if p.1.sendsData then off + 4 + loadLE m off 4
  else off + 4

def decodeAt (m : Mem) (p : Param) (off : Nat) : List Decoded :=
  if p.1.isVoid then []
  else if !p.1.isPointer then [.scalar (loadLE m off p.1.type.bytes)]
  else if p.1.nullAllowed && loadLE m off 4 == 0 then [.null]
  else if p.1.sendsData then [.data (load m (off + 4) (loadLE m off 4))]
  else [.room (loadLE m off 4)]

def decodeFrom (m : Mem) : Nat → List Param → List Decoded
  | _, [] => []
  | off, p :: ps => decodeAt m p off ++ decodeFrom m (stepOffset m p off) ps

theorem eval_nextOffset (m : Mem) (p : Param) (off : OffExpr) :
    (nextOffset p off).eval m = stepOffset m p (off.eval m) := by
  unfold nextOffset stepOffset
  split
  · rfl
  · split
    · rfl
    · split <;> rfl

theorem flatMap_decodeVar (m : Mem) (off : OffExpr) (ps : List Param) :
    (varOffsets off ps).flatMap (decodeVar m) = decodeFrom m (off.eval m) ps := by
  induction ps generalizing off with
  | nil => rfl
  | cons p ps ih =>
      rw [varOffsets, List.flatMap_cons, ih, eval_nextOffset]
      rfl

theorem decodedArgs_eq (m : Mem) (ps : List Param) : decodedArgs m ps = decodeFrom m 8 ps :=
  flatMap_decodeVar m .header ps

theorem roundTrip_iff (e : EntryPoint) (opcode : Nat) (args : Args) (junk rest : Mem) :
    RoundTrip e opcode args junk rest ↔
      ∃ bytes, encode e opcode args junk = some bytes ∧
        decodeFrom (ofList bytes rest) 8 e.params = expectedArgs args e.params := by
  unfold RoundTrip
  constructor
  · rintro ⟨bytes, henc, hrun⟩
    refine ⟨bytes, henc, ?_⟩
    obtain ⟨s, hs, hcalled⟩ := hrun (fun _ => ⟨fun _ _ => 0, 0⟩) (fun _ => 0)
    obtain ⟨s', hs', hcalled', -⟩ := dispatch_eq e
      ⟨ofList bytes rest, fun _ => ⟨fun _ _ => 0, 0⟩, fun _ => 0⟩
    obtain rfl := Option.some.inj (hs.symm.trans hs')
    rw [← decodedArgs_eq]
    exact Option.some.inj (hcalled'.symm.trans hcalled)
  · rintro ⟨bytes, henc, hdec⟩
    refine ⟨bytes, henc, fun server stale => ?_⟩
    obtain ⟨s, hs, hcalled, -⟩ := dispatch_eq e ⟨ofList bytes rest, server, stale⟩
    exact ⟨s, hs, by rw [hcalled, decodedArgs_eq, hdec]⟩

/-! ## One parameter -/

variable {args : Args} {off : Nat} {ps : List Param}

theorem decodeAt_stored {m : Mem} {p : Param}
    (hc : (args p.2).Conforms p.1) (h : Holds m off (stored args p)) :
    decodeAt m p off = expectedVar args p ∧
      stepOffset m p off = off + (stored args p).length := by
  unfold decodeAt expectedVar stepOffset
  unfold stored at h ⊢
  cases hv : p.1.isVoid with
  | true => simp [Var.not_isPointer_of_isVoid hv, Var.bytes_of_isVoid hv]
  | false =>
      cases hp : p.1.isPointer with
      | false =>
          rw [hp] at h
          have hvalue : loadLE m off p.1.type.bytes = (args p.2).value := by
            revert hc h
            generalize args p.2 = arg
            intro hc h
            cases hc with
            | scalar _ hn => exact h.loadLE hn
            | buffer hp' => simp [hp] at hp'
            | room hp' => simp [hp] at hp'
          simp [hvalue]
      | true =>
          rw [hp, if_pos rfl, holds_append, leBytes_length] at h
          have hsize : loadLE m off 4 = size args p := h.1.loadLE (size_lt args p)
          cases hd : p.1.sendsData with
          | false => simp [hsize]
          | true =>
              obtain ⟨hsent, hlen⟩ := size_of_buffer hc hp hd
              rw [hd, if_pos rfl] at h
              have hdata := h.2.load_eq hlen
              simp only [Bool.not_true, Bool.false_eq_true, if_false, if_true, hsize,
                hdata, List.length_append, leBytes_length, hlen, Nat.add_assoc, and_true]
              split
              · rfl
              · rename_i hnull
                rw [hsent]
                split
                · rename_i hn
                  -- an allowed NULL has size 0
                  grind
                · rfl

/-- A large pointer that leaves no hole is sent with the bytes that would be stored. -/
theorem sentLarge_eq_stored {junk : Mem} {pos : Nat} {p : Param}
    (hl : p.1.isLarge = true) (h : p.1.sendsData = true ∨ size args p = 0) :
    sentLarge args junk pos p = stored args p := by
  rw [sentLarge, stored, if_pos (Var.isLarge_isPointer hl)]
  congr 1
  cases hd : p.1.sendsData with
  | true => rfl
  | false =>
      have hz : size args p = 0 := by simpa [hd] using h
      simp [hz]

theorem decodeFrom_of_void (args : Args)
    (h : ∀ q ∈ ps, q.1.isVoid = true) (m : Mem) (off : Nat) :
    decodeFrom m off ps = [] ∧ expectedArgs args ps = [] := by
  induction ps generalizing off with
  | nil => exact ⟨rfl, rfl⟩
  | cons p ps ih =>
      have hp := h p (by simp)
      obtain ⟨hdec, hexp⟩ := ih (fun q hq => h q (by simp [hq])) (stepOffset m p off)
      refine ⟨?_, ?_⟩
      · rw [decodeFrom, hdec, decodeAt, if_pos hp, List.append_nil]
      · rw [expectedArgs, List.flatMap_cons, ← expectedArgs, hexp, expectedVar, if_pos hp,
          List.append_nil]

theorem aligned_of_void (h : ∀ q ∈ ps, q.1.isVoid = true) (a w : Nat) : Aligned args a w ps := by
  induction ps generalizing a w with
  | nil => trivial
  | cons p ps ih =>
      have hl : p.1.isLarge = false := by
        by_contra hl
        simp only [Bool.not_eq_false] at hl
        simp [Var.not_isVoid_of_isPointer (Var.isLarge_isPointer hl)] at h
      grind [Aligned]

/-! ## Aligned packets are decoded -/

theorem decodeFrom_layout {junk m : Mem} {rest : List Param}
    (hc : args.Conform ps) {pos a w : Nat} (ha : Aligned args a w ps)
    (h : Holds m off (layout args junk pos a w (ps ++ rest))) :
    decodeFrom m off ps = expectedArgs args ps := by
  induction ps generalizing off pos a w with
  | nil => rfl
  | cons p ps ih =>
      have hcp := hc p (by simp)
      have hcps : args.Conform ps := fun q hq => hc q (by simp [hq])
      rw [expectedArgs, List.flatMap_cons, ← expectedArgs, decodeFrom]
      rw [List.cons_append] at h
      cases hl : p.1.isLarge with
      | false => grind [Aligned, layout, decodeAt_stored]
      | true =>
          rw [Aligned, if_pos hl] at ha
          obtain ⟨hgap, hbody, hrest⟩ := ha
          rw [layout, if_pos hl] at h
          simp only [gap, hgap, Nat.sub_self, load_zero, Nat.add_zero, List.nil_append] at h
          by_cases hhole : p.1.sendsData = true ∨ size args p = 0
          · rw [sentLarge_eq_stored hl hhole, holds_append] at h
            obtain ⟨hdec, hstep⟩ := decodeAt_stored hcp h.1
            rw [hdec, hstep, ih hcps hrest h.2]
          · -- the room behind the length is not read: only void parameters follow
            simp only [not_or, Bool.not_eq_true] at hhole
            have hvoid : ∀ q ∈ ps, q.1.isVoid = true := by grind
            have hstored : Holds m off (stored args p) := by
              grind [sentLarge, stored]
            grind [decodeAt_stored, decodeFrom_of_void]

/-! ## Decoded packets are aligned -/

/-- The decoder can only get a pointer right by reading its length. -/
theorem length_of_decodeAt {m : Mem} {p : Param}
    (hc : (args p.2).Conforms p.1) (hv : p.1.isVoid = false) (hp : p.1.isPointer = true)
    (h : decodeAt m p off = expectedVar args p) : loadLE m off 4 = size args p := by
  simp only [decodeAt, expectedVar, hv, hp, Bool.false_eq_true, if_false, Bool.not_true] at h
  by_cases hload : (p.1.nullAllowed && loadLE m off 4 == 0) = true
  · grind
  · by_cases hsize : (p.1.nullAllowed && size args p == 0) = true
    · grind
    · rw [if_neg hload, if_neg hsize] at h
      cases hd : p.1.sendsData with
      | false => simpa [hd] using h
      | true =>
          obtain ⟨hsent, hlen⟩ := size_of_buffer hc hp hd
          have hdata : (args p.2).data.length = size args p := by grind
          simp only [hd, if_true, List.cons.injEq, Decoded.data.injEq, and_true] at h
          rw [← hdata, ← h, load_length]

/-- The decoder reads as many values for a parameter as it should, right or wrong. -/
theorem decodeAt_length (args : Args) (m : Mem) (p : Param) (off : Nat) :
    (decodeAt m p off).length = (expectedVar args p).length := by
  unfold decodeAt expectedVar
  grind

theorem decodeFrom_cons {m : Mem} {p : Param}
    (h : decodeFrom m off (p :: ps) = expectedArgs args (p :: ps)) :
    decodeAt m p off = expectedVar args p ∧
      decodeFrom m (stepOffset m p off) ps = expectedArgs args ps := by
  rw [expectedArgs, List.flatMap_cons, ← expectedArgs, decodeFrom] at h
  exact List.append_inj h (decodeAt_length args m p off)

def firstByte (args : Args) : List Param → UInt8
  | [] => 0
  | p :: ps =>
      if p.1.isVoid then firstByte args ps
      else if p.1.isPointer then UInt8.ofNat (size args p)
      else UInt8.ofNat (args p.2).value

/-- Whatever the decoder got right, it read from its offset on. -/
theorem firstByte_of_decode {m : Mem} (hc : args.Conform ps) (hsome : ∃ q ∈ ps, q.1.isVoid = false)
    (h : decodeFrom m off ps = expectedArgs args ps) : m off = firstByte args ps := by
  induction ps generalizing off with
  | nil => simp at hsome
  | cons p ps ih =>
      have hcp := hc p (by simp)
      have hcps : args.Conform ps := fun q hq => hc q (by simp [hq])
      obtain ⟨hhead, htail⟩ := decodeFrom_cons h
      rw [firstByte]
      cases hv : p.1.isVoid with
      | true =>
          have hps : ∃ q ∈ ps, q.1.isVoid = false := by grind
          grind [stepOffset]
      | false =>
          have hbyte : ∀ {n k : Nat}, loadLE m off (k + 1) = n → m off = UInt8.ofNat n := by
            intro n k hn
            have := loadLE_mod m off k
            rw [hn] at this
            rw [← UInt8.toNat_inj, UInt8.toNat_ofNat', ← this]
          simp only [Bool.false_eq_true, if_false]
          cases hp : p.1.isPointer with
          | false =>
              simp only [decodeAt, expectedVar, hv, hp, Bool.false_eq_true, if_false,
                Bool.not_false, if_true, List.cons.injEq, Decoded.scalar.injEq, and_true]
                at hhead
              obtain ⟨k, hk⟩ : ∃ k, p.1.type.bytes = k + 1 :=
                Nat.exists_eq_succ_of_ne_zero (Nat.pos_iff_ne_zero.mp
                  (Var.bytes_pos_of_not_isVoid hv hp))
              grind
          | true =>
              simp only [if_true]
              exact hbyte (k := 3) (length_of_decodeAt hcp hv hp hhead)

/-- A parameter behind an undetermined byte is not decoded for every such byte. -/
theorem not_decodes_of_hole (hc : args.Conform ps)
    (hsome : ∃ q ∈ ps, q.1.isVoid = false) {m : UInt8 → Mem}
    (hhole : ∀ c, m c off = c) :
    ¬ ∀ c, decodeFrom (m c) off ps = expectedArgs args ps := by
  intro h
  have hbyte := firstByte_of_decode hc hsome (h (firstByte args ps + 1))
  grind

theorem holds_behind (pre bs : List UInt8) (rest : Mem) :
    Holds (ofList (pre ++ bs) rest) pre.length bs := by
  simpa using (holds_append.mp (holds_ofList (pre ++ bs) rest)).2

private theorem hole_byte {pre bs : List UInt8} {rest : Mem} {c : UInt8} {pos n : Nat}
    (hn : n ≠ 0) : ofList (pre ++ (load (fun _ => c) pos n ++ bs)) rest pre.length = c := by
  obtain ⟨k, rfl⟩ := Nat.exists_eq_succ_of_ne_zero hn
  have h := (holds_append.mp (holds_behind pre (load (fun _ => c) pos (k + 1) ++ bs) rest)).1
  generalize ofList (pre ++ (load (fun _ => c) pos (k + 1) ++ bs)) rest = m at h ⊢
  rw [load_succ, holds_cons] at h
  exact h.1

/-- If the parameters are decoded whatever the undetermined bytes are, no hole
precedes any of them. -/
theorem aligned_of_decodes (hc : args.Conform ps)
    {a w : Nat} (hfits : Fits args a w ps) (pre : List UInt8) (pos : Nat)
    (h : ∀ junk rest, decodeFrom (ofList (pre ++ layout args junk pos a w ps) rest)
      pre.length ps = expectedArgs args ps) : Aligned args a w ps := by
  induction ps generalizing a w pre pos with
  | nil => trivial
  | cons p ps ih =>
      have hcp := hc p (by simp)
      have hcps : args.Conform ps := fun q hq => hc q (by simp [hq])
      -- once `p` is decoded from its stored bytes, so are the parameters behind it
      have htail : ∀ (tail : Mem → List UInt8),
          (∀ junk rest, decodeFrom (ofList (pre ++ (stored args p ++ tail junk)) rest)
            pre.length (p :: ps) = expectedArgs args (p :: ps)) →
          ∀ junk rest, decodeFrom (ofList (pre ++ stored args p ++ tail junk) rest)
            (pre ++ stored args p).length ps = expectedArgs args ps := by
        intro tail hall junk rest
        have hm := holds_behind pre (stored args p ++ tail junk) rest
        obtain ⟨hdec, hstep⟩ := decodeAt_stored hcp (holds_append.mp hm).1
        have := hall junk rest
        rw [expectedArgs, List.flatMap_cons, ← expectedArgs, decodeFrom, hdec, hstep,
          List.append_cancel_left_eq] at this
        grind
      cases hl : p.1.isLarge with
      | false =>
          rw [Fits, if_neg (by simp [hl])] at hfits
          rw [Aligned, if_neg (by simp [hl])]
          refine ih hcps hfits (pre ++ stored args p) (pos + (stored args p).length) ?_
          refine htail (fun junk => layout args junk (pos + (stored args p).length) _ _ ps) ?_
          intro junk rest
          have := h junk rest
          rwa [layout, if_neg (by simp [hl])] at this
      | true =>
          rw [Fits, if_pos hl] at hfits
          rw [Aligned, if_pos hl]
          have hvoid : p.1.isVoid = false :=
            Var.not_isVoid_of_isPointer (Var.isLarge_isPointer hl)
          have hgap : gap a w = 0 := by
            by_contra hne
            refine not_decodes_of_hole (m := fun c =>
              ofList (pre ++ layout args (fun _ => c) pos a w (p :: ps)) fun _ => 0) hc
              ⟨p, by simp, hvoid⟩ (fun c => ?_) (fun c => h _ _)
            rw [layout, if_pos hl, List.append_assoc]
            exact hole_byte hne
          have haligned : a % 2 ^ 32 = w := by grind [gap]
          refine ⟨haligned, ?_⟩
          simp only [layout, if_pos hl, hgap, load_zero, List.nil_append, Nat.add_zero] at h
          by_cases hhole : p.1.sendsData = true ∨ size args p = 0
          · refine ⟨hhole.imp id Or.inl, ?_⟩
            refine ih hcps hfits.2 (pre ++ stored args p) (pos + (stored args p).length) ?_
            refine htail (fun junk => layout args junk (pos + (stored args p).length) 0 0 ps) ?_
            intro junk rest
            have := h junk rest
            rwa [sentLarge_eq_stored hl hhole] at this
          · by_cases hall : ∀ q ∈ ps, q.1.isVoid = true
            · exact ⟨Or.inr (Or.inr hall), aligned_of_void hall 0 0⟩
            · exfalso
              -- the room of `p` is a hole in front of the parameters behind it
              simp only [not_or, Bool.not_eq_true] at hhole
              have hnull : (p.1.nullAllowed && (args p.2).isNull) = false := by
                by_contra hn
                simp only [Bool.not_eq_false, Bool.and_eq_true] at hn
                simp [size, hn.1, hn.2] at hhole
              have hbody : ∀ junk, sentLarge args junk pos p =
                  stored args p ++ load junk (pos + 4) (size args p) := by
                intro junk
                simp [sentLarge, stored, Var.isLarge_isPointer hl, hhole.1, hnull]
              simp only [not_forall, Bool.not_eq_true, exists_prop] at hall
              refine not_decodes_of_hole (m := fun c => ofList (pre ++ stored args p ++
                (load (fun _ => c) (pos + 4) (size args p) ++
                  layout args (fun _ => c) (pos + (sentLarge args (fun _ => c) pos p).length)
                    0 0 ps)) fun _ => 0) hcps hall (fun c => hole_byte hhole.2) (fun c => ?_)
              refine htail (fun junk => load junk (pos + 4) (size args p) ++
                layout args junk (pos + (sentLarge args junk pos p).length) 0 0 ps) ?_ _ _
              grind

/-! ## The round trip -/

/-- A call reaches the server unchanged, whatever the undetermined bytes of its
packet and the bytes behind it are, exactly when every fragment holds what is
stored into it and no hole precedes a parameter. -/
theorem roundTrip_iff_aligned (e : EntryPoint) (opcode : Nat) (args : Args)
    (hc : args.Conform e.params) :
    (∀ junk rest, RoundTrip e opcode args junk rest) ↔
      Fits args 8 8 e.params ∧ Aligned args 8 8 e.params := by
  simp only [roundTrip_iff, encode_eq]
  by_cases hfits : Fits args 8 8 e.params
  · rw [and_iff_right hfits]
    simp only [if_pos hfits, Option.some.injEq, exists_eq_left']
    generalize hh : header opcode (evalSize args (packetSizeExpr e.params)) = front
    have hlen : front.length = 8 := by rw [← hh, header_length]
    constructor
    · intro h
      refine aligned_of_decodes hc hfits front 8 fun junk rest => ?_
      rw [hlen]
      exact h junk rest
    · intro ha junk rest
      have hm : Holds (ofList (front ++ layout args junk 8 8 8 e.params) rest) 8
          (layout args junk 8 8 8 (e.params ++ [])) := by
        simpa [hlen] using holds_behind front (layout args junk 8 8 8 e.params) rest
      exact decodeFrom_layout hc ha hm
  · simp only [if_neg hfits, reduceCtorEq, false_and, exists_false]
    exact ⟨fun h => (h (fun _ => 0) (fun _ => 0)).elim, fun h => absurd h.1 hfits⟩

/-- The types of the calls that serve as examples. -/
def ptrType : VarType := ⟨"void*", .var32, true, by decide⟩

def intType : VarType := ⟨"int", .var32, false, by decide⟩

def voidType : VarType := ⟨"void", .var0, false, by decide⟩

/-- `void f(int n, void *data)` with `data` large and nullable, as `glBufferData`. -/
def bufferDataLike : EntryPoint :=
  ⟨"f", voidType, [⟨intType, .pointerIn, false, false, by decide⟩,
    ⟨ptrType, .pointerIn, true, true, by decide⟩], by decide⟩

def bufferDataArgs : Args
  | 0 => .scalar 3
  | _ => .buffer false [7, 8, 9]

theorem bufferDataArgs_conform : bufferDataArgs.Conform bufferDataLike.params := by
  intro p hp
  simp only [EntryPoint.params, bufferDataLike, List.zipIdx_cons, List.zipIdx_nil,
    List.mem_cons, List.not_mem_nil, or_false] at hp
  rcases hp with rfl | rfl
  · exact .scalar rfl (by decide)
  · exact .buffer rfl rfl (by decide) (by decide)

theorem roundTrip_iff_aligned_bufferData :
    (∀ junk rest, RoundTrip bufferDataLike 5 bufferDataArgs junk rest) ↔
      Fits bufferDataArgs 8 8 bufferDataLike.params ∧
        Aligned bufferDataArgs 8 8 bufferDataLike.params :=
  roundTrip_iff_aligned bufferDataLike 5 bufferDataArgs bufferDataArgs_conform

/-- `void f(void *a, void *b)` with `a` an `out` pointer and `b` a large one. -/
private def outThenLarge : EntryPoint :=
  ⟨"f", voidType, [⟨ptrType, .pointerOut, false, false, by decide⟩,
    ⟨ptrType, .pointerIn, false, true, by decide⟩], by decide⟩

private def outThenLargeArgs : Args
  | 0 => .room false 4
  | _ => .buffer false [1, 2, 3, 4]

/-- The length of `b` is read from the four bytes reserved for the room of `a`. -/
theorem outThenLarge_not_roundTrip :
    ¬ ∀ (e : EntryPoint) (opcode : Nat) (args : Args) (junk rest : Mem),
      args.Conform e.params → RoundTrip e opcode args junk rest := by
  intro h
  have hconform : outThenLargeArgs.Conform outThenLarge.params := by
    intro p hp
    simp only [EntryPoint.params, outThenLarge, List.zipIdx_cons, List.zipIdx_nil,
      List.mem_cons, List.not_mem_nil, or_false] at hp
    rcases hp with rfl | rfl
    · exact .room rfl rfl (by decide) (by decide)
    · exact .buffer rfl rfl (by decide) (by decide)
  obtain ⟨bytes, henc, hdec⟩ := (roundTrip_iff _ _ _ _ _).mp
    (h outThenLarge 0 outThenLargeArgs (fun _ => 0) (fun _ => 0) hconform)
  have hbytes : encode outThenLarge 0 outThenLargeArgs (fun _ => 0) =
      some [0, 0, 0, 0, 24, 0, 0, 0, 4, 0, 0, 0, 0, 0, 0, 0, 4, 0, 0, 0, 1, 2, 3, 4] := by
    decide
  obtain rfl := Option.some.inj (henc.symm.trans hbytes)
  revert hdec
  decide

end AndroidRenderer.Emugen
