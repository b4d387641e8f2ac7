import AndroidRenderer.Emugen.DecodeLoop

/-!
# Progress of the loop around the dispatch

A turn of the loop of `decode` dispatches one packet and moves the cursor by its length field.
That field comes from the stream: if it is 0, the loop dispatches the same packet for ever, and
if it is 2^31 or more, the cursor moves backwards. In all other buffers every turn moves the
cursor towards the end.
-/

namespace AndroidRenderer.Emugen

open LittleEndian

/-- What one turn of the loop does: it ends the loop, reads a header outside the allocation, or
dispatches a packet and moves the cursor. -/
inductive Turn
  | returns
  | fault
  | dispatches (ptr : Int) (pos : Nat) (call : List UInt8)
  deriving DecidableEq, Repr

/-- The body of the `while` loop. -/
def decodeTurn (known : Nat → Bool) (mem : List UInt8) (len : Nat) (ptr : Int) (pos : Nat) :
    Turn :=
  if sizeSub len pos < 8 then .returns
  else if ptr < 0 ∨ (mem.length : Int) < ptr + 8 then .fault
  else
    let packet := mem.drop ptr.toNat
    let packetLen := packetLenOf packet
    if sizeSub len pos < packetLen then .returns
    else if known (opcodeOf packet) then
      .dispatches (ptr + toInt32 packetLen) (advance pos packetLen) (packet.take packetLen)
    else .returns

/-- The cursor and the position at the beginning of the turns of `decode`. -/
inductive Cursor (known : Nat → Bool) (mem : List UInt8) (buf len : Nat) : Int → Nat → Prop
  | start : 8 ≤ len → Cursor known mem buf len buf 0
  | turn {ptr ptr' : Int} {pos pos' : Nat} {call : List UInt8} : Cursor known mem buf len ptr pos →
      decodeTurn known mem len ptr pos = .dispatches ptr' pos' call →
      Cursor known mem buf len ptr' pos'

/-- `decode` ends, as long as it has the time, behind the packets that it has dispatched, where no
other follows, and every turn moves the position towards the end. -/
structure Progresses (known : Nat → Bool) (mem : List UInt8) (buf len : Nat) : Prop where
  returns : ∃ n pos calls, (∀ fuel, n ≤ fuel → decode known mem buf len fuel = some (pos, calls)) ∧
    pos ≤ len ∧ calls.flatten = (mem.drop buf).take pos ∧
      Stuck known ((mem.drop (buf + pos)).take (len - pos))
  advances : ∀ ptr pos ptr' pos' call, Cursor known mem buf len ptr pos →
    decodeTurn known mem len ptr pos = .dispatches ptr' pos' call → pos < pos' ∧ pos' ≤ len

/-- Complete packets of this decoder with lengths that are positive `int`s, up to where none
follows. -/
inductive Advancing (known : Nat → Bool) : List UInt8 → Prop
  | stuck {bs : List UInt8} : Stuck known bs → Advancing known bs
  | packet {bs : List UInt8} : ¬Stuck known bs → 0 < packetLenOf bs → packetLenOf bs < 2 ^ 31 →
      Advancing known (bs.drop (packetLenOf bs)) → Advancing known bs

section Turns

variable {known : Nat → Bool} {mem : List UInt8} {buf len pos : Nat}

/-- The loop takes one turn after another. -/
theorem decodeLoop_succ (fuel : Nat) (ptr : Int) (calls : List (List UInt8)) :
    (decodeTurn known mem len ptr pos = .returns →
      decodeLoop known mem len (fuel + 1) ptr pos calls = some (pos, calls)) ∧
    ∀ ptr' pos' call, decodeTurn known mem len ptr pos = .dispatches ptr' pos' call →
      decodeLoop known mem len (fuel + 1) ptr pos calls =
        decodeLoop known mem len fuel ptr' pos' (calls ++ [call]) := by
  rw [decodeLoop, decodeTurn]
  by_cases hshort : sizeSub len pos < 8
  · rw [if_pos hshort, if_pos hshort]
    exact ⟨fun _ => rfl, fun _ _ _ h => Turn.noConfusion h⟩
  · rw [if_neg hshort, if_neg hshort]
    by_cases hbounds : ptr < 0 ∨ (mem.length : Int) < ptr + 8
    · rw [if_pos hbounds, if_pos hbounds]
      exact ⟨fun h => Turn.noConfusion h, fun _ _ _ h => Turn.noConfusion h⟩
    · rw [if_neg hbounds, if_neg hbounds]
      dsimp only
      by_cases hincomplete : sizeSub len pos < packetLenOf (mem.drop ptr.toNat)
      · rw [if_pos hincomplete, if_pos hincomplete]
        exact ⟨fun _ => rfl, fun _ _ _ h => Turn.noConfusion h⟩
      · rw [if_neg hincomplete, if_neg hincomplete]
        by_cases hknown : known (opcodeOf (mem.drop ptr.toNat)) = true
        · rw [if_pos hknown, if_pos hknown]
          refine ⟨fun h => Turn.noConfusion h, fun ptr' pos' call h => ?_⟩
          obtain ⟨rfl, rfl, rfl⟩ := Turn.dispatches.inj h
          rfl
        · rw [if_neg hknown, if_neg hknown]
          exact ⟨fun _ => rfl, fun _ _ _ h => Turn.noConfusion h⟩

theorem packetLenOf_lt (bs : List UInt8) : packetLenOf bs < 2 ^ 32 := by
  have hlt := ofLE_lt ((bs.drop 4).take 4)
  have hle : ((bs.drop 4).take 4).length ≤ 4 := List.length_take_le 4 _
  exact Nat.lt_of_lt_of_le hlt (Nat.pow_le_pow_right (by decide) hle)

/-- A turn that is stuck ends the loop, and another one dispatches the packet in front. -/
theorem decodeTurn_eq (known : Nat → Bool) (hlen : buf + len ≤ mem.length)
    (hmem : mem.length < 2 ^ 63)
    (hpos : pos ≤ len) {bs : List UInt8} (hbs : (mem.drop (buf + pos)).take (len - pos) = bs) :
    (Stuck known bs → decodeTurn known mem len (buf + pos : Nat) pos = .returns) ∧
      (¬Stuck known bs → decodeTurn known mem len (buf + pos : Nat) pos =
        .dispatches ((buf + pos : Nat) + toInt32 (packetLenOf bs)) (advance pos (packetLenOf bs))
          (bs.take (packetLenOf bs))) := by
  have hlength : bs.length = len - pos := by
    rw [← hbs, List.length_take, List.length_drop]
    omega
  have hsub : sizeSub len pos = len - pos := sizeSub_eq hpos (by omega)
  unfold decodeTurn
  rw [hsub, Int.toNat_natCast]
  by_cases hshort : len - pos < 8
  · rw [if_pos hshort]
    exact ⟨fun _ => rfl, fun hstuck => absurd (.inl (by omega)) hstuck⟩
  · obtain ⟨hheader, hopcode⟩ := header_of_take (mem.drop (buf + pos)) (n := len - pos) (by omega)
    grind [Stuck]

theorem moved_eq (buf pos : Nat) {packetLen : Nat} (hlt : packetLen < 2 ^ 31)
    (hpos : pos + packetLen < 2 ^ 64) :
    ((buf + pos : Nat) : Int) + toInt32 packetLen = (buf + (pos + packetLen) : Nat) ∧
      advance pos packetLen = pos + packetLen := by
  refine ⟨?_, advance_eq hlt hpos⟩
  rw [toInt32_of_lt hlt]
  omega

/-- The position moves forward, and not behind the end, only by positive `int`s. -/
theorem advance_bounds {packetLen : Nat} (hlt : packetLen < 2 ^ 32) (hlen : len < 2 ^ 63)
    (hforward : pos < advance pos packetLen) (hend : advance pos packetLen ≤ len) :
    0 < packetLen ∧ packetLen < 2 ^ 31 := by
  unfold advance toInt32 at hforward hend
  omega

theorem drop_remaining (mem : List UInt8) (buf len pos n : Nat) :
    (mem.drop (buf + (pos + n))).take (len - (pos + n)) =
      ((mem.drop (buf + pos)).take (len - pos)).drop n := by
  rw [List.drop_take, List.drop_drop, Nat.add_assoc, Nat.sub_sub]

/-- A packet at which the loop is not stuck is complete. -/
theorem packetLen_le {bs : List UInt8} (hbs : (mem.drop (buf + pos)).take (len - pos) = bs)
    (hlen : buf + len ≤ mem.length) (hstuck : ¬Stuck known bs) : packetLenOf bs ≤ len - pos := by
  have hlength : bs.length = len - pos := by grind
  by_contra hshort
  exact hstuck (.inr (.inl (by omega)))

/-- Induction over the packets in front of the cursor. -/
theorem Advancing.decodeLoop {bs : List UInt8} (h : Advancing known bs) (pos : Nat)
    (hlen : buf + len ≤ mem.length) (hmem : mem.length < 2 ^ 63) (hpos : pos ≤ len)
    (hbs : (mem.drop (buf + pos)).take (len - pos) = bs) :
    ∃ n pos' new, (∀ fuel calls, n ≤ fuel →
        Emugen.decodeLoop known mem len fuel (buf + pos : Nat) pos calls =
          some (pos', calls ++ new)) ∧
      pos ≤ pos' ∧ pos' ≤ len ∧ new.flatten = (mem.drop (buf + pos)).take (pos' - pos) ∧
      Stuck known ((mem.drop (buf + pos')).take (len - pos')) := by
  induction h generalizing pos with
  | stuck hstuck =>
      subst hbs
      refine ⟨1, pos, [], ?_, Nat.le_refl _, hpos, ?_, hstuck⟩
      · intro fuel calls hfuel
        obtain ⟨fuel, rfl⟩ := Nat.exists_eq_add_of_le' hfuel
        rw [(decodeLoop_succ fuel _ calls).1 ((decodeTurn_eq known hlen hmem hpos rfl).1 hstuck),
          List.append_nil]
      · rw [Nat.sub_self, List.take_zero, List.flatten_nil]
  | @packet bs hstuck hpositive hlt hrest ih =>
      have hcomplete := packetLen_le hbs hlen hstuck
      obtain ⟨hptr, hadvance⟩ := moved_eq buf pos hlt (by omega)
      have hturn := (decodeTurn_eq known hlen hmem hpos hbs).2 hstuck
      rw [hptr, hadvance] at hturn
      have hnext := drop_remaining mem buf len pos (packetLenOf bs)
      rw [hbs] at hnext
      obtain ⟨n, pos', new, hloop, hle, hend, hflatten, hstuck'⟩ :=
        ih (pos + packetLenOf bs) (by omega) hnext
      refine ⟨n + 1, pos', bs.take (packetLenOf bs) :: new, ?_, by omega, hend, ?_, hstuck'⟩
      · intro fuel calls hfuel
        obtain ⟨fuel, rfl⟩ := Nat.exists_eq_add_of_le' (Nat.le_trans (Nat.le_add_left 1 n) hfuel)
        grind [decodeLoop_succ]
      · have hsplit : pos' - pos = packetLenOf bs + (pos' - (pos + packetLenOf bs)) := by omega
        rw [List.flatten_cons, hflatten, hsplit, List.take_add, List.drop_drop, ← hbs,
          List.take_take, hbs, Nat.min_eq_left hcomplete, Nat.add_assoc]

/-- A turn at such packets moves forward to the next one. -/
theorem Advancing.turn (h : Advancing known ((mem.drop (buf + pos)).take (len - pos)))
    (hlen : buf + len ≤ mem.length) (hmem : mem.length < 2 ^ 63) (hpos : pos ≤ len) {ptr' : Int}
    {pos' : Nat} {call : List UInt8}
    (hturn : decodeTurn known mem len (buf + pos : Nat) pos = .dispatches ptr' pos' call) :
    ptr' = (buf + pos' : Nat) ∧ pos < pos' ∧ pos' ≤ len ∧
      Advancing known ((mem.drop (buf + pos')).take (len - pos')) := by
  generalize hbs : (mem.drop (buf + pos)).take (len - pos) = bs at h
  cases h with
  | stuck hstuck => grind [decodeTurn_eq]
  | packet hstuck hpositive hlt hrest =>
      have hcomplete := packetLen_le hbs hlen hstuck
      obtain ⟨hptr, hadvance⟩ := moved_eq buf pos hlt (by omega)
      rw [(decodeTurn_eq known hlen hmem hpos hbs).2 hstuck, hptr, hadvance] at hturn
      obtain ⟨rfl, rfl, rfl⟩ := Turn.dispatches.inj hturn
      grind [drop_remaining]

/-- The turns of `decode` begin at packets with positive lengths. -/
theorem Advancing.cursor (h : Advancing known ((mem.drop buf).take len))
    (hlen : buf + len ≤ mem.length) (hmem : mem.length < 2 ^ 63) {ptr : Int}
    (hcursor : Cursor known mem buf len ptr pos) :
    ptr = (buf + pos : Nat) ∧ pos ≤ len ∧
      Advancing known ((mem.drop (buf + pos)).take (len - pos)) := by
  induction hcursor with
  | start => exact ⟨rfl, Nat.zero_le len, h⟩
  | turn _ hturn ih =>
      obtain ⟨rfl, hpos, hadvancing⟩ := ih
      grind [hadvancing.turn]

/-- If every turn moves the position forward, the packets have positive lengths. Induction over
the bytes that remain. -/
theorem advancing_of_advances (pos : Nat) (hlen : buf + len ≤ mem.length)
    (hmem : mem.length < 2 ^ 63)
    (hadvances : ∀ ptr pos ptr' pos' call, Cursor known mem buf len ptr pos →
      decodeTurn known mem len ptr pos = .dispatches ptr' pos' call → pos < pos' ∧ pos' ≤ len)
    (remaining : Nat) (hremaining : len - pos = remaining) (hpos : pos ≤ len)
    (hcursor : Cursor known mem buf len (buf + pos : Nat) pos) :
    Advancing known ((mem.drop (buf + pos)).take (len - pos)) := by
  induction remaining using Nat.strong_induction_on generalizing pos with
  | _ remaining ih =>
      generalize hbs : (mem.drop (buf + pos)).take (len - pos) = bs
      by_cases hstuck : Stuck known bs
      · exact .stuck hstuck
      · have hturn := (decodeTurn_eq known hlen hmem hpos hbs).2 hstuck
        obtain ⟨hforward, hend⟩ := hadvances _ _ _ _ _ hcursor hturn
        obtain ⟨hpositive, hlt⟩ :=
          advance_bounds (packetLenOf_lt bs) (by omega) hforward hend
        obtain ⟨hptr, hadvance⟩ := moved_eq buf pos hlt (by omega)
        have hnext := hcursor.turn hturn
        rw [hptr, hadvance] at hnext
        rw [hadvance] at hend
        have hrest := ih (len - (pos + packetLenOf bs)) (by omega) _ rfl hend hnext
        rw [drop_remaining, hbs] at hrest
        exact .packet hstuck hpositive hlt hrest

/-- `decode` ends, and moves forward on every packet, exactly if the packets that it dispatches
have lengths that are positive `int`s. -/
theorem progresses_iff_advancing (known : Nat → Bool) (mem : List UInt8) (buf len : Nat)
    (hlen : buf + len ≤ mem.length) (hmem : mem.length < 2 ^ 63) :
    Progresses known mem buf len ↔ Advancing known ((mem.drop buf).take len) := by
  constructor
  · intro h
    by_cases hshort : len < 8
    · refine .stuck (.inl ?_)
      rw [List.length_take]
      omega
    · exact advancing_of_advances 0 hlen hmem h.advances len rfl (Nat.zero_le len)
        (.start (by omega))
  · intro h
    constructor
    · by_cases hshort : len < 8
      · refine ⟨0, 0, [], fun fuel _ => if_pos hshort, Nat.zero_le len, rfl, .inl ?_⟩
        rw [List.length_take]
        omega
      · obtain ⟨n, pos, calls, hloop, -, hend, hflatten, hstuck⟩ :=
          h.decodeLoop 0 hlen hmem (Nat.zero_le len) rfl
        refine ⟨n, pos, calls, ?_, hend, hflatten, hstuck⟩
        intro fuel hfuel
        rw [decode, if_neg hshort]
        exact hloop fuel [] hfuel
    · intro ptr pos ptr' pos' call hcursor hturn
      obtain ⟨rfl, hpos, hadvancing⟩ := h.cursor hlen hmem hcursor
      obtain ⟨-, hforward, hend, -⟩ := hadvancing.turn hlen hmem hpos hturn
      exact ⟨hforward, hend⟩

/-- A packet of 9 bytes and one of 8, and 2 more bytes. -/
theorem progresses_iff_advancing_packets :
    Progresses (fun opcode => opcode = 1)
      [1, 0, 0, 0, 9, 0, 0, 0, 7, 1, 0, 0, 0, 8, 0, 0, 0, 1, 0] 0 19 :=
  (progresses_iff_advancing _ _ 0 19 (by decide) (by decide)).mpr
    (.packet (by unfold Stuck; decide) (by decide) (by decide)
      (.packet (by unfold Stuck; decide) (by decide) (by decide) (.stuck (.inl (by decide)))))

/-- A turn that comes back to its cursor does so for ever. -/
theorem decodeLoop_stays {ptr : Int} {call : List UInt8}
    (hturn : decodeTurn known mem len ptr pos = .dispatches ptr pos call) (fuel : Nat)
    (calls : List (List UInt8)) : Emugen.decodeLoop known mem len fuel ptr pos calls = none := by
  induction fuel generalizing calls with
  | zero => rfl
  | succ fuel ih => rw [(decodeLoop_succ fuel ptr calls).2 _ _ _ hturn, ih]

/-- A packet whose length field is 0 is dispatched for ever. -/
theorem zeroLength_not_progresses :
    ¬Progresses (fun _ => true) (List.replicate 8 0) 0 8 ∧
      ∀ fuel, decode (fun _ => true) (List.replicate 8 0) 0 8 fuel = none := by
  have hturn : decodeTurn (fun _ => true) (List.replicate 8 0) 8 0 0 = .dispatches 0 0 [] := by
    decide +kernel
  refine ⟨fun h => ?_, fun fuel => decodeLoop_stays hturn fuel []⟩
  have hforward := (h.advances 0 0 0 0 [] (.start (by decide)) hturn).1
  exact Nat.lt_irrefl 0 hforward

end Turns

end AndroidRenderer.Emugen
