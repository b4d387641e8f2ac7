import AndroidRenderer.Lib.NodeList
import AndroidRenderer.Lib.Series
import AndroidRenderer.Qtools.BBReader

/-!
# Expansion of basic block traces

A record of a trace stands for a series of executions. The reader holds the series that are under
way in the nodes of its list, in the order of their next executions, and every call of `ReadBB`
gives the next event of the series.
-/

namespace AndroidRenderer.Qtools

open NodeList Series

def TimeRec.series {w : Nat} (bb : TimeRec w) : Series (BitVec 64) :=
  ⟨bb.bb_rec.bb_num, bb.next_time.toNat, bb.bb_rec.repeats.toNat, bb.bb_rec.time_diff.toNat⟩

namespace BBReader

variable {N w : Nat} {τ : Type} {r : BBReader N w τ} {future : Fin N}
  {used unused held : List (Fin N)}

/-! ## Nodes -/

def nextOf (r : BBReader N w τ) (n : Fin N) : Option (Fin N) := (r.futures_ n).next

def seriesOf (r : BBReader N w τ) (n : Fin N) : Series (BitVec 64) := (r.futures_ n).bb.series

@[simp] theorem setNext_nextOf (r : BBReader N w τ) (future : Fin N) (next : Option (Fin N)) :
    (r.setNext future next).nextOf = Function.update r.nextOf future next := by
  funext n
  show (Function.update r.futures_ future _ n).next = _
  grind [nextOf]

@[simp] theorem setNext_seriesOf (r : BBReader N w τ) (future : Fin N) (next : Option (Fin N)) :
    (r.setNext future next).seriesOf = r.seriesOf := by
  funext n
  show (Function.update r.futures_ future _ n).bb.series = (r.futures_ n).bb.series
  grind

@[simp] theorem setTimeRec_nextOf (r : BBReader N w τ) (future : Fin N) (bb : TimeRec w) :
    (r.setTimeRec future bb).nextOf = r.nextOf := by
  funext n
  show (Function.update r.futures_ future _ n).next = (r.futures_ n).next
  grind

@[simp] theorem setTimeRec_seriesOf (r : BBReader N w τ) (future : Fin N) (bb : TimeRec w) :
    (r.setTimeRec future bb).seriesOf = Function.update r.seriesOf future bb.series := by
  funext n
  show (Function.update r.futures_ future _ n).bb.series = _
  grind [seriesOf]

/-- Every node is in the list of futures, in the free list, or held by the call that runs. -/
structure Lists (r : BBReader N w τ) (held used unused : List (Fin N)) : Prop where
  futures : Chain r.nextOf r.head_ used
  free : Chain r.nextOf r.free_ unused
  all : (held ++ (used ++ unused)).Perm (List.finRange N)

theorem Lists.nodup (h : r.Lists held used unused) : (held ++ (used ++ unused)).Nodup :=
  h.all.symm.nodup (List.nodup_finRange N)

theorem Lists.length (h : r.Lists held used unused) :
    held.length + used.length + unused.length = N := by
  have hlength := h.all.length_eq
  grind

theorem Lists.held_notMem (h : r.Lists [future] used unused) : future ∉ used ∧ future ∉ unused := by
  have hnodup : (future :: (used ++ unused)).Nodup := h.nodup
  grind

theorem Lists.setTimeRec (h : r.Lists held used unused) (future : Fin N) (bb : TimeRec w) :
    (r.setTimeRec future bb).Lists held used unused := by
  refine ⟨?_, ?_, h.all⟩
  · rw [setTimeRec_nextOf]
    exact h.futures
  · rw [setTimeRec_nextOf]
    exact h.free

/-- The series of the nodes on the list do not change when a held node gets another one. -/
theorem Lists.setTimeRec_map (h : r.Lists [future] used unused) (bb : TimeRec w) :
    used.map (r.setTimeRec future bb).seriesOf = used.map r.seriesOf := by
  rw [setTimeRec_seriesOf]
  apply List.map_congr_left
  grind [h.held_notMem]

theorem Lists.freeFuture (h : r.Lists [future] used unused) :
    (r.FreeFuture future).Lists [] used (future :: unused) ∧
      used.map (r.FreeFuture future).seriesOf = used.map r.seriesOf := by
  have hnext : (r.FreeFuture future).nextOf = Function.update r.nextOf future r.free_ :=
    setNext_nextOf r future r.free_
  have hseries : (r.FreeFuture future).seriesOf = r.seriesOf := setNext_seriesOf r future r.free_
  refine ⟨⟨?_, ?_, ?_⟩, by rw [hseries]⟩
  · rw [hnext]
    exact h.futures.update h.held_notMem.1 _
  · rw [hnext]
    exact h.free.push h.held_notMem.2
  · exact List.perm_middle.trans h.all

/-- A node is free where fewer than all are used. -/
theorem Lists.allocFuture (h : r.Lists [] used unused) (hroom : used.length < N) :
    ∃ future unused', r.AllocFuture = .ok ({ r with free_ := r.nextOf future }, future) ∧
      ({ r with free_ := r.nextOf future } : BBReader N w τ).Lists [future] used unused' := by
  have hlength := h.length
  cases unused with
  | nil => grind
  | cons future unused =>
      obtain ⟨hfree, hunused⟩ := chain_cons.mp h.free
      refine ⟨future, unused, ?_, h.futures, hunused, ?_⟩
      · rw [AllocFuture, hfree]
        rfl
      · grind [h.all]

/-! ## The place of a future -/

/-- The loop ends behind the futures that are earlier. -/
theorem findPrev_spec (time : BitVec 64) (prev : Option (Fin N))
    {turns : Nat} {ptr : Option (Fin N)} {nodes : List (Fin N)} (h : Chain r.nextOf ptr nodes)
    (hturns : nodes.length ≤ turns) :
    ∃ front back, nodes = front ++ back ∧
      findPrev r.futures_ time turns prev ptr = .ok (front.getLast?.or prev) ∧
      (∀ n ∈ front, (r.seriesOf n).time < time.toNat) ∧
      (∀ n ∈ back.head?, time.toNat ≤ (r.seriesOf n).time) := by
  induction nodes generalizing turns prev ptr with
  | nil =>
      obtain rfl : ptr = none := h
      simp [findPrev]
  | cons n nodes ih =>
      obtain ⟨rfl, hrest⟩ := chain_cons.mp h
      obtain ⟨turns, rfl⟩ : ∃ k, turns = k + 1 := ⟨turns - 1, by simp at hturns; omega⟩
      rw [findPrev]
      by_cases hle : time ≤ (r.futures_ n).bb.next_time
      · refine ⟨[], n :: nodes, rfl, if_pos hle, fun a ha => (nomatch ha), ?_⟩
        intro a ha
        obtain rfl := Option.some.inj ha
        exact hle
      · obtain ⟨front, back, rfl, hprev, hfront, hback⟩ :=
          ih (some n) hrest (Nat.le_of_succ_le_succ hturns)
        refine ⟨n :: front, back, rfl, ?_, ?_, hback⟩
        · rw [if_neg hle]
          refine hprev.trans ?_
          simp [List.getLast?_cons]
        · intro a ha
          obtain rfl | ha := List.mem_cons.mp ha
          · exact Nat.lt_of_not_le hle
          · exact hfront a ha

/-- What the calls that handle nodes leave as it is. -/
structure SameSource (r r' : BBReader N w τ) : Prop where
  nextrec : r'.nextrec_ = r.nextrec_
  decoder : r'.decoder_ = r.decoder_
  is_eof : r'.is_eof_ = r.is_eof_

/-- A held node gets its place by the time of its series. -/
theorem insertFuture_spec (h : r.Lists [future] used unused) :
    ∃ r' used', r.InsertFuture future = .ok r' ∧ r'.Lists [] used' unused ∧
      used'.map r'.seriesOf = insert (used.map r.seriesOf) (r.seriesOf future) ∧
      r.SameSource r' := by
  have hlength : used.length ≤ N := by
    have := h.length
    omega
  obtain ⟨front, back, rfl, hprev, hfront, hback⟩ :=
    findPrev_spec (r.futures_ future).bb.next_time none h.futures hlength
  have hsplit : insert ((front ++ back).map r.seriesOf) (r.seriesOf future) =
      (front ++ future :: back).map r.seriesOf := by
    rw [List.map_append, insert_split, List.map_append, List.map_cons]
    · intro p hp
      obtain ⟨n, hn, rfl⟩ := List.mem_map.mp hp
      exact hfront n hn
    · intro p hp
      rw [List.head?_map] at hp
      obtain ⟨n, hn, rfl⟩ := Option.mem_map.mp hp
      exact hback n hn
  have hall : ([] ++ (front ++ future :: back ++ unused)).Perm (List.finRange N) := by
    rw [List.append_assoc, List.cons_append]
    refine List.perm_middle.trans ?_
    rw [← List.append_assoc]
    exact h.all
  have hunused := h.held_notMem.2
  rw [hsplit]
  obtain rfl | ⟨front, b, rfl⟩ := List.eq_nil_or_concat' front
  · let r' : BBReader N w τ := { r.setNext future r.head_ with head_ := some future }
    have hnext : r'.nextOf = Function.update r.nextOf future r.head_ :=
      setNext_nextOf r future r.head_
    have hseries : r'.seriesOf = r.seriesOf := setNext_seriesOf r future r.head_
    refine ⟨r', future :: back, Run.bind_eq_ok.mpr ⟨none, hprev, rfl⟩, ⟨?_, ?_, hall⟩, ?_, ?_⟩
    · rw [hnext]
      exact h.futures.push h.held_notMem.1
    · rw [hnext]
      exact h.free.update hunused _
    · rw [hseries]
      rfl
    · exact ⟨rfl, rfl, rfl⟩
  · rw [List.getLast?_concat] at hprev
    let r' := (r.setNext future (r.nextOf b)).setNext b (some future)
    have hnext : r'.nextOf =
        Function.update (Function.update r.nextOf future (r.nextOf b)) b (some future) := by
      rw [setNext_nextOf, setNext_nextOf]
    have hseries : r'.seriesOf = r.seriesOf := by
      rw [setNext_seriesOf, setNext_seriesOf]
    have hnodup : (future :: (front ++ [b] ++ back ++ unused)).Nodup := h.nodup
    have hb : b ∉ unused := by
      rw [← List.cons_append, List.nodup_append] at hnodup
      intro hmem
      exact hnodup.2.2 b (by simp) b hmem rfl
    refine ⟨r', front ++ [b] ++ future :: back, Run.bind_eq_ok.mpr ⟨some b, hprev, rfl⟩,
      ⟨?_, ?_, hall⟩, ?_, ?_⟩
    · have hfutures := h.futures
      rw [List.append_assoc] at hfutures
      rw [← List.cons_append, List.append_assoc] at hnodup
      rw [hnext, List.append_assoc]
      exact hfutures.insertAfter (List.nodup_append.mp hnodup).1
    · rw [hnext]
      exact (h.free.update hunused _).update hb _
    · rw [hseries]
    · exact ⟨rfl, rfl, rfl⟩

/-! ## The series under way -/

/-- No time of the series wraps. -/
def Fits (ss : List (Series (BitVec 64))) : Prop := ∀ s ∈ ss, s.last < 2 ^ 64

instance (ss : List (Series (BitVec 64))) : Decidable (Fits ss) :=
  inferInstanceAs (Decidable (∀ s ∈ ss, s.last < 2 ^ 64))

theorem Fits.insert? {ss : List (Series (BitVec 64))} {s : Series (BitVec 64)} (h : Fits ss)
    (hs : s.last < 2 ^ 64) : Fits (insert? ss s.rest?) := by
  cases hrest : s.rest? with
  | none => exact h
  | some s' =>
      intro a ha
      obtain rfl | ha := mem_insert.mp ha
      · rw [last_of_rest hrest]
        exact hs
      · exact h a ha

def again (bb_rec : BBRec w) (time : BitVec 64) : TimeRec w :=
  { bb_rec := { bb_rec with repeats := bb_rec.repeats - 1 }, next_time := time + bb_rec.time_diff }

theorem again_series (bb : TimeRec w) (hpos : 0 < bb.bb_rec.repeats)
    (hfits : bb.series.last < 2 ^ 64) :
    bb.series.rest? = some (again bb.bb_rec bb.next_time).series := by
  have hpos' : 0 < bb.bb_rec.repeats.toNat := hpos
  have hlast : bb.series.last =
      bb.next_time.toNat + bb.bb_rec.repeats.toNat * bb.bb_rec.time_diff.toNat := rfl
  have hone : bb.bb_rec.time_diff.toNat ≤
      bb.bb_rec.repeats.toNat * bb.bb_rec.time_diff.toNat := Nat.le_mul_of_pos_left _ hpos'
  have htime : (bb.next_time + bb.bb_rec.time_diff).toNat =
      bb.next_time.toNat + bb.bb_rec.time_diff.toNat := by grind
  have hrepeats : (bb.bb_rec.repeats - 1).toNat = bb.bb_rec.repeats.toNat - 1 := by
    have hlt := bb.bb_rec.repeats.isLt
    have hwide : 1 < 2 ^ w := by omega
    have hunit : (1 : BitVec w).toNat = 1 := Nat.mod_eq_of_lt hwide
    have hle : (1 : BitVec w) ≤ bb.bb_rec.repeats := by
      show (1 : BitVec w).toNat ≤ _
      omega
    rw [BitVec.toNat_sub_of_le hle, hunit]
  rw [rest?, if_pos (show 0 < bb.series.repeats from hpos')]
  show some _ = some (Series.mk bb.bb_rec.bb_num (bb.next_time + bb.bb_rec.time_diff).toNat
    (bb.bb_rec.repeats - 1).toNat bb.bb_rec.time_diff.toNat)
  rw [htime, hrepeats]
  rfl

theorem series_last (bb : TimeRec w) (hzero : ¬0 < bb.bb_rec.repeats) : bb.series.rest? = none :=
  if_neg hzero

/-- The head gives its first event, and is inserted again or freed. -/
theorem readHead_spec (trace : TraceReader τ) (h : r.Lists [] (future :: used) unused)
    (hfits : (r.seriesOf future).last < 2 ^ 64) :
    ∃ r' event used' unused', r.readHead trace future = .ok (r', event) ∧
      (event.time.toNat, event.bb_num) = (r.seriesOf future).first ∧
      r'.Lists [] used' unused' ∧ r.SameSource r' ∧
      used'.map r'.seriesOf = insert? (used.map r.seriesOf) (r.seriesOf future).rest? := by
  let bb := (r.futures_ future).bb
  let event := (r.fillEvent trace bb.next_time bb.bb_rec.bb_num).2
  let r₁ : BBReader N w τ :=
    { (r.fillEvent trace bb.next_time bb.bb_rec.bb_num).1 with head_ := r.nextOf future }
  have h₁ : r₁.Lists [future] used unused := ⟨(chain_cons.mp h.futures).2, h.free, h.all⟩
  by_cases hpos : 0 < bb.bb_rec.repeats
  · have hrest : (r.seriesOf future).rest? = some (again bb.bb_rec bb.next_time).series :=
      again_series bb hpos hfits
    let r₂ := r₁.setTimeRec future (again bb.bb_rec bb.next_time)
    have h₂ : r₂.Lists [future] used unused := h₁.setTimeRec future _
    obtain ⟨r', used', hinsert, h', hmap, hsame⟩ := insertFuture_spec h₂
    refine ⟨r', event, used', unused, ?_, rfl, h', ⟨hsame.nextrec, hsame.decoder, hsame.is_eof⟩, ?_⟩
    · rw [readHead]
      refine (if_pos hpos).trans ?_
      exact Run.bind_eq_ok.mpr ⟨r', hinsert, rfl⟩
    · rw [hmap, h₁.setTimeRec_map, setTimeRec_seriesOf, Function.update_self, hrest]
      rfl
  · obtain ⟨h', hmap⟩ := h₁.freeFuture
    refine ⟨r₁.FreeFuture future, event, used, future :: unused, ?_, rfl, h', ⟨rfl, rfl, rfl⟩, ?_⟩
    · rw [readHead]
      exact if_neg hpos
    · rw [hmap, show (r.seriesOf future).rest? = none from series_last bb hpos]
      rfl

/-- A free node gets what is left of the series of a record. -/
theorem keepRec_spec (h : r.Lists [] used unused) (bb : TimeRec w) (hpos : 0 < bb.bb_rec.repeats)
    (hfits : bb.series.last < 2 ^ 64) (hroom : used.length < N) :
    ∃ r₁ future r' used' unused', r.AllocFuture = .ok (r₁, future) ∧
      (r₁.setTimeRec future (again bb.bb_rec bb.next_time)).InsertFuture future = .ok r' ∧
      r'.Lists [] used' unused' ∧ r.SameSource r' ∧
      used'.map r'.seriesOf = insert? (used.map r.seriesOf) bb.series.rest? := by
  obtain ⟨future, unused', halloc, h₁⟩ := h.allocFuture hroom
  have h₂ := h₁.setTimeRec future (again bb.bb_rec bb.next_time)
  obtain ⟨r', used', hinsert, h', hmap, hsame⟩ := insertFuture_spec h₂
  refine ⟨_, future, r', used', unused', halloc, hinsert, h',
    ⟨hsame.nextrec, hsame.decoder, hsame.is_eof⟩, ?_⟩
  rw [hmap, h₁.setTimeRec_map, setTimeRec_seriesOf, Function.update_self,
    again_series bb hpos hfits]
  rfl

end BBReader

end AndroidRenderer.Qtools
