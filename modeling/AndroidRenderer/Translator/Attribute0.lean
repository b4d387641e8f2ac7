import AndroidRenderer.Translator.IndirectCopies

/-!
# The array of attribute 0

Desktop GL draws nothing while the array of attribute 0 is disabled. `GLESv2Context` then puts a
temporary array in its place, which holds the current value of the attribute, and disables it
again after the draw. The array is kept for later draws, and grows when it is too short.

The draws give it the number of vertices for `glDrawArrays` and the largest index for
`glDrawElements`, where one more than the last vertex would be needed.
-/

namespace AndroidRenderer.Translator

open LittleEndian

/-- `m_attribute0value`, as the bits of its floats. -/
structure Attribute0value where
  cells : List UInt32
  length_eq : cells.length = 4
  deriving DecidableEq, Repr

/-- The array that the driver reads for attribute 0. -/
inductive Attribute0Pointer
  | application
  | att0Array
  deriving DecidableEq, Repr

/-- The context, with what the driver has for attribute 0. -/
structure Attribute0 where
  m_attribute0value : Attribute0value
  m_att0Array : List UInt32
  m_att0ArrayLength : Nat
  m_att0NeedsDisable : Bool
  driverEnabled : Bool
  driverPointer : Attribute0Pointer

inductive Attribute0Call
  | glVertexAttrib (value : Attribute0value)
  | enableArr (enable : Bool)
  | draw (junk : Nat → UInt32) (d : Draw)

namespace Attribute0

def init : Attribute0 :=
  ⟨⟨[0, 0, 0, 0x3F800000], rfl⟩, [], 0, false, false, .application⟩

/-- What the loop of `validateAtt0PreDraw` copies. The index is an `unsigned int`. -/
def copies (value : Attribute0value) (count : Nat) : List (Nat × List UInt32) :=
  (List.range count).map fun i => (i * 4 % 2 ^ 32, value.cells)

/-- `validateAtt0PreDraw`, where `junk` is what a new array holds. -/
def validateAtt0PreDraw (junk : Nat → UInt32) (count : Nat) (s : Attribute0) :
    Except BufferFault Attribute0 :=
  let s := { s with m_att0NeedsDisable := false }
  if count = 0 then .ok s
  else if s.driverEnabled then .ok s
  else
    let s :=
      if s.m_att0ArrayLength < count then
        { s with
          m_att0Array := (List.range (4 * count % 2 ^ 32)).map junk, m_att0ArrayLength := count }
      else s
    match Buffer.storeAll? s.m_att0Array (copies s.m_attribute0value count) with
    | none => .error .outOfBounds
    | some m_att0Array =>
        .ok { s with
          m_att0Array, driverPointer := .att0Array, driverEnabled := true
          m_att0NeedsDisable := true }

def validateAtt0PostDraw (s : Attribute0) : Attribute0 :=
  { s with
    driverEnabled := if s.m_att0NeedsDisable then false else s.driverEnabled
    m_att0NeedsDisable := false }

/-- What the draws give to `validateAtt0PreDraw`. -/
def reserved : Draw → Nat
  | .glDrawArrays _ count => count.toNat
  | .glDrawElements count type indices => findMaxIndex count.toNat type indices

/-- `glDrawArrays` and `glDrawElements`: the state in which the driver draws, and that after the
draw. -/
def drawWith (junk : Nat → UInt32) (d : Draw) (s : Attribute0) :
    Except BufferFault (Attribute0 × Attribute0) :=
  -- `setupArraysPointers` gives the driver the arrays that are enabled
  let s := if s.driverEnabled then { s with driverPointer := .application } else s
  (s.validateAtt0PreDraw junk (reserved d)).map fun t => (t, t.validateAtt0PostDraw)

def step (s : Attribute0) : Attribute0Call → Except BufferFault Attribute0
  | .glVertexAttrib value => .ok { s with m_attribute0value := value }
  | .enableArr enable => .ok { s with driverEnabled := enable }
  | .draw junk d => if d.Accepted then (s.drawWith junk d).map Prod.snd else .ok s

def vertex (s : Attribute0) (v : Nat) : List UInt32 := (s.m_att0Array.drop (4 * v)).take 4

/-- The driver reads the value of the attribute for each vertex that it fetches, and after the draw
the array is disabled and the value is what it was. -/
def Emulates (s : Attribute0) (d : Draw) : Prop :=
  ∀ junk, ∃ t u, s.drawWith junk d = .ok (t, u) ∧
    (∀ v ∈ d.elements, t.driverEnabled ∧ t.driverPointer = .att0Array ∧
      t.vertex v.toNat = s.m_attribute0value.cells) ∧
    u.driverEnabled = false ∧ u.m_attribute0value = s.m_attribute0value

/-- The draw fetches nothing; or its vertices are below the number of those that are copied, or
still hold the value in an array that is long enough. A new array has less than 2^30 vertices. -/
def Covers (s : Attribute0) (d : Draw) : Prop :=
  d.elements = [] ∨ 0 < reserved d ∧ (s.m_att0ArrayLength < reserved d → reserved d < 2 ^ 30) ∧
    ∀ v ∈ d.elements, v.toNat < reserved d ∨
      reserved d ≤ s.m_att0ArrayLength ∧ s.vertex v.toNat = s.m_attribute0value.cells

instance (s : Attribute0) (d : Draw) : Decidable (s.Covers d) :=
  inferInstanceAs (Decidable (d.elements = [] ∨ 0 < reserved d ∧
    (s.m_att0ArrayLength < reserved d → reserved d < 2 ^ 30) ∧
      ∀ v ∈ d.elements, v.toNat < reserved d ∨
        reserved d ≤ s.m_att0ArrayLength ∧ s.vertex v.toNat = s.m_attribute0value.cells))

/-! ## What the array holds -/

/-- The array is as long as the context knows. -/
structure WellFormed (s : Attribute0) : Prop where
  length_eq : s.m_att0Array.length = 4 * s.m_att0ArrayLength
  length_lt : s.m_att0ArrayLength < 2 ^ 30

section Copies

variable {value : Attribute0value} {array : List UInt32} {count : Nat}

theorem mem_copies {write : Nat × List UInt32} (h : write ∈ copies value count) :
    ∃ i < count, write = (i * 4 % 2 ^ 32, value.cells) := by
  obtain ⟨i, hi, rfl⟩ := List.mem_map.mp h
  exact ⟨i, List.mem_range.mp hi, rfl⟩

/-- The copies fill the vertices in front. -/
theorem copies_spec (value : Attribute0value) (hlt : count < 2 ^ 30)
    (hlength : 4 * count ≤ array.length) :
    ∃ array', Buffer.storeAll? array (copies value count) = some array' ∧
      array'.length = array.length ∧
      (∀ v < count, (array'.drop (4 * v)).take 4 = value.cells) ∧
      ∀ v, count ≤ v → (array'.drop (4 * v)).take 4 = (array.drop (4 * v)).take 4 := by
  have hcells := value.length_eq
  have hinside : ∀ write ∈ copies value count, write.1 + write.2.length ≤ array.length := by
    grind [mem_copies]
  obtain ⟨array', hstore, hlength'⟩ := Buffer.storeAll?_isSome hinside
  refine ⟨array', hstore, hlength', ?_, ?_⟩
  · intro v hv
    apply List.ext_getElem?
    intro j
    rw [List.getElem?_take]
    split
    · rename_i hj
      rw [List.getElem?_drop]
      have hread := Buffer.storeAll?_getElem? (fun c => value.cells[c % 4]?.getD 0) hstore ?_
        (i := 4 * v + j) (.inr ?_)
      · grind
      · grind [mem_copies]
      · refine ⟨_, List.mem_map.mpr ⟨v, List.mem_range.mpr hv, rfl⟩, ?_⟩
        dsimp only
        omega
    · grind
  · intro v hv
    apply List.ext_getElem?
    intro j
    rw [List.getElem?_take, List.getElem?_take]
    split
    · rw [List.getElem?_drop, List.getElem?_drop]
      grind [Buffer.storeAll?_getElem?_outside, mem_copies]
    · rfl

/-- A new array of 2^30 vertices or more is too short. -/
theorem copies_overflow (value : Attribute0value) (hle : 2 ^ 30 ≤ count)
    (hlength : array.length = 4 * count % 2 ^ 32) :
    Buffer.storeAll? array (copies value count) = none := by
  cases hstore : Buffer.storeAll? array (copies value count) with
  | none => rfl
  | some array' =>
      have hmem : (count % 2 ^ 30 * 4 % 2 ^ 32, value.cells) ∈ copies value count :=
        List.mem_map.mpr ⟨count % 2 ^ 30, List.mem_range.mpr (by omega), rfl⟩
      have hinside := Buffer.storeAll?_inside hstore _ hmem
      grind [value.length_eq]

end Copies

variable {s : Attribute0} {d : Draw}

/-- A draw that nothing is reserved for leaves the array disabled. -/
theorem drawWith_zero (junk : Nat → UInt32) (h : s.WellFormed) (hdisabled : s.driverEnabled = false)
    (hzero : reserved d = 0) :
    ∃ t u, s.drawWith junk d = .ok (t, u) ∧ t.driverEnabled = false ∧ u.driverEnabled = false ∧
      u.m_attribute0value = s.m_attribute0value ∧ u.WellFormed := by
  refine ⟨{ s with m_att0NeedsDisable := false },
    validateAtt0PostDraw { s with m_att0NeedsDisable := false }, ?_, hdisabled, hdisabled, rfl,
    h.length_eq, h.length_lt⟩
  have hstays : ¬s.driverEnabled = true := Bool.eq_false_iff.mp hdisabled
  unfold drawWith validateAtt0PreDraw
  rw [if_neg hstays, hzero]
  rfl

/-- A draw installs the array, with the value for the vertices in front. The others are not there,
if the array is new, or hold what they held before. -/
theorem drawWith_pos (junk : Nat → UInt32) (h : s.WellFormed) (hdisabled : s.driverEnabled = false)
    (hpos : 0 < reserved d) (hnew : s.m_att0ArrayLength < reserved d → reserved d < 2 ^ 30) :
    ∃ t u, s.drawWith junk d = .ok (t, u) ∧ t.driverEnabled = true ∧ t.driverPointer = .att0Array ∧
      (∀ v, t.vertex v = if v < reserved d then s.m_attribute0value.cells
        else if s.m_att0ArrayLength < reserved d then [] else s.vertex v) ∧
      u.driverEnabled = false ∧ u.m_attribute0value = s.m_attribute0value ∧ u.WellFormed := by
  have hlength := h.length_eq
  have hlt := h.length_lt
  generalize hn : reserved d = n at hpos hnew ⊢
  have hrun : ∀ array', Buffer.storeAll? (if s.m_att0ArrayLength < n then
        (List.range (4 * n % 2 ^ 32)).map junk else s.m_att0Array)
        (copies s.m_attribute0value n) = some array' →
      ∃ t u, s.drawWith junk d = .ok (t, u) ∧ t.driverEnabled = true ∧
        t.driverPointer = .att0Array ∧ t.m_att0Array = array' ∧ u.driverEnabled = false ∧
        u.m_attribute0value = s.m_attribute0value ∧ u.m_att0Array = array' ∧
        u.m_att0ArrayLength = if s.m_att0ArrayLength < n then n else s.m_att0ArrayLength := by
    intro array' hstore
    unfold drawWith validateAtt0PreDraw
    rw [hdisabled, hn, if_neg Bool.false_ne_true]
    dsimp only
    rw [if_neg (by omega), hdisabled, if_neg Bool.false_ne_true]
    by_cases hgrow : s.m_att0ArrayLength < n
    · rw [if_pos hgrow] at hstore ⊢
      rw [hstore]
      exact ⟨_, _, rfl, rfl, rfl, rfl, rfl, rfl, rfl, (if_pos hgrow).symm⟩
    · rw [if_neg hgrow] at hstore ⊢
      rw [hstore]
      exact ⟨_, _, rfl, rfl, rfl, rfl, rfl, rfl, rfl, (if_neg hgrow).symm⟩
  by_cases hgrow : s.m_att0ArrayLength < n
  · have hsize : ((List.range (4 * n % 2 ^ 32)).map junk).length = 4 * n := by
      rw [List.length_map, List.length_range]
      omega
    obtain ⟨array', hstore, hlength', hfront, hback⟩ :=
      copies_spec s.m_attribute0value (hnew hgrow) (Nat.le_of_eq hsize.symm)
    obtain ⟨t, u, hdraw, henabled, hpointer, harray, hafter, hvalue, harray', hlen⟩ :=
      hrun array' (by rw [if_pos hgrow]; exact hstore)
    rw [if_pos hgrow] at hlen
    refine ⟨t, u, hdraw, henabled, hpointer, ?_, hafter, hvalue, ?_, ?_⟩
    · intro v
      rw [vertex, harray, if_pos hgrow]
      split
      · rename_i hv
        exact hfront v hv
      · rw [hback v (by omega), List.drop_eq_nil_of_le (by omega), List.take_nil]
    · grind
    · rw [hlen]
      exact hnew hgrow
  · obtain ⟨array', hstore, hlength', hfront, hback⟩ :=
      copies_spec s.m_attribute0value (show n < 2 ^ 30 by omega)
        (show 4 * n ≤ s.m_att0Array.length by omega)
    obtain ⟨t, u, hdraw, henabled, hpointer, harray, hafter, hvalue, harray', hlen⟩ :=
      hrun array' (by rw [if_neg hgrow]; exact hstore)
    rw [if_neg hgrow] at hlen
    refine ⟨t, u, hdraw, henabled, hpointer, ?_, hafter, hvalue, ?_, ?_⟩
    · grind [vertex]
    · grind
    · rw [hlen]
      exact hlt

/-- A new array of 2^30 vertices or more is left by the copies. -/
theorem drawWith_overflow (junk : Nat → UInt32) (hdisabled : s.driverEnabled = false)
    (hgrow : s.m_att0ArrayLength < reserved d) (hle : 2 ^ 30 ≤ reserved d) :
    s.drawWith junk d = .error .outOfBounds := by
  have hlength : ((List.range (4 * reserved d % 2 ^ 32)).map junk).length =
      4 * reserved d % 2 ^ 32 := by simp
  have hstore := copies_overflow s.m_attribute0value hle hlength
  unfold drawWith validateAtt0PreDraw
  rw [hdisabled, if_neg Bool.false_ne_true]
  dsimp only
  rw [if_neg (by omega), hdisabled, if_neg Bool.false_ne_true, if_pos hgrow]
  dsimp only
  rw [hstore]
  rfl

theorem reserved_of_nil (h : d.elements = []) : reserved d = 0 := by
  have hsize := d.length_elements
  rw [h, List.length_nil] at hsize
  cases d with
  | glDrawArrays first count => exact hsize.symm
  | glDrawElements count type indices =>
      change findMaxIndex count.toNat type indices = 0
      have hzero : count.toNat = 0 := hsize.symm
      rw [hzero]
      rfl

/-- The array of attribute 0 is emulated exactly if its copies cover the draw. -/
theorem WellFormed.emulates_iff (h : s.WellFormed) (hdisabled : s.driverEnabled = false) :
    s.Emulates d ↔ s.Covers d := by
  have hcells := s.m_attribute0value.length_eq
  rcases Nat.eq_zero_or_pos (reserved d) with hzero | hpos
  · constructor
    · intro hemulates
      obtain ⟨t, u, hdraw, hvertices, -⟩ := hemulates fun _ => 0
      obtain ⟨t', u', hdraw', henabled, -⟩ := drawWith_zero (fun _ => 0) h hdisabled hzero
      obtain ⟨rfl, rfl⟩ := Prod.mk.inj (Except.ok.inj (hdraw.symm.trans hdraw'))
      left
      rw [List.eq_nil_iff_forall_not_mem]
      grind
    · rintro (hnil | ⟨hpos, -⟩) junk
      · obtain ⟨t, u, hdraw, -, hafter, hvalue, -⟩ := drawWith_zero junk h hdisabled hzero
        grind
      · omega
  · constructor
    · intro hemulates
      obtain ⟨t, u, hdraw, hvertices, -⟩ := hemulates fun _ => 0
      have hnew : s.m_att0ArrayLength < reserved d → reserved d < 2 ^ 30 := by
        grind [drawWith_overflow]
      obtain ⟨t', u', hdraw', -, -, hread, -⟩ := drawWith_pos (fun _ => 0) h hdisabled hpos hnew
      obtain ⟨rfl, rfl⟩ := Prod.mk.inj (Except.ok.inj (hdraw.symm.trans hdraw'))
      refine .inr ⟨hpos, hnew, ?_⟩
      grind
    · rintro (hnil | ⟨-, hnew, hcovers⟩) junk
      · rw [reserved_of_nil hnil] at hpos
        cases hpos
      · obtain ⟨t, u, hdraw, henabled, hpointer, hread, hafter, hvalue, -⟩ :=
          drawWith_pos junk h hdisabled hpos hnew
        grind

/-! ## Runs -/

theorem wellFormed_init : init.WellFormed := ⟨rfl, by decide⟩

theorem WellFormed.drawWith {junk : Nat → UInt32} {t u : Attribute0} (h : s.WellFormed)
    (hdraw : s.drawWith junk d = .ok (t, u)) : u.WellFormed := by
  by_cases henabled : s.driverEnabled = true
  · have hsame : u.m_att0Array = s.m_att0Array ∧ u.m_att0ArrayLength = s.m_att0ArrayLength := by
      unfold Attribute0.drawWith validateAtt0PreDraw at hdraw
      rw [if_pos henabled] at hdraw
      dsimp only at hdraw
      rw [if_pos henabled] at hdraw
      split at hdraw
      · cases hdraw
        exact ⟨rfl, rfl⟩
      · cases hdraw
        exact ⟨rfl, rfl⟩
    exact ⟨by rw [hsame.1, hsame.2, h.length_eq], by rw [hsame.2]; exact h.length_lt⟩
  · have hdisabled : s.driverEnabled = false := Bool.eq_false_iff.mpr henabled
    rcases Nat.eq_zero_or_pos (reserved d) with hzero | hpos
    · obtain ⟨t', u', hdraw', -, -, -, hwell⟩ := drawWith_zero junk h hdisabled hzero
      grind
    · have hnew : s.m_att0ArrayLength < reserved d → reserved d < 2 ^ 30 := by
        intro hgrow
        by_contra hle
        rw [drawWith_overflow _ hdisabled hgrow (by omega)] at hdraw
        cases hdraw
      obtain ⟨t', u', hdraw', -, -, -, -, -, hwell⟩ := drawWith_pos junk h hdisabled hpos hnew
      obtain ⟨rfl, rfl⟩ := Prod.mk.inj (Except.ok.inj (hdraw.symm.trans hdraw'))
      exact hwell

/-- The calls keep the length of the array. -/
theorem WellFormed.step {t : Attribute0} {c : Attribute0Call} (h : s.WellFormed)
    (hstep : s.step c = .ok t) : t.WellFormed := by
  cases c with
  | glVertexAttrib value =>
      obtain rfl := Except.ok.inj hstep
      exact ⟨h.length_eq, h.length_lt⟩
  | enableArr enable =>
      obtain rfl := Except.ok.inj hstep
      exact ⟨h.length_eq, h.length_lt⟩
  | draw junk d => grind [Attribute0.step, Run.map_eq_ok, h.drawWith]

/-- In every state that calls lead to, a draw with attribute 0 disabled is emulated exactly if the
copies cover it. -/
theorem attribute0_emulated (s : Attribute0) (h : Run.Reach step (fun _ _ => True) init s)
    (hdisabled : s.driverEnabled = false) (d : Draw) : s.Emulates d ↔ s.Covers d :=
  (h.invariant (I := WellFormed) wellFormed_init fun _ _ _ ht _ hstep =>
    ht.step hstep).emulates_iff hdisabled

private def white : Attribute0value := ⟨List.replicate 4 0x3F800000, rfl⟩

/-- Three vertices are drawn, and then two of them and all three of them through indices. -/
theorem attribute0_emulated_again :
    ∃ s : Attribute0, s.m_attribute0value = white ∧ s.Emulates (.glDrawArrays 0 2) ∧
      s.Emulates (.glDrawElements 2 GL_UNSIGNED_BYTE (ofList [2, 0] fun _ => 0)) := by
  have hrun : Run.check step (fun _ _ => true)
      (fun s => s.m_attribute0value = white && s.driverEnabled = false &&
        decide (s.Covers (.glDrawArrays 0 2)) &&
        decide (s.Covers (.glDrawElements 2 GL_UNSIGNED_BYTE (ofList [2, 0] fun _ => 0)))) init
      [.glVertexAttrib white, .draw (fun _ => 0) (.glDrawArrays 0 3)] = true := by
    decide +kernel
  obtain ⟨s, hreach, htest⟩ := Run.exists_reach_of_check (fun _ _ _ => trivial) hrun
  simp only [Bool.and_eq_true, decide_eq_true_eq] at htest
  obtain ⟨⟨⟨hvalue, hdisabled⟩, harrays⟩, hindices⟩ := htest
  exact ⟨s, hvalue, (attribute0_emulated s hreach hdisabled _).mpr harrays,
    (attribute0_emulated s hreach hdisabled _).mpr hindices⟩

/-- In a new context, the second vertex of an array has no value, nor has the one with the largest
index. -/
theorem attribute0_misses_last :
    ¬init.Emulates (.glDrawArrays 1 1) ∧
      ¬init.Emulates (.glDrawElements 2 GL_UNSIGNED_BYTE (ofList [0, 1] fun _ => 0)) := by
  rw [wellFormed_init.emulates_iff rfl, wellFormed_init.emulates_iff rfl]
  decide +kernel

end Attribute0

end AndroidRenderer.Translator
