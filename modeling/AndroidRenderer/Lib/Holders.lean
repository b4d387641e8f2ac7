import Mathlib.Data.Set.Insert

/-!
# Holders of shared things

Objects use things, each of them through a holder, and a holder keeps a set of things. It keeps
exactly those that some object uses through it when every object that starts and every one that
stops to use a thing minds the others: the set does not count them.
-/

namespace Holders

/-- What the holders keep, what each object uses, and through which holder. -/
@[ext] structure Uses (C O I : Type) where
  kept : C → Set I
  source : O → Option I
  via : O → C

namespace Uses

variable {C O I : Type}

/-- The object uses the thing through the holder. -/
def Holds (u : Uses C O I) (c : C) (o : O) (i : I) : Prop := u.source o = some i ∧ u.via o = c

/-- The holders keep what is used through them. -/
def Exact (u : Uses C O I) : Prop := ∀ c i, i ∈ u.kept c ↔ ∃ o, u.Holds c o i

section Operations

variable [DecidableEq C] (u : Uses C O I)

/-- The holder keeps a thing besides. -/
def keep (c : C) (i : I) : Uses C O I :=
  { u with kept := fun c' => if c' = c then insert i (u.kept c) else u.kept c' }

/-- The object uses the thing from now on. -/
def start [DecidableEq O] (c : C) (o : O) (i : I) : Uses C O I where
  kept c' := if c' = c then insert i (u.kept c) else u.kept c'
  source o' := if o' = o then some i else u.source o'
  via o' := if o' = o then c else u.via o'

/-- The objects stop to use things, and the holder drops these. -/
def stop (c : C) (D : O → Prop) [DecidablePred D] : Uses C O I where
  kept c' := if c' = c then { i ∈ u.kept c | ∀ o, D o → u.source o ≠ some i } else u.kept c'
  source o := if D o then none else u.source o
  via := u.via

variable {u} {c : C} {o : O} {i : I}

theorem mem_keep {c' : C} {i' : I} :
    i' ∈ (u.keep c i).kept c' ↔ c' = c ∧ i' = i ∨ i' ∈ u.kept c' := by
  simp only [keep]
  grind

theorem mem_start [DecidableEq O] {c' : C} {i' : I} :
    i' ∈ (u.start c o i).kept c' ↔ c' = c ∧ i' = i ∨ i' ∈ u.kept c' :=
  mem_keep

@[grind =] theorem holds_start [DecidableEq O] {c' : C} {o' : O} {i' : I} :
    (u.start c o i).Holds c' o' i' ↔
      o' = o ∧ c' = c ∧ i' = i ∨ o' ≠ o ∧ u.Holds c' o' i' := by
  simp only [Holds, start]
  grind

variable {D : O → Prop}

@[grind =] theorem mem_stop [DecidablePred D] {c' : C} {i' : I} :
    i' ∈ (u.stop c D).kept c' ↔
      i' ∈ u.kept c' ∧ (c' = c → ∀ o, D o → u.source o ≠ some i') := by
  simp only [stop]
  grind

theorem holds_stop [DecidablePred D] {c' : C} {o' : O} {i' : I} :
    (u.stop c D).Holds c' o' i' ↔ ¬D o' ∧ u.Holds c' o' i' := by
  simp only [Holds, stop]
  by_cases h : D o' <;> simp [h]

/-- A thing may be kept besides where some object uses it. -/
theorem exact_keep_iff (h : u.Exact) : (u.keep c i).Exact ↔ ∃ o, u.Holds c o i := by
  constructor
  · intro hkeep
    exact (hkeep c i).mp (mem_keep.mpr (.inl ⟨rfl, rfl⟩))
  · intro hused c' i'
    rw [mem_keep, h c' i']
    constructor
    · rintro (⟨rfl, rfl⟩ | hholds)
      · exact hused
      · exact hholds
    · exact .inr

/-- An object may start where what it used before is the same, or another object uses it. -/
theorem exact_start_iff [DecidableEq O] (h : u.Exact) :
    (u.start c o i).Exact ↔
      ∀ j, u.source o = some j → u.via o = c ∧ j = i ∨ ∃ o' ≠ o, u.Holds (u.via o) o' j := by
  constructor
  · intro hstart j hj
    obtain ⟨o', ho'⟩ := (hstart (u.via o) j).mp
      (mem_start.mpr (.inr ((h _ _).mpr ⟨o, hj, rfl⟩)))
    grind
  · intro hmind c' i'
    rw [mem_start, h c' i']
    constructor
    · rintro (⟨rfl, rfl⟩ | ⟨o', hholds⟩)
      · exact ⟨o, holds_start.mpr (.inl ⟨rfl, rfl, rfl⟩)⟩
      · by_cases heq : o' = o
        · subst heq
          obtain ⟨hsource, rfl⟩ := hholds
          obtain ⟨hvia, rfl⟩ | ⟨o'', hne, hother⟩ := hmind i' hsource
          · exact ⟨o', holds_start.mpr (.inl ⟨rfl, hvia, rfl⟩)⟩
          · exact ⟨o'', holds_start.mpr (.inr ⟨hne, hother⟩)⟩
        · exact ⟨o', holds_start.mpr (.inr ⟨heq, hholds⟩)⟩
    · grind

/-- Objects may stop where no other one uses their things through the holder that drops them, and
where other ones use them through all holders that do not. -/
theorem exact_stop_iff (h : u.Exact) [DecidablePred D] :
    (u.stop c D).Exact ↔
      (∀ o o' j, D o → u.source o = some j → ¬D o' → ¬u.Holds c o' j) ∧
        ∀ o j, D o → u.source o = some j → u.via o ≠ c → ∃ o', ¬D o' ∧ u.Holds (u.via o) o' j := by
  constructor
  · intro hstop
    constructor
    · intro o o' j ho hj ho' hholds
      have hmem := (hstop c j).mpr ⟨o', holds_stop.mpr ⟨ho', hholds⟩⟩
      exact (mem_stop.mp hmem).2 rfl o ho hj
    · intro o j ho hj hvia
      have hmem : j ∈ (u.stop c D).kept (u.via o) :=
        mem_stop.mpr ⟨(h _ _).mpr ⟨o, hj, rfl⟩, fun heq => absurd heq hvia⟩
      obtain ⟨o', ho'⟩ := (hstop _ _).mp hmem
      exact ⟨o', holds_stop.mp ho'⟩
  · rintro ⟨hdropped, hkept⟩ c' i'
    rw [mem_stop, h c' i']
    constructor
    · rintro ⟨⟨o', hsource, rfl⟩, hunused⟩
      by_cases hstops : D o'
      · have hvia : u.via o' ≠ c := fun heq => hunused heq o' hstops hsource
        obtain ⟨o'', hnot, hholds⟩ := hkept o' i' hstops hsource hvia
        exact ⟨o'', holds_stop.mpr ⟨hnot, hholds⟩⟩
      · exact ⟨o', holds_stop.mpr ⟨hstops, hsource, rfl⟩⟩
    · grind [holds_stop]

theorem stop_congr {E : O → Prop} [DecidablePred D] [DecidablePred E] (h : ∀ o, D o ↔ E o) :
    u.stop c D = u.stop c E := by
  apply Uses.ext
  · grind
  · funext o
    exact if_congr (h o) rfl rfl
  · rfl

theorem stop_of_forall_not [DecidablePred D] (h : ∀ o, ¬D o) :
    u.stop c D = u := by
  apply Uses.ext
  · grind
  · funext o
    exact if_neg (h o)
  · rfl

/-- Objects that stop one after another stop together. -/
theorem stop_stop {E : O → Prop} [DecidablePred D] [DecidablePred E] :
    (u.stop c D).stop c E = u.stop c fun o => D o ∨ E o := by
  apply Uses.ext
  · funext c'
    ext i
    rw [mem_stop, mem_stop, mem_stop, and_assoc, ← imp_and]
    refine and_congr_right fun _ => imp_congr_right fun _ => ?_
    constructor
    · rintro ⟨hD, hE⟩ o ho hsource
      by_cases hDo : D o
      · exact hD o hDo hsource
      · apply hE o (ho.resolve_left hDo)
        simpa [stop, hDo] using hsource
    · grind [stop]
  · funext o
    simp only [stop]
    by_cases hD : D o <;> simp [hD]
  · rfl

end Operations

end Uses

end Holders
