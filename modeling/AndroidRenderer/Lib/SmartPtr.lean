import Mathlib.Data.List.Basic

/-!
# Smart pointers

Objects are numbered in the order in which they are made. A variable `k` refers to the object
`target k`, and an object is destroyed when the last variable that refers to it lets it go.
Then no variable refers to an object that has been destroyed, whatever is assigned to what.
-/

namespace SmartPtr

variable {κ κ' : Type} {target : κ → Option Nat} {target' : κ' → Option Nat}
variable {count count' : Nat} {freed : List Nat}

/-- The object has been made and not been destroyed. -/
def Alive (count : Nat) (freed : List Nat) (o : Nat) : Prop := o < count ∧ o ∉ freed

theorem Alive.grow {o : Nat} (h : Alive count freed o) (hle : count ≤ count') :
    Alive count' freed o :=
  ⟨Nat.lt_of_lt_of_le h.1 hle, h.2⟩

/-- Variables refer to objects that are alive. -/
structure Sound (target : κ → Option Nat) (count : Nat) (freed : List Nat) : Prop where
  held : ∀ k o, target k = some o → Alive count freed o
  made : ∀ o ∈ freed, o < count

namespace Sound

/-- Assignments of what other variables refer to, or of objects that are alive. -/
theorem assign (h : Sound target count freed)
    (hassigned : ∀ k o, target' k = some o →
      (∃ k', target k' = some o) ∨ Alive count freed o) : Sound target' count freed := by
  refine ⟨fun k o hk => ?_, h.made⟩
  grind [h.held]

/-- An object that no variable refers to is destroyed. -/
theorem destroy (h : Sound target count freed) {o : Nat} (ho : o < count)
    (hlast : ∀ k, target k ≠ some o) : Sound target count (o :: freed) := by
  constructor
  · intro k o' hk
    obtain ⟨hlt, hfreed⟩ := h.held k o' hk
    refine ⟨hlt, fun hmem => ?_⟩
    grind
  · intro o' hmem
    rcases List.mem_cons.mp hmem with rfl | hmem
    · exact ho
    · exact h.made o' hmem

theorem grow (h : Sound target count freed) (hle : count ≤ count') :
    Sound target count' freed :=
  ⟨fun k o hk => (h.held k o hk).grow hle, fun o ho => Nat.lt_of_lt_of_le (h.made o ho) hle⟩

theorem alive_next (h : Sound target count freed) : Alive (count + 1) freed count :=
  ⟨Nat.lt_succ_self count, fun hmem => Nat.lt_irrefl count (h.made count hmem)⟩

end Sound

end SmartPtr
