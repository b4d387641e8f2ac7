import Mathlib.Logic.Function.Basic

/-!
# Slots and links back

A slot holds an object or none, and an object has a link to one slot or none. Both agree when an
object links back to the slot that holds it. A slot that gets another object unlinks the one
that it held. The two agree afterwards if no other slot holds the new object.
-/

/-- What slots hold, and the links of objects. -/
@[ext]
structure Links (κ ι : Type) where
  slots : κ → Option ι
  back : ι → Option κ

namespace Links

variable {κ ι : Type}

def Linked (l : Links κ ι) : Prop := ∀ x o, l.slots x = some o ↔ l.back o = some x

theorem Linked.unique {l : Links κ ι} (h : l.Linked) {x y : κ} {o : ι} (hx : l.slots x = some o)
    (hy : l.slots y = some o) : x = y :=
  Option.some.inj (((h x o).mp hx).symm.trans ((h y o).mp hy))

variable [DecidableEq κ] [DecidableEq ι]

/-- The object of a slot is unlinked and taken out. -/
def detach (l : Links κ ι) (x : κ) : Links κ ι where
  slots := Function.update l.slots x none
  back := fun o => if l.slots x = some o then none else l.back o

/-- An object is put into a slot, and linked to it. -/
def attach (l : Links κ ι) (x : κ) (o : ι) : Links κ ι where
  slots := Function.update l.slots x (some o)
  back := Function.update (l.detach x).back o (some x)

@[grind =] theorem slots_detach (l : Links κ ι) (x y : κ) :
    (l.detach x).slots y = if y = x then none else l.slots y := by
  unfold detach
  grind

@[grind =] theorem slots_attach (l : Links κ ι) (x : κ) (o : ι) (y : κ) :
    (l.attach x o).slots y = if y = x then some o else l.slots y := by
  unfold attach
  grind

@[grind =] theorem back_attach (l : Links κ ι) (x : κ) (o o' : ι) :
    (l.attach x o).back o' = if o' = o then some x else (l.detach x).back o' := by
  unfold attach
  grind

theorem Linked.detach {l : Links κ ι} (h : l.Linked) (x : κ) : (l.detach x).Linked := by
  intro y o
  rw [slots_detach, Links.detach]
  dsimp only
  by_cases hy : y = x
  · subst hy
    rw [if_pos rfl]
    split
    · exact ⟨fun hnone => (nomatch hnone), fun hnone => (nomatch hnone)⟩
    · rename_i hnot
      exact ⟨fun hnone => (nomatch hnone), fun hback => absurd ((h y o).mpr hback) hnot⟩
  · rw [if_neg hy]
    split
    · grind [h.unique]
    · exact h y o

/-- Putting an object into a slot keeps slots and links in agreement if and only if no other slot
holds it. -/
theorem Linked.attach_iff {l : Links κ ι} (h : l.Linked) (x : κ) (o : ι) :
    (l.attach x o).Linked ↔ ∀ y, l.slots y = some o → y = x := by
  constructor
  · intro hlinked y hy
    by_contra hne
    have hslot : (l.attach x o).slots y = some o := by rw [slots_attach, if_neg hne, hy]
    have hnew : (l.attach x o).slots x = some o := by rw [slots_attach, if_pos rfl]
    exact hne (hlinked.unique hslot hnew)
  · intro hfree y o'
    rw [slots_attach, back_attach]
    by_cases ho : o' = o
    · grind
    · have hdetach := h.detach x y o'
      rw [slots_detach] at hdetach
      grind

end Links
