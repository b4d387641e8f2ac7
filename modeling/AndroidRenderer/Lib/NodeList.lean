import Mathlib.Data.List.Basic

/-!
# Singly linked lists

`Chain next head nodes` says which nodes are met from `head` on. A node that is on no list yet is
linked in by one or two stores; the list is then the old one with the node in its place.
-/

namespace NodeList

variable {ν : Type} {next next' : ν → Option ν} {head : Option ν} {a b : ν}
  {nodes front back : List ν}

/-- The nodes from `head` on. -/
def Chain (next : ν → Option ν) : Option ν → List ν → Prop
  | head, [] => head = none
  | head, a :: nodes => head = some a ∧ Chain next (next a) nodes

@[grind =] theorem chain_cons :
    Chain next head (a :: nodes) ↔ head = some a ∧ Chain next (next a) nodes :=
  .rfl

/-- Only the links of the nodes matter. -/
theorem Chain.congr (h : Chain next head nodes) (hsame : ∀ a ∈ nodes, next' a = next a) :
    Chain next' head nodes := by
  induction nodes generalizing head with
  | nil => exact h
  | cons a nodes ih => grind

/-- What is met behind a node. -/
theorem Chain.of_append_cons (h : Chain next head (front ++ a :: back)) :
    Chain next (next a) back := by
  induction front generalizing head with
  | nil => exact h.2
  | cons c front ih => exact ih h.2

/-- A list of links is met in one way. -/
theorem Chain.unique {nodes' : List ν} (h : Chain next head nodes) (h' : Chain next head nodes') :
    nodes = nodes' := by
  induction nodes generalizing head nodes' with
  | nil =>
      cases nodes' with
      | nil => rfl
      | cons a nodes' => cases h.symm.trans h'.1
  | cons a nodes ih =>
      obtain ⟨hhead, hrest⟩ := chain_cons.mp h
      cases nodes' with
      | nil => cases hhead.symm.trans h'
      | cons b nodes' => grind

variable [DecidableEq ν]

theorem Chain.update (h : Chain next head nodes) (ha : a ∉ nodes) (link : Option ν) :
    Chain (Function.update next a link) head nodes := by
  refine h.congr fun b hb => ?_
  grind

/-- Linked at the front. -/
theorem Chain.push (h : Chain next head nodes) (ha : a ∉ nodes) :
    Chain (Function.update next a head) (some a) (a :: nodes) := by
  refine chain_cons.mpr ⟨rfl, ?_⟩
  rw [Function.update_self]
  exact h.update ha head

/-- Linked after `b`. -/
theorem Chain.insertAfter (h : Chain next head (front ++ b :: back))
    (hnodup : (a :: (front ++ b :: back)).Nodup) :
    Chain (Function.update (Function.update next a (next b)) b (some a)) head
      (front ++ b :: a :: back) := by
  induction front generalizing head with
  | nil =>
      obtain ⟨hhead, hback⟩ := chain_cons.mp h
      obtain ⟨ha, hb⟩ := List.nodup_cons.mp hnodup
      have hab : a ≠ b := fun heq => ha (heq ▸ List.mem_cons_self)
      refine chain_cons.mpr ⟨hhead, ?_⟩
      rw [Function.update_self]
      refine chain_cons.mpr ⟨rfl, ?_⟩
      rw [Function.update_of_ne hab, Function.update_self]
      exact (hback.update (fun hmem => ha (List.mem_cons_of_mem b hmem)) _).update
        (List.nodup_cons.mp hb).1 _
  | cons c front ih => grind

/-- Unlinked behind `b`. -/
theorem Chain.eraseAfter (h : Chain next head (front ++ b :: a :: back))
    (hnodup : (front ++ b :: a :: back).Nodup) :
    Chain (Function.update next b (next a)) head (front ++ b :: back) := by
  induction front generalizing head with
  | nil =>
      obtain ⟨hhead, hb, hback⟩ := h
      grind [hback.update]
  | cons c front ih => grind

end NodeList
