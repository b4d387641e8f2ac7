import Mathlib.Data.Multiset.Bind

/-!
# Runs of a deterministic system with labels

`step s l` is the state after `l`, or the fault that ends the run. `Reach` collects the
states that runs visit when every step meets a condition on the state before it and its
label, so that a property of all such runs is proved by its preservation in one step.
-/

namespace Run

variable {σ l ε : Type}

/-- Reachable from `s` by steps that meet `ok`. -/
inductive Reach (step : σ → l → Except ε σ) (ok : σ → l → Prop) (s : σ) : σ → Prop
  | refl : Reach step ok s s
  | step {t u : σ} {a : l} : Reach step ok s t → ok t a → step t a = .ok u → Reach step ok s u

variable {step : σ → l → Except ε σ} {ok ok' : σ → l → Prop} {s t : σ}

/-- A computation that goes through has gone through its parts. -/
theorem bind_eq_ok {α β : Type} {x : Except ε α} {f : α → Except ε β} {b : β} :
    x >>= f = .ok b ↔ ∃ a, x = .ok a ∧ f a = .ok b := by
  cases x <;> simp [bind, Except.bind]

theorem map_eq_ok {α β : Type} {x : Except ε α} {f : α → β} {b : β} :
    x.map f = .ok b ↔ ∃ a, x = .ok a ∧ f a = b := by
  cases x <;> simp [Except.map]

/-- A loop that goes through keeps what each of its turns keeps. -/
theorem foldlM_invariant {α β : Type} {I : β → Prop} {f : β → α → Except ε β}
    (hf : ∀ b a b', I b → f b a = .ok b' → I b') {as : List α} {b b' : β} (hb : I b)
    (h : as.foldlM f b = .ok b') : I b' := by
  induction as generalizing b with
  | nil =>
      cases h
      exact hb
  | cons a as ih =>
      rw [List.foldlM_cons] at h
      grind [bind_eq_ok]

/-- A traversal goes through where each of its turns does. -/
theorem mapM_eq_ok {α β : Type} {f : α → Except ε β} {xs : List α} {ys : List β} :
    xs.mapM f = .ok ys ↔ List.Forall₂ (fun x y => f x = .ok y) xs ys := by
  induction xs generalizing ys with
  | nil =>
      rw [List.mapM_nil, List.forall₂_nil_left_iff]
      exact ⟨fun h => (Except.ok.inj h).symm, fun h => h ▸ rfl⟩
  | cons x xs ih =>
      rw [List.mapM_cons, bind_eq_ok, List.forall₂_cons_left_iff]
      simp only [bind_eq_ok, ih]
      constructor
      · rintro ⟨y, hy, ys', hys, hok⟩
        exact ⟨y, ys', hy, hys, (Except.ok.inj hok).symm⟩
      · rintro ⟨y, ys', hy, hys, rfl⟩
        exact ⟨y, hy, ys', hys, rfl⟩

theorem exists_of_forall₂_left {α β : Type} {R : α → β → Prop} {xs : List α} {ys : List β}
    (h : List.Forall₂ R xs ys) {x : α} (hx : x ∈ xs) : ∃ y ∈ ys, R x y := by
  induction h with
  | nil => cases hx
  | @cons a b _ _ hab _ ih => grind

theorem exists_of_forall₂_right {α β : Type} {R : α → β → Prop} {xs : List α} {ys : List β}
    (h : List.Forall₂ R xs ys) {y : β} (hy : y ∈ ys) : ∃ x ∈ xs, R x y :=
  exists_of_forall₂_left h.flip hy

/-- Every fault of a computation satisfies `E`. -/
def Faults {α : Type} (x : Except ε α) (E : ε → Prop) : Prop := ∀ e, x = .error e → E e

namespace Faults

variable {α β : Type} {E : ε → Prop}

theorem pure (a : α) : Faults (.ok a : Except ε α) E := fun _ h => by cases h

theorem error {e : ε} (h : E e) : Faults (.error e : Except ε α) E := fun _ heq => by
  cases heq
  exact h

theorem bind {x : Except ε α} {f : α → Except ε β} (hx : Faults x E)
    (hf : ∀ a, x = .ok a → Faults (f a) E) : Faults (x >>= f) E := by
  intro e he
  cases hxe : x with
  | error e' =>
      rw [hxe] at he
      cases he
      exact hx _ hxe
  | ok a =>
      rw [hxe] at he
      exact hf a hxe e he

theorem map {x : Except ε α} {f : α → β} (hx : Faults x E) : Faults (x.map f) E := by
  intro e he
  cases x with
  | error e' =>
      cases he
      exact hx _ rfl
  | ok a => cases he

theorem mono {x : Except ε α} {E' : ε → Prop} (hx : Faults x E) (h : ∀ e, E e → E' e) :
    Faults x E' :=
  fun e he => h e (hx e he)

end Faults

/-- The faults of a computation satisfy `E`, and its result satisfies `P`. -/
structure Meets {α : Type} (x : Except ε α) (E : ε → Prop) (P : α → Prop) : Prop where
  faults : Faults x E
  result : ∀ a, x = .ok a → P a

namespace Meets

variable {α β : Type} {E : ε → Prop} {P : α → Prop} {Q : β → Prop}

theorem pure {a : α} (h : P a) : Meets (.ok a : Except ε α) E P :=
  ⟨Faults.pure a, fun _ heq => Except.ok.inj heq ▸ h⟩

theorem error {e : ε} (h : E e) : Meets (.error e : Except ε α) E P :=
  ⟨Faults.error h, fun _ heq => by cases heq⟩

theorem bind {x : Except ε α} {f : α → Except ε β} (hx : Meets x E P)
    (hf : ∀ a, P a → Meets (f a) E Q) : Meets (x >>= f) E Q := by
  refine ⟨hx.faults.bind fun a ha => (hf a (hx.result a ha)).faults, fun b hb => ?_⟩
  obtain ⟨a, ha, hrest⟩ := bind_eq_ok.mp hb
  exact (hf a (hx.result a ha)).result b hrest

theorem map {x : Except ε α} {f : α → β} (hx : Meets x E P) (hf : ∀ a, P a → Q (f a)) :
    Meets (x.map f) E Q := by
  refine ⟨hx.faults.map, fun b hb => ?_⟩
  grind [map_eq_ok, hx.result]

theorem mono {x : Except ε α} {P' : α → Prop} (hx : Meets x E P) (h : ∀ a, P a → P' a) :
    Meets x E P' :=
  ⟨hx.faults, fun a ha => h a (hx.result a ha)⟩

theorem weaken {x : Except ε α} {E' : ε → Prop} (hx : Meets x E P) (h : ∀ e, E e → E' e) :
    Meets x E' P :=
  ⟨hx.faults.mono h, hx.result⟩

/-- A loop whose turns keep `P`. -/
theorem foldlM {f : α → β → Except ε α} {bs : List β}
    (hf : ∀ a, ∀ b ∈ bs, P a → Meets (f a b) E P) {a : α} (ha : P a) :
    Meets (bs.foldlM f a) E P := by
  induction bs generalizing a with
  | nil => exact .pure ha
  | cons b bs ih =>
      rw [List.foldlM_cons]
      refine (hf a b List.mem_cons_self ha).bind fun a' ha' => ih ?_ ha'
      exact fun a b hb => hf a b (List.mem_cons_of_mem _ hb)

end Meets

namespace Reach

theorem invariant {I : σ → Prop} (hstart : I s)
    (hstep : ∀ t a u, I t → ok t a → step t a = .ok u → I u) (h : Reach step ok s t) :
    I t := by
  induction h with
  | refl => exact hstart
  | step _ hok hs ih => exact hstep _ _ _ ih hok hs

end Reach

/-- A system whose steps have no faults. -/
def total (f : σ → l → σ) (s : σ) (a : l) : Except Empty σ := .ok (f s a)

theorem Reach.invariant_total {f : σ → l → σ} {I : σ → Prop} (hstart : I s)
    (hstep : ∀ t a, I t → ok t a → I (f t a)) (h : Reach (total f) ok s t) : I t :=
  h.invariant hstart fun t a _ hinv hok heq => Except.ok.inj heq ▸ hstep t a hinv hok

/-- Execute a list of labels whose steps pass `okTest`, and test the last state. -/
def check (step : σ → l → Except ε σ) (okTest : σ → l → Bool) (test : σ → Bool) :
    σ → List l → Bool
  | s, [] => test s
  | s, a :: as =>
      okTest s a &&
        match step s a with
        | .ok s' => check step okTest test s' as
        | .error _ => false

/-- An execution that passes its tests is a run. -/
theorem exists_reach_of_check {okTest : σ → l → Bool} {test : σ → Bool} {as : List l}
    (hsound : ∀ s a, okTest s a = true → ok s a) (h : check step okTest test s as = true) :
    ∃ t, Reach step ok s t ∧ test t = true := by
  suffices ∀ s₀, Reach step ok s₀ s → ∃ t, Reach step ok s₀ t ∧ test t = true from this s .refl
  induction as generalizing s with
  | nil => exact fun _ hr => ⟨s, hr, h⟩
  | cons a as ih =>
      intro s₀ hr
      rw [check, Bool.and_eq_true] at h
      obtain ⟨hok, hrest⟩ := h
      split at hrest
      · rename_i s' hs
        exact ih hrest s₀ (.step hr (hsound s a hok) hs)
      · cases hrest

end Run
