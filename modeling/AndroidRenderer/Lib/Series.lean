import Mathlib.Data.List.Sort
import Mathlib.Data.List.Flatten

/-!
# Series of events in time order

A series is an event that is repeated at an interval. A reader takes series from a list that is
ordered by their first events, and keeps those that have events to come in a list that is ordered
by the next of these. `Next` is one event; a run of events is a permutation of all that the series
stand for, and in time order.
-/

/-- `label` at `time`, and `repeats` more times at distances of `interval`. -/
structure Series (α : Type) where
  label : α
  time : Nat
  repeats : Nat
  interval : Nat

namespace Series

variable {α : Type} {s s' p r : Series α} {e : Nat × α} {n : Nat}
  {pending pending' todo todo' : List (Series α)} {es : List (Nat × α)}

def first (s : Series α) : Nat × α := (s.time, s.label)

def last (s : Series α) : Nat := s.time + s.repeats * s.interval

def events (s : Series α) : List (Nat × α) :=
  (List.range (s.repeats + 1)).map fun k => (s.time + k * s.interval, s.label)

/-- What is left of a series behind its first event. -/
def rest? (s : Series α) : Option (Series α) :=
  if 0 < s.repeats then
    some { s with time := s.time + s.interval, repeats := s.repeats - 1 }
  else none

theorem rest?_eq_none (h : s.rest? = none) : s.repeats = 0 := by
  unfold rest? at h
  grind

theorem rest?_eq_some (h : s.rest? = some s') :
    0 < s.repeats ∧ s' = { s with time := s.time + s.interval, repeats := s.repeats - 1 } := by
  unfold rest? at h
  grind

theorem time_le_last (s : Series α) : s.time ≤ s.last := Nat.le_add_right _ _

theorem last_of_rest (h : s.rest? = some s') : s'.last = s.last := by
  obtain ⟨hpos, rfl⟩ := rest?_eq_some h
  obtain ⟨k, hk⟩ := Nat.exists_eq_add_of_lt hpos
  simp only [last, hk, Nat.zero_add, Nat.add_sub_cancel, Nat.add_mul, Nat.one_mul]
  omega

theorem time_le_of_rest (h : s.rest? = some s') : s.time ≤ s'.time := by
  obtain ⟨-, rfl⟩ := rest?_eq_some h
  exact Nat.le_add_right _ _

theorem events_of_rest (h : s.rest? = some s') : s.events = s.first :: s'.events := by
  obtain ⟨hpos, rfl⟩ := rest?_eq_some h
  have hrepeats : s.repeats - 1 + 1 = s.repeats := by omega
  rw [events, List.range_succ_eq_map, List.map_cons, List.map_map, events, first]
  simp [Nat.add_mul, Nat.add_assoc, Nat.add_comm, hrepeats]

theorem events_of_last (h : s.rest? = none) : s.events = [s.first] := by
  rw [events, rest?_eq_none h]
  simp [first]

theorem time_le_of_mem (h : e ∈ s.events) : s.time ≤ e.1 := by
  obtain ⟨k, -, rfl⟩ := List.mem_map.mp h
  exact Nat.le_add_right _ _

/-! ## The list of what is to come -/

def NoLater (a b : Series α) : Prop := a.time ≤ b.time

instance : DecidableRel (@NoLater α) := fun a b => inferInstanceAs (Decidable (a.time ≤ b.time))

instance : Std.Total (@NoLater α) := ⟨fun a b => Nat.le_total a.time b.time⟩

instance : IsTrans (Series α) NoLater := ⟨fun _ _ _ => Nat.le_trans⟩

/-- In front of the first series whose next event is not earlier. -/
def insert (pending : List (Series α)) (s : Series α) : List (Series α) :=
  pending.orderedInsert NoLater s

/-- The place is behind the series that are earlier. -/
theorem insert_split {front back : List (Series α)} (hfront : ∀ p ∈ front, p.time < s.time)
    (hback : ∀ p ∈ back.head?, s.time ≤ p.time) :
    insert (front ++ back) s = front ++ s :: back := by
  induction front with
  | nil =>
      cases back with
      | nil => rfl
      | cons p back => exact List.orderedInsert_cons_of_le _ _ (hback p rfl)
  | cons p front ih =>
      have hp : ¬NoLater s p := Nat.not_le.mpr (hfront p List.mem_cons_self)
      grind [insert]

def insert? (pending : List (Series α)) : Option (Series α) → List (Series α)
  | none => pending
  | some s => insert pending s

theorem insert_perm (pending : List (Series α)) (s : Series α) :
    (insert pending s).Perm (s :: pending) :=
  List.perm_orderedInsert _ s pending

theorem mem_insert : s' ∈ insert pending s ↔ s' = s ∨ s' ∈ pending :=
  List.mem_orderedInsert _

def allEvents (ss : List (Series α)) : List (Nat × α) := ss.flatMap events

theorem allEvents_cons (s : Series α) (ss : List (Series α)) :
    allEvents (s :: ss) = s.events ++ allEvents ss := rfl

theorem allEvents_perm (h : pending.Perm pending') :
    (allEvents pending).Perm (allEvents pending') :=
  h.flatMap_right _

theorem events_insert (s : Series α) (pending : List (Series α)) :
    (s.events ++ allEvents pending).Perm (s.first :: allEvents (insert? pending s.rest?)) := by
  cases hrest : s.rest? with
  | none =>
      rw [events_of_last hrest]
      exact .refl _
  | some s' =>
      rw [events_of_rest hrest, List.cons_append]
      exact ((allEvents_perm (insert_perm pending s')).symm).cons _

/-- The series to come are ordered by their next events, and those to be taken by their first. -/
structure Ordered (pending todo : List (Series α)) : Prop where
  pending : pending.Pairwise NoLater
  todo : todo.Pairwise NoLater

theorem insert?_pairwise (h : pending.Pairwise NoLater) (s? : Option (Series α)) :
    (insert? pending s?).Pairwise NoLater := by
  cases s? with
  | none => exact h
  | some s => exact h.orderedInsert s pending

/-! ## One event -/

/-- The next event is the earlier of the next one to come and the first of the next series; of two
events at one time, the latter. -/
inductive Next : List (Series α) → List (Series α) → Nat × α → List (Series α) →
    List (Series α) → Prop
  | fire {p : Series α} {ps todo : List (Series α)} : (∀ r ∈ todo.head?, p.time < r.time) →
      Next (p :: ps) todo p.first (insert? ps p.rest?) todo
  | take {r : Series α} {pending rs : List (Series α)} : (∀ p ∈ pending.head?, r.time ≤ p.time) →
      Next pending (r :: rs) r.first (insert? pending r.rest?) rs

theorem Next.perm (h : Next pending todo e pending' todo') :
    (allEvents pending ++ allEvents todo).Perm (e :: (allEvents pending' ++ allEvents todo')) := by
  cases h with
  | fire _ => exact (events_insert _ _).append_right _
  | @take r _ _ _ =>
      have hevents := (events_insert r pending).append_right (allEvents todo')
      refine List.Perm.trans ?_ hevents
      rw [allEvents_cons, ← List.append_assoc]
      exact List.perm_append_comm.append_right _

theorem Next.ordered (h : Next pending todo e pending' todo') (hordered : Ordered pending todo) :
    Ordered pending' todo' := by
  cases h with
  | fire _ => exact ⟨insert?_pairwise (List.pairwise_cons.mp hordered.pending).2 _, hordered.todo⟩
  | take _ => exact ⟨insert?_pairwise hordered.pending _, (List.pairwise_cons.mp hordered.todo).2⟩

/-- No series has an event before `time`. -/
def From (time : Nat) (ss : List (Series α)) : Prop := ∀ s ∈ ss, time ≤ s.time

theorem From.insert? {time : Nat} (h : From time pending) (hs : time ≤ s.time) :
    From time (insert? pending s.rest?) := by
  cases hrest : s.rest? with
  | none => exact h
  | some s' =>
      intro a ha
      obtain rfl | ha := mem_insert.mp ha
      · exact Nat.le_trans hs (time_le_of_rest hrest)
      · exact h a ha

theorem from_of_head {time : Nat} (h : pending.Pairwise NoLater)
    (hhead : ∀ p ∈ pending.head?, time ≤ p.time) : From time pending := by
  cases pending with
  | nil => exact fun s hs => (nomatch hs)
  | cons p ps =>
      intro s hs
      have hp : time ≤ p.time := hhead p rfl
      obtain rfl | hs := List.mem_cons.mp hs
      · exact hp
      · exact Nat.le_trans hp ((List.pairwise_cons.mp h).1 s hs)

/-- What is left begins no earlier than the event. -/
theorem Next.from (h : Next pending todo e pending' todo') (hordered : Ordered pending todo) :
    From e.1 pending' ∧ From e.1 todo' := by
  cases h with
  | @fire p ps todo hhead =>
      have hps := (List.pairwise_cons.mp hordered.pending).1
      exact ⟨From.insert? (fun s hs => hps s hs) (Nat.le_refl _),
        from_of_head hordered.todo fun r hr => Nat.le_of_lt (hhead r hr)⟩
  | take hhead =>
      exact ⟨From.insert? (from_of_head hordered.pending hhead) (Nat.le_refl _),
        fun s hs => (List.pairwise_cons.mp hordered.todo).1 s hs⟩

/-! ## Room -/

/-- When a series is taken, it and those that were taken before it are at most `n` that have
events to come. -/
def AtMost (n : Nat) (todo : List (Series α)) : Prop :=
  ∀ front r back, todo = front ++ r :: back →
    (front ++ [r]).countP (fun s => 0 < s.repeats ∧ r.time ≤ s.last) ≤ n

/-- There is room where no more series than `n` have repeats. -/
theorem atMost_of_repeating (h : todo.countP (fun s => 0 < s.repeats) ≤ n) : AtMost n todo := by
  rintro front r back rfl
  refine Nat.le_trans ?_ h
  have hsub : (front ++ [r]).Sublist (front ++ r :: back) :=
    (List.Sublist.refl front).append (List.Sublist.cons_cons r (List.nil_sublist back))
  refine Nat.le_trans (List.countP_mono_left fun s _ hs => ?_) hsub.countP_le
  grind

/-- The same, where some series were taken already. -/
def Room (n : Nat) (pending todo : List (Series α)) : Prop :=
  ∀ front r back, todo = front ++ r :: back →
    pending.countP (fun s => r.time ≤ s.last) +
      (front ++ [r]).countP (fun s => 0 < s.repeats ∧ r.time ≤ s.last) ≤ n

theorem room_nil (h : AtMost n todo) : Room n [] todo := by
  intro front r back heq
  rw [List.countP_nil, Nat.zero_add]
  exact h front r back heq

theorem countP_insert? (f : Nat → Bool) (s : Series α) (pending : List (Series α)) :
    (insert? pending s.rest?).countP (fun s => f s.last) =
      pending.countP (fun s => f s.last) + if 0 < s.repeats ∧ f s.last = true then 1 else 0 := by
  cases hrest : s.rest? with
  | none =>
      rw [if_neg (by rw [rest?_eq_none hrest]; omega), Nat.add_zero]
      rfl
  | some s' =>
      have hperm := (insert_perm pending s').countP_eq fun s => f s.last
      rw [insert?, hperm, List.countP_cons, last_of_rest hrest]
      simp [(rest?_eq_some hrest).1]

theorem Next.room (h : Next pending todo e pending' todo') (hroom : Room n pending todo) :
    Room n pending' todo' := by
  cases h with
  | @fire p ps todo _ =>
      intro front r back heq
      refine Nat.le_trans (Nat.add_le_add_right ?_ _) (hroom front r back heq)
      rw [countP_insert? (fun last => r.time ≤ last), List.countP_cons]
      split <;> simp_all
  | @take r₀ pending rs _ =>
      intro front r back heq
      have hall := hroom (r₀ :: front) r back (by rw [heq, List.cons_append])
      rw [countP_insert? (fun last => r.time ≤ last)]
      grind

theorem room_take (hordered : Ordered pending (r :: todo)) (hroom : Room n pending (r :: todo))
    (hhead : ∀ p ∈ pending.head?, r.time ≤ p.time) (hrepeats : 0 < r.repeats) :
    pending.length + 1 ≤ n := by
  have hfrom := from_of_head hordered.pending hhead
  have hall := hroom [] r todo rfl
  have hpending : pending.countP (fun s => r.time ≤ s.last) = pending.length := by
    apply List.countP_eq_length.mpr
    intro s hs
    exact decide_eq_true (Nat.le_trans (hfrom s hs) s.time_le_last)
  rw [hpending, List.nil_append, List.countP_singleton] at hall
  simpa [hrepeats, r.time_le_last] using hall

/-! ## Runs -/

/-- All events, until there are none left. -/
inductive Runs : List (Series α) → List (Series α) → List (Nat × α) → Prop
  | done : Runs [] [] []
  | next {pending todo pending' todo' : List (Series α)} {e : Nat × α} {es : List (Nat × α)} :
      Next pending todo e pending' todo' → Runs pending' todo' es → Runs pending todo (e :: es)

theorem Runs.perm (h : Runs pending todo es) :
    es.Perm (allEvents pending ++ allEvents todo) := by
  induction h with
  | done => exact .refl _
  | next hnext _ ih => exact (ih.cons _).trans hnext.perm.symm

theorem Runs.sorted (h : Runs pending todo es) (hordered : Ordered pending todo) :
    es.Pairwise fun a b => a.1 ≤ b.1 := by
  induction h with
  | done => exact .nil
  | next hnext hruns ih =>
      refine List.pairwise_cons.mpr ⟨fun e' he' => ?_, ih (hnext.ordered hordered)⟩
      obtain ⟨hpending, htodo⟩ := hnext.from hordered
      obtain he' | he' := List.mem_append.mp (hruns.perm.mem_iff.mp he')
      · obtain ⟨s, hs, hevent⟩ := List.mem_flatMap.mp he'
        exact Nat.le_trans (hpending s hs) (time_le_of_mem hevent)
      · obtain ⟨s, hs, hevent⟩ := List.mem_flatMap.mp he'
        exact Nat.le_trans (htodo s hs) (time_le_of_mem hevent)

end Series
