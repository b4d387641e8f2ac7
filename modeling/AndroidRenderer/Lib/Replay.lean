import AndroidRenderer.Lib.Run

/-!
# Replay of records by time

Records in the order of their times are handled up to the time of a query, which is answered from
the state then. Where the queries are in the order of their times too, each one is answered as if
all records up to its time had been handled for it alone (`answers_eq`).

A reader that looks ahead keeps the first record that is not due. It answers the same queries
(`asks_eq`), as long as they come before the time that stands for the end of the records.
-/

namespace Replay

open Run

variable {σ α κ β τ ε : Type} [LinearOrder τ]

section Answers

variable (handle : σ → α → Except ε σ) (time : α → τ)

/-- The leading records that are due are handled; the others are left. -/
def advance (t : τ) : List α → σ → Except ε (σ × List α)
  | [], s => .ok (s, [])
  | a :: as, s => if time a ≤ t then handle s a >>= advance t as else .ok (s, a :: as)

def due (t : τ) (as : List α) : List α := as.filter fun a => time a ≤ t

/-- The records that are not due yet. -/
def later (t : τ) (as : List α) : List α := as.filter fun a => t < time a

/-- The records that are due at some query. -/
def dueAny (moment : κ → τ) (qs : List κ) (as : List α) : List α :=
  as.filter fun a => qs.any fun q => time a ≤ moment q

/-- Queries one after another, each with what it reads from the state. -/
def answers (moment : κ → τ) (obs : σ → κ → β) : List κ → List α → σ → Except ε (List β)
  | [], _, _ => .ok []
  | q :: qs, as, s =>
      advance handle time (moment q) as s >>= fun r =>
        (answers moment obs qs r.2 r.1).map fun bs => obs r.1 q :: bs

variable {handle time}

/-- A record that is due comes to the due ones. -/
theorem due_cons {t : τ} {a : α} (h : time a ≤ t) (as : List α) :
    due time t (a :: as) = a :: due time t as :=
  List.filter_cons_of_pos (decide_eq_true h)

theorem later_cons {t : τ} {a : α} (h : time a ≤ t) (as : List α) :
    later time t (a :: as) = later time t as :=
  List.filter_cons_of_neg (by rw [decide_eq_true_eq, not_lt]; exact h)

variable {as : List α}

/-- Behind a record that is not due none is. -/
theorem later_eq_self {t : τ} {a : α}
    (hsorted : (a :: as).Pairwise (time · ≤ time ·)) (h : t < time a) :
    later time t (a :: as) = a :: as := by
  refine List.filter_eq_self.mpr fun b hb => decide_eq_true ?_
  rcases List.mem_cons.mp hb with rfl | hb
  · exact h
  · exact lt_of_lt_of_le h (List.rel_of_pairwise_cons hsorted hb)

theorem later_sorted {t : τ} (hsorted : as.Pairwise (time · ≤ time ·)) :
    (later time t as).Pairwise (time · ≤ time ·) :=
  hsorted.filter _

theorem due_eq_nil {t : τ} {a : α} (hsorted : (a :: as).Pairwise (time · ≤ time ·))
    (h : t < time a) : due time t (a :: as) = [] := by
  refine List.filter_eq_nil_iff.mpr fun b hb => ?_
  rw [← later_eq_self hsorted h] at hb
  have hlater := of_decide_eq_true (List.mem_filter.mp hb).2
  grind

/-- Sorted records are handled if and only if they are due. -/
theorem advance_eq {t : τ} (hsorted : as.Pairwise (time · ≤ time ·)) (s : σ) :
    advance handle time t as s =
      ((due time t as).foldlM handle s).map fun s => (s, later time t as) := by
  induction as generalizing s with
  | nil => rfl
  | cons a as ih =>
      rw [advance]
      by_cases ha : time a ≤ t
      · rw [if_pos ha, due_cons ha, later_cons ha, List.foldlM_cons]
        cases handle s a with
        | error e => rfl
        | ok s' => exact ih hsorted.of_cons s'
      · rw [if_neg ha, due_eq_nil hsorted (not_le.mp ha), later_eq_self hsorted (not_le.mp ha)]
        rfl

/-- The records up to a time come first among those that satisfy a weaker condition. -/
theorem filter_eq_due_append {t : τ} (hsorted : as.Pairwise (time · ≤ time ·))
    {p : α → Bool} (hp : ∀ a, time a ≤ t → p a = true) :
    as.filter p = due time t as ++ (later time t as).filter p := by
  induction as with
  | nil => rfl
  | cons a as ih =>
      by_cases ha : time a ≤ t
      · rw [due_cons ha, later_cons ha, List.filter_cons_of_pos (hp a ha), ih hsorted.of_cons]
        rfl
      · rw [due_eq_nil hsorted (not_le.mp ha), later_eq_self hsorted (not_le.mp ha),
          List.nil_append]

/-- Each query is answered as after the records that are due then, and all of them go through if
the records that are due at some query do. -/
theorem answers_eq (spec : List α → κ → β) {moment : κ → τ} {obs : σ → κ → β} {qs : List κ} {s : σ}
    (hsorted : as.Pairwise (time · ≤ time ·))
    (hqs : qs.Pairwise (moment · ≤ moment ·))
    (hspec : ∀ l s', l.foldlM handle s = .ok s' → ∀ q, obs s' q = spec l q) :
    answers handle time moment obs qs as s =
      ((dueAny time moment qs as).foldlM handle s).map fun _ =>
        qs.map fun q => spec (due time (moment q) as) q := by
  induction qs generalizing as s spec with
  | nil =>
      have hnone : dueAny time moment [] as = [] :=
        List.filter_eq_nil_iff.mpr fun a _ => by rw [List.any_nil]; exact Bool.false_ne_true
      rw [hnone]
      rfl
  | cons q qs ih =>
      have hany : dueAny time moment (q :: qs) as = due time (moment q) as ++
          dueAny time moment qs (later time (moment q) as) := by
        have hp : ∀ a, time a ≤ moment q → ((q :: qs).any fun q => time a ≤ moment q) = true :=
          fun a ha => by rw [List.any_cons, decide_eq_true ha, Bool.true_or]
        rw [dueAny, filter_eq_due_append hsorted hp]
        refine congrArg _ (List.filter_congr fun a ha => ?_)
        have hlater := of_decide_eq_true (List.mem_filter.mp ha).2
        grind
      rw [answers, advance_eq hsorted, hany, List.foldlM_append]
      cases hdue : (due time (moment q) as).foldlM handle s with
      | error e => rfl
      | ok s₁ =>
          have hspec' : ∀ l s', l.foldlM handle s₁ = .ok s' →
              ∀ q', obs s' q' = spec (due time (moment q) as ++ l) q' := by
            intro l s' hl
            refine hspec _ s' ?_
            rw [List.foldlM_append, hdue]
            exact hl
          have hlater : (later time (moment q) as).Pairwise (time · ≤ time ·) :=
            later_sorted hsorted
          have hrest := ih _ hlater hqs.of_cons hspec'
          change (answers handle time moment obs qs _ s₁).map _ =
            Except.map _ (List.foldlM handle s₁ (dueAny time moment qs (later time (moment q) as)))
          rw [hrest]
          cases (dueAny time moment qs (later time (moment q) as)).foldlM
              handle s₁ with
          | error e => rfl
          | ok s₂ =>
              change Except.ok _ = Except.ok _
              rw [List.map_cons, hspec _ _ hdue]
              refine congrArg (fun bs => Except.ok (_ :: bs)) (List.map_congr_left fun q' hq' => ?_)
              have hle : moment q ≤ moment q' := List.rel_of_pairwise_cons hqs hq'
              have happend : due time (moment q') as = due time (moment q) as ++
                  due time (moment q') (later time (moment q) as) :=
                filter_eq_due_append hsorted fun a ha => decide_eq_true (le_trans ha hle)
              rw [happend]

end Answers

/-! ## A record kept ahead -/

section Ahead

variable (handle : σ → α → Except ε σ) (time : α → τ) (mark : α → α)

/-- The kept record is handled and the next one read, until one is not due; at the end of the
records the kept one is marked. -/
def readOn (t : τ) : List α → σ → α → Except ε (σ × α × List α)
  | [], s, next => (handle s next).map fun s => (s, mark next, [])
  | a :: as, s, next =>
      handle s next >>= fun s => if t < time a then .ok (s, a, as) else readOn t as s a

/-- A query, where `next` is the record that is kept. -/
def ask (t : τ) (s : σ) (next : α) (rest : List α) : Except ε (σ × α × List α) :=
  if t < time next then .ok (s, next, rest) else readOn handle time mark t rest s next

/-- Queries one after another. -/
def asks (moment : κ → τ) (obs : σ → κ → β) : List κ → σ → α → List α → Except ε (List β)
  | [], _, _, _ => .ok []
  | q :: qs, s, next, rest =>
      ask handle time mark (moment q) s next rest >>= fun r =>
        (asks moment obs qs r.1 r.2.1 r.2.2).map fun bs => obs r.1 q :: bs

variable {time}

/-- The kept record and the rest, for the records that are still to be handled. -/
def keep (marked : α) : List α → α × List α
  | [] => (marked, [])
  | a :: as => (a, as)

/-- The loop handles what is due. -/
theorem readOn_eq {t : τ} {next : α} (hnext : time next ≤ t) (rest : List α) (s : σ) :
    ∃ a, readOn handle time mark t rest s next =
      (advance handle time t (next :: rest) s).map fun r => (r.1, keep (mark a) r.2) := by
  induction rest generalizing next s with
  | nil =>
      refine ⟨next, ?_⟩
      rw [readOn, advance, if_pos hnext]
      cases handle s next with
      | error e => rfl
      | ok s' => rfl
  | cons a as ih =>
      rw [readOn, advance, if_pos hnext]
      cases handle s next with
      | error e => exact ⟨a, rfl⟩
      | ok s' =>
          change ∃ b, (if t < time a then Except.ok (s', a, as)
            else readOn handle time mark t as s' a) =
              (advance handle time t (a :: as) s').map _
          by_cases ha : t < time a
          · rw [if_pos ha, advance, if_neg (not_le.mpr ha)]
            exact ⟨a, rfl⟩
          · rw [if_neg ha]
            exact ih (not_lt.mp ha) s'

/-- A query handles what is due, where the mark of the end is never due. -/
theorem ask_eq {last t : τ} (hmark : ∀ a, time (mark a) = last) (ht : t < last) {marked : α}
    (hmarked : time marked = last) (as : List α) (s : σ) :
    ∃ marked', time marked' = last ∧
      ask handle time mark t s (keep marked as).1 (keep marked as).2 =
        (advance handle time t as s).map fun r => (r.1, keep marked' r.2) := by
  cases as with
  | nil =>
      refine ⟨marked, hmarked, ?_⟩
      rw [keep, ask, if_pos (hmarked ▸ ht)]
      rfl
  | cons a as =>
      rw [keep, ask]
      by_cases ha : t < time a
      · refine ⟨marked, hmarked, ?_⟩
        rw [if_pos ha, advance, if_neg (not_le.mpr ha)]
        rfl
      · obtain ⟨b, hread⟩ := readOn_eq handle mark (not_lt.mp ha) as s
        grind

theorem asks_eq {last : τ} {moment : κ → τ} {obs : σ → κ → β} {qs : List κ}
    (hmark : ∀ a, time (mark a) = last) (hqs : ∀ q ∈ qs, moment q < last) {marked : α}
    (hmarked : time marked = last) (as : List α) (s : σ) :
    asks handle time mark moment obs qs s (keep marked as).1 (keep marked as).2 =
      answers handle time moment obs qs as s := by
  induction qs generalizing marked as s with
  | nil => rfl
  | cons q qs ih =>
      obtain ⟨marked', hmarked', hask⟩ :=
        ask_eq handle mark hmark (hqs q List.mem_cons_self) hmarked as s
      rw [asks, answers, hask]
      cases advance handle time (moment q) as s with
      | error e => rfl
      | ok r =>
          have hrest := ih (fun q' hq' => hqs q' (List.mem_cons_of_mem _ hq')) hmarked' r.2 r.1
          exact congrArg (Except.map _) hrest

end Ahead

end Replay
