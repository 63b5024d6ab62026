import Mathlib.Data.List.Basic

/-!
# Histories

What a place of a state holds after a run of operations is what the last operation that marked the
place put there.

1. `lastMark` is the mark of the last operation of a run that makes one; which mark an operation
   makes may depend on the state that it meets.
2. `view_foldl` reads a place after a run by its last mark, from what one operation does to it.
3. `lastMark_eq_some_iff` and `lastMark_eq_none_iff` say where in the run the last mark was made.
4. `view_foldl_const` is for marks on which the state has no say.
-/

namespace Handheld.History

variable {σ α μ : Type} (step : σ → α → σ) (mark : σ → α → Option μ)

/-- The mark of the last operation of a run that makes one. -/
def lastMark : σ → List α → Option μ
  | _, [] => none
  | state, op :: rest => (lastMark (step state op) rest).or (mark state op)

variable {step mark}

/-- A mark made under a condition. -/
theorem getD_ite {c : Prop} [Decidable c] (value other : μ) :
    (if c then some value else none).getD other = if c then value else other := by
  split <;> rfl

theorem lastMark_append (first second : List α) :
    ∀ state : σ, lastMark step mark state (first ++ second) =
      (lastMark step mark (first.foldl step state) second).or
        (lastMark step mark state first) := by
  induction first with
  | nil => exact fun state => (Option.or_none ..).symm
  | cons op rest ih =>
    intro state
    show (lastMark step mark (step state op) (rest ++ second)).or (mark state op) = _
    rw [ih, Option.or_assoc]
    rfl

theorem lastMark_split (before : List α) (op : α) (after : List α) (state : σ) :
    lastMark step mark state (before ++ op :: after) =
      ((lastMark step mark (step (before.foldl step state) op) after).or
        (mark (before.foldl step state) op)).or (lastMark step mark state before) :=
  lastMark_append before (op :: after) state

/-- A place that each operation sets to its mark, or leaves where it makes none, holds the last mark
of a run, or what it held before the run where there is none. -/
theorem view_foldl (view : σ → μ)
    (h : ∀ state op, view (step state op) = (mark state op).getD (view state)) (ops : List α) :
    ∀ state, view (ops.foldl step state) =
      (lastMark step mark state ops).getD (view state) := by
  induction ops with
  | nil => exact fun _ => rfl
  | cons op rest ih =>
    intro state
    show view (rest.foldl step (step state op)) =
      ((lastMark step mark (step state op) rest).or (mark state op)).getD (view state)
    rw [ih, h]
    cases lastMark step mark (step state op) rest <;> rfl

/-- A run makes no mark just if none of its operations does. -/
theorem lastMark_eq_none_iff {ops : List α} : ∀ {state : σ},
    lastMark step mark state ops = none ↔
      ∀ before op after, ops = before ++ op :: after →
        mark (before.foldl step state) op = none := by
  induction ops with
  | nil =>
    intro state
    refine iff_of_true rfl fun before op after h => ?_
    exact absurd h.symm (List.append_ne_nil_of_right_ne_nil _ (List.cons_ne_nil _ _))
  | cons first rest ih =>
    intro state
    show (lastMark step mark (step state first) rest).or (mark state first) = none ↔ _
    rw [Option.or_eq_none_iff, ih]
    constructor
    · rintro ⟨hrest, hfirst⟩ before op after h
      cases before with
      | nil =>
        obtain ⟨rfl, rfl⟩ := List.cons.inj h
        exact hfirst
      | cons head before =>
        obtain ⟨rfl, rfl⟩ := List.cons.inj h
        exact hrest before op after rfl
    · intro h
      refine ⟨fun before op after hsplit => ?_, h [] first rest rfl⟩
      exact h (first :: before) op after (congrArg (first :: ·) hsplit)

/-- The last mark of a run is made by one of its operations, and by none after that one. -/
theorem lastMark_eq_some_iff {ops : List α} {value : μ} {state : σ} :
    lastMark step mark state ops = some value ↔
      ∃ before op after, ops = before ++ op :: after ∧
        mark (before.foldl step state) op = some value ∧
        lastMark step mark (step (before.foldl step state) op) after = none := by
  constructor
  · intro h
    induction ops generalizing state with
    | nil => cases h
    | cons first rest ih =>
      rcases Option.or_eq_some_iff.mp h with hrest | ⟨hnone, hfirst⟩
      · obtain ⟨before, op, after, rfl, hmark, hafter⟩ := ih hrest
        exact ⟨first :: before, op, after, rfl, hmark, hafter⟩
      · exact ⟨[], first, rest, rfl, hfirst, hnone⟩
  · rintro ⟨before, op, after, rfl, hmark, hafter⟩
    rw [lastMark_split, hafter, hmark]
    rfl

/-- Where the state has no say in whether an operation makes a mark, a run makes none just if it has
no operation that does. -/
theorem lastMark_eq_none_iff_forall {marks : α → Prop}
    (h : ∀ state op, mark state op = none ↔ ¬ marks op) {ops : List α} : ∀ {state : σ},
    lastMark step mark state ops = none ↔ ∀ op ∈ ops, ¬ marks op := by
  induction ops with
  | nil => simp [lastMark]
  | cons op rest ih =>
    intro state
    show (lastMark step mark (step state op) rest).or (mark state op) = none ↔ _
    rw [Option.or_eq_none_iff, ih, h, List.forall_mem_cons, and_comm]

/-! ## Marks that the operations make by themselves -/

/-- Where the state has no say, the marks of a run are those of its operations in their order. -/
theorem lastMark_const (mark : α → Option μ) (ops : List α) : ∀ state : σ,
    lastMark step (fun _ => mark) state ops = (ops.filterMap mark).getLast? := by
  induction ops with
  | nil => exact fun _ => rfl
  | cons op rest ih =>
    intro state
    show (lastMark step (fun _ => mark) (step state op) rest).or (mark op) = _
    rw [ih]
    cases h : mark op with
    | none => rw [List.filterMap_cons_none h, Option.or_none]
    | some value =>
      rw [List.filterMap_cons_some h, List.getLast?_cons]
      cases (rest.filterMap mark).getLast? <;> rfl

theorem view_foldl_const (view : σ → μ) (mark : α → Option μ)
    (h : ∀ state op, view (step state op) = (mark op).getD (view state)) (ops : List α)
    (state : σ) :
    view (ops.foldl step state) = (ops.filterMap mark).getLast?.getD (view state) := by
  rw [← lastMark_const mark ops state]
  exact view_foldl view h ops state

end Handheld.History
