import WallPanel.Geometry.Arc
import WallPanel.Proofs.Number.Exact

/-!
# Sweeps

The angle from one direction to another is found by adding turns to a difference, in one case until
it is not negative and in the other until it is positive. In exact arithmetic the two agree where
the first is positive (`signedSweep_of_pos`). For directions that are angles of vectors no more than
one turn is added, so that the angle is at most a full turn (`unsignedSweep_mem`).
-/

namespace WallPanel

open Scalar.Exact

variable {α : Type} [Scalar α]

/-! ## Adding turns -/

theorem addTurns_of_reached (isShort : α → Bool) {x : α} (n : Nat) (h : isShort x = false) :
    addTurns isShort n x = x := by
  cases n with
  | zero => rfl
  | succ n => simp [addTurns, h]

theorem addTurns_succ_of_short (isShort : α → Bool) {x : α} (n : Nat) (h : isShort x = true) :
    addTurns isShort (n + 1) x = addTurns isShort n (x + fullTurn) := by
  simp [addTurns, h]

section Exact

variable [Scalar.Exact α] {x start stop : α} {clockwise : Bool}

@[simp]
theorem real_fullTurn : real (fullTurn : α) = 2 * Real.pi := by
  simp only [fullTurn, real_mul, real_ofScientific, real_pi]
  norm_num

@[simp]
theorem real_zero : real (0.0 : α) = 0 := by
  rw [real_ofScientific]
  norm_num

theorem zero_lt_iff : 0.0 < x ↔ 0 < real x := by
  rw [lt_iff, real_zero]

/-- If adding turns until an angle is not negative makes it positive, then adding turns until it is
positive makes the same of it. -/
theorem addTurns_nonpos (n : Nat) (x : α)
    (h : 0.0 < addTurns (fun a : α => decide (a < 0.0)) n x) :
    addTurns (fun a : α => decide (a ≤ 0.0)) n x =
      addTurns (fun a : α => decide (a < 0.0)) n x := by
  induction n generalizing x with
  | zero => rfl
  | succ n ih =>
    by_cases hx : x < 0.0
    · have hle : x ≤ 0.0 := le_iff.mpr (lt_iff.mp hx).le
      have hturn := addTurns_succ_of_short (fun a : α => a < 0.0) n (decide_eq_true hx)
      rw [hturn] at h ⊢
      rw [addTurns_succ_of_short (fun a : α => a ≤ 0.0) n (decide_eq_true hle), ih _ h]
    · have hstop := addTurns_of_reached (fun a : α => a < 0.0) (n + 1) (decide_eq_false hx)
      rw [hstop] at h ⊢
      have hle : ¬x ≤ 0.0 := fun hle => absurd (lt_iff.mp h) (not_lt.mpr (le_iff.mp hle))
      exact addTurns_of_reached (fun a : α => a ≤ 0.0) (n + 1) (decide_eq_false hle)

/-! ## Sweeps -/

/-- A positive sweep gets the sign of its sense of rotation. -/
theorem signedSweep_of_pos (h : 0.0 < unsignedSweep start stop clockwise) :
    signedSweep start stop clockwise =
      if clockwise then -unsignedSweep start stop clockwise
      else unsignedSweep start stop clockwise := by
  unfold signedSweep
  dsimp only
  rw [addTurns_nonpos _ _ h]
  rfl

theorem unsignedSweep_of_nonneg (h : 0 ≤ real (directedDifference start stop clockwise)) :
    unsignedSweep start stop clockwise = directedDifference start stop clockwise := by
  refine addTurns_of_reached _ _ (decide_eq_false ?_)
  rwa [lt_iff, real_zero, not_lt]

/-- A difference of at most a full turn becomes an angle of at most a full turn. -/
theorem unsignedSweep_mem_of_difference
    (h : |real (directedDifference start stop clockwise)| ≤ 2 * Real.pi) :
    0 ≤ real (unsignedSweep start stop clockwise) ∧
      real (unsignedSweep start stop clockwise) ≤ 2 * Real.pi := by
  obtain ⟨hlow, hhigh⟩ := abs_le.mp h
  by_cases hd : directedDifference start stop clockwise < 0.0
  · unfold unsignedSweep
    dsimp only
    generalize directedDifference start stop clockwise = d at hlow hd
    have hneg : real d < 0 := by rwa [lt_iff, real_zero] at hd
    have hstop : ¬d + fullTurn < 0.0 := by
      rw [lt_iff, real_add, real_fullTurn, real_zero]
      linarith
    have hturn : addTurns (fun a : α => decide (a < 0.0)) (turnsNeeded d) d = d + fullTurn := by
      rw [turnsNeeded, addTurns_succ_of_short (fun a : α => a < 0.0) _ (decide_eq_true hd)]
      exact addTurns_of_reached (fun a : α => a < 0.0) _ (decide_eq_false hstop)
    rw [hturn, real_add, real_fullTurn]
    exact ⟨by linarith, by linarith⟩
  · have hnonneg : 0 ≤ real (directedDifference start stop clockwise) := by
      rwa [lt_iff, real_zero, not_lt] at hd
    rw [unsignedSweep_of_nonneg hnonneg]
    exact ⟨hnonneg, hhigh⟩

/-- Directions no further than a half turn from zero are no more than a full turn apart. -/
theorem unsignedSweep_mem (hstart : -Scalar.pi ≤ start ∧ start ≤ Scalar.pi)
    (hstop : -Scalar.pi ≤ stop ∧ stop ≤ Scalar.pi) :
    0 ≤ real (unsignedSweep start stop clockwise) ∧
      real (unsignedSweep start stop clockwise) ≤ 2 * Real.pi := by
  simp only [le_iff, real_neg, real_pi] at hstart hstop
  refine unsignedSweep_mem_of_difference (abs_le.mpr ?_)
  cases clockwise
  · simp only [directedDifference, Bool.false_eq_true, if_false, real_sub]
    constructor <;> linarith [hstart.1, hstart.2, hstop.1, hstop.2]
  · simp only [directedDifference, if_true, real_sub]
    constructor <;> linarith [hstart.1, hstart.2, hstop.1, hstop.2]

end Exact

end WallPanel
