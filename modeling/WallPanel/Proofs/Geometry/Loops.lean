import WallPanel.Geometry.Point
import WallPanel.Proofs.Number.Distance

/-!
# Vertices that are apart

Of a run that was freed of repeated vertices, no point is near the one before it
(`isChain_dedupe`). Around a loop of such points only the last can be near the first
(`closureViolations_of_isChain`). A run that ends near its start loses its last point, and no more
than that one: nearness does not carry over from a point to the next, so the point before may be
near the start as well (`closureViolations_closePath`).
-/

namespace WallPanel

variable {α : Type} [Scalar α]

/-- Two points that do not count as one vertex. -/
def Point.Apart (p q : Point α) : Prop := p.near q = false

/-! ## Runs without repeated vertices -/

theorem isChain_dedupeAfter (p : Point α) (ps : List (Point α)) :
    (p :: dedupeAfter (some p) ps).IsChain Point.Apart := by
  induction ps generalizing p with
  | nil => exact .singleton p
  | cons q ps ih =>
    rw [dedupeAfter]
    split
    · next h =>
      have hpq : p.near q = false := by simpa using (Bool.and_eq_true_iff.mp h).2
      exact .cons_cons hpq (ih q)
    · exact ih p

/-- In a run without repeated vertices no point is near the one before it. -/
theorem isChain_dedupe (ps : List (Point α)) : (dedupe ps).IsChain Point.Apart := by
  unfold dedupe
  induction ps with
  | nil => exact .nil
  | cons p ps ih =>
    rw [dedupeAfter]
    split
    · exact isChain_dedupeAfter p ps
    · exact ih

theorem isFinite_of_mem_dedupeAfter {p : Point α} {last : Option (Point α)}
    {ps : List (Point α)} (h : p ∈ dedupeAfter last ps) : p.isFinite = true := by
  induction ps generalizing last with
  | nil => cases h
  | cons q ps ih =>
    rw [dedupeAfter] at h
    split at h
    · next hq =>
      rcases List.mem_cons.mp h with rfl | h
      · exact (Bool.and_eq_true_iff.mp hq).1
      · exact ih h
    · exact ih h

theorem isFinite_of_mem_dedupe {p : Point α} {ps : List (Point α)} (h : p ∈ dedupe ps) :
    p.isFinite = true :=
  isFinite_of_mem_dedupeAfter h

/-- Nor is a vertex near the one before it. -/
theorem isChain_closePath {ps : List (Point α)} (h : ps.IsChain Point.Apart) :
    (closePath ps).1.IsChain Point.Apart := by
  unfold closePath
  split
  · exact h.dropLast
  · exact h

/-- Two points that are kept are apart. -/
theorem isClosedLoop_of_length_eq_two {ps : List (Point α)} (h : (dedupe ps).length = 2) :
    isClosedLoop (dedupe ps) = false := by
  have hchain := isChain_dedupe ps
  match hd : dedupe ps, h with
  | [p, q], _ =>
    rw [hd] at hchain
    have hpq : p.Apart q := List.isChain_pair.mp hchain
    exact hpq

/-- A run that keeps two points has two vertices. -/
theorem length_closePath_dedupe {ps : List (Point α)} (h : 2 ≤ (dedupe ps).length) :
    2 ≤ (closePath (dedupe ps)).1.length := by
  unfold closePath
  split
  · next hc =>
    have hne : (dedupe ps).length ≠ 2 := fun htwo => by
      rw [isClosedLoop_of_length_eq_two htwo] at hc
      cases hc
    rw [List.length_dropLast]
    omega
  · exact h

/-! ## Loops -/

/-- With what follows its last point, a run without repeated vertices has at most one pair of near
neighbours, the last. -/
theorem countP_zip_of_isChain (p q : Point α) {ps : List (Point α)}
    (h : (p :: ps).IsChain Point.Apart) :
    ((p :: ps).zip (ps ++ [q])).countP (fun (a, b) => a.near b) =
      if ((p :: ps).getLast (List.cons_ne_nil _ _)).near q then 1 else 0 := by
  induction ps generalizing p with
  | nil => cases hpq : p.near q <;> simp [hpq]
  | cons r ps ih =>
    obtain ⟨hpr, hchain⟩ := List.isChain_cons_cons.mp h
    have hpair : p.near r = false := hpr
    rw [List.cons_append, List.zip_cons_cons, List.countP_cons, ih r hchain]
    simp [hpair]

variable [Scalar.Symmetric α]

theorem near_comm {p q : Point α} (hp : p.isFinite = true) (hq : q.isFinite = true) :
    p.near q = q.near p := by
  obtain ⟨hpx, hpy⟩ := Bool.and_eq_true_iff.mp hp
  obtain ⟨hqx, hqy⟩ := Bool.and_eq_true_iff.mp hq
  unfold Point.near
  rw [Scalar.Symmetric.abs_sub_comm hpx hqx, Scalar.Symmetric.abs_sub_comm hpy hqy]

/-- Around a loop without repeated vertices only the last point can be near the first. -/
theorem closureViolations_of_isChain {ps : List (Point α)} (h : ps.IsChain Point.Apart)
    (hfinite : ∀ p ∈ ps, p.isFinite = true) :
    closureViolations ps = if isClosedLoop ps then 1 else 0 := by
  match ps with
  | [] => rfl
  | [p] => rfl
  | p :: q :: rest =>
    -- the last pair is compared the other way round than when the path was closed
    have hlast := (p :: q :: rest).getLast_mem (List.cons_ne_nil _ _)
    have hcomm := near_comm (hfinite _ hlast) (hfinite p List.mem_cons_self)
    have hlong : ¬(p :: q :: rest).length < 2 := by simp
    rw [closureViolations, if_neg hlong, loopPairs, countP_zip_of_isChain p p h, hcomm,
      isClosedLoop, List.getLast?_eq_some_getLast (List.cons_ne_nil _ _)]

/-- Of a run that ends near its start twice, one such end is kept. -/
theorem closureViolations_closePath {ps : List (Point α)} (h : ps.IsChain Point.Apart)
    (hfinite : ∀ p ∈ ps, p.isFinite = true) :
    closureViolations (closePath ps).1 =
      if isClosedLoop ps && isClosedLoop ps.dropLast then 1 else 0 := by
  unfold closePath
  cases hclosed : isClosedLoop ps with
  | true =>
    rw [if_pos rfl, Bool.true_and]
    exact closureViolations_of_isChain h.dropLast
      fun p hp => hfinite p (List.mem_of_mem_dropLast hp)
  | false =>
    rw [if_neg Bool.false_ne_true, closureViolations_of_isChain h hfinite, hclosed, Bool.false_and]

end WallPanel
