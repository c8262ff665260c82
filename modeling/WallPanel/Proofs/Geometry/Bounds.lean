import Mathlib.Order.Bounds.Image
import WallPanel.Geometry.Bounds
import WallPanel.Proofs.Number.Order

/-!
# Bounds around points

The bounds that take in points one after the other are around all of them (`Bounds.Around`): each
side of the box is the coordinate of one of the points, and no point lies beyond it. So a box within
these bounds equals them just if it holds all the points (`Box.Around.same_iff`), and the bounds of
some of the points are those of all just if they hold all (`Bounds.Around.same_boxOrOrigin_iff`).
-/

namespace WallPanel

variable {α : Type} [Scalar α]

/-- The usable points of a list. -/
def usable (ps : List (Point α)) : Set (Point α) :=
  {p | p ∈ ps ∧ p.isFinite = true}

theorem usable_concat {p : Point α} (h : p.isFinite = true) (l : List (Point α)) :
    usable (l ++ [p]) = insert p (usable l) := by
  ext q
  simp only [usable, Set.mem_ofPred_eq, Set.mem_insert_iff, List.mem_append, List.mem_singleton]
  constructor
  · rintro ⟨hq | rfl, hf⟩
    · exact .inr ⟨hq, hf⟩
    · exact .inl rfl
  · rintro (rfl | ⟨hq, hf⟩)
    · exact ⟨.inr rfl, h⟩
    · exact ⟨.inl hq, hf⟩

theorem usable_concat_of_not_isFinite {p : Point α} (h : p.isFinite = false)
    (l : List (Point α)) : usable (l ++ [p]) = usable l := by
  ext q
  simp only [usable, Set.mem_ofPred_eq, List.mem_append, List.mem_singleton]
  constructor
  · rintro ⟨hq | rfl, hf⟩
    · exact ⟨hq, hf⟩
    · rw [h] at hf
      cases hf
  · rintro ⟨hq, hf⟩
    exact ⟨.inl hq, hf⟩

/-! ## Boxes -/

namespace Box

/-- Whether a point lies in a box. -/
structure Holds (b : Box α) (p : Point α) : Prop where
  left : b.minX ≤ p.x
  right : p.x ≤ b.maxX
  bottom : b.minY ≤ p.y
  top : p.y ≤ b.maxY

/-- Whether two boxes have equal sides. -/
structure Same (b b' : Box α) : Prop where
  left : (b.minX == b'.minX) = true
  right : (b.maxX == b'.maxX) = true
  bottom : (b.minY == b'.minY) = true
  top : (b.maxY == b'.maxY) = true

instance (b b' : Box α) : Decidable (b.Same b') :=
  decidable_of_iff ((b.minX == b'.minX) = true ∧ (b.maxX == b'.maxX) = true ∧
    (b.minY == b'.minY) = true ∧ (b.maxY == b'.maxY) = true)
    ⟨fun ⟨left, right, bottom, top⟩ => ⟨left, right, bottom, top⟩,
      fun ⟨left, right, bottom, top⟩ => ⟨left, right, bottom, top⟩⟩

/-- Each side of a box is the coordinate of one of some points, and none lies beyond it. -/
structure Around (b : Box α) (ps : Set (Point α)) : Prop where
  left : IsLeast (Point.x '' ps) b.minX
  right : IsGreatest (Point.x '' ps) b.maxX
  bottom : IsLeast (Point.y '' ps) b.minY
  top : IsGreatest (Point.y '' ps) b.maxY

end Box

namespace Bounds

/-- Whether a point lies in bounds. -/
def Holds : Bounds α → Point α → Prop
  | empty, _ => False
  | box b, p => b.Holds p

/-- Whether two bounds are equal. -/
def Same : Bounds α → Bounds α → Prop
  | empty, empty => True
  | empty, box _ => False
  | box _, empty => False
  | box b, box b' => b.Same b'

instance (b b' : Bounds α) : Decidable (b.Same b') :=
  match b, b' with
  | empty, empty => inferInstanceAs (Decidable True)
  | empty, box _ => inferInstanceAs (Decidable False)
  | box _, empty => inferInstanceAs (Decidable False)
  | box b, box b' => inferInstanceAs (Decidable (b.Same b'))

/-- The least bounds that hold some points. -/
def Around : Bounds α → Set (Point α) → Prop
  | empty, ps => ps = ∅
  | box b, ps => b.Around ps

end Bounds

/-! ## Taking in points -/

section Extend

variable [Scalar.Ordered α] {xs : Set α} {x y : α}

theorem isLeast_insert (hxs : ∀ x ∈ xs, Scalar.isFinite x = true)
    (hy : Scalar.isFinite y = true) (h : IsLeast xs x) :
    IsLeast (insert y xs) (Scalar.least x y) := by
  have hx := hxs x h.1
  unfold Scalar.least
  split
  · next hlt =>
    refine ⟨Set.mem_insert y xs, fun z hz => ?_⟩
    rcases hz with rfl | hz
    · exact Scalar.le_self hy
    · exact Scalar.le_trans hy hx (hxs z hz) (Scalar.le_of_lt hy hx hlt) (h.2 hz)
  · next hlt =>
    refine ⟨Set.mem_insert_of_mem y h.1, fun z hz => ?_⟩
    rcases hz with rfl | hz
    · exact (Scalar.not_lt_iff hy hx).mp hlt
    · exact h.2 hz

theorem isGreatest_insert (hxs : ∀ x ∈ xs, Scalar.isFinite x = true)
    (hy : Scalar.isFinite y = true) (h : IsGreatest xs x) :
    IsGreatest (insert y xs) (Scalar.greatest x y) := by
  have hx := hxs x h.1
  unfold Scalar.greatest
  split
  · next hlt =>
    refine ⟨Set.mem_insert y xs, fun z hz => ?_⟩
    rcases hz with rfl | hz
    · exact Scalar.le_self hy
    · exact Scalar.le_trans (hxs z hz) hx hy (h.2 hz) (Scalar.le_of_lt hx hy hlt)
  · next hlt =>
    refine ⟨Set.mem_insert_of_mem y h.1, fun z hz => ?_⟩
    rcases hz with rfl | hz
    · exact (Scalar.not_lt_iff hx hy).mp hlt
    · exact h.2 hz

variable {ps : Set (Point α)} {p : Point α}

omit [Scalar.Ordered α] in
theorem isFinite_x (hps : ∀ p ∈ ps, p.isFinite = true) :
    ∀ x ∈ Point.x '' ps, Scalar.isFinite x = true := by
  rintro _ ⟨p, hp, rfl⟩
  have h := hps p hp
  simp only [Point.isFinite, Bool.and_eq_true] at h
  exact h.1

omit [Scalar.Ordered α] in
theorem isFinite_y (hps : ∀ p ∈ ps, p.isFinite = true) :
    ∀ y ∈ Point.y '' ps, Scalar.isFinite y = true := by
  rintro _ ⟨p, hp, rfl⟩
  have h := hps p hp
  simp only [Point.isFinite, Bool.and_eq_true] at h
  exact h.2

theorem Box.Around.extend {b : Box α} (h : b.Around ps) (hps : ∀ p ∈ ps, p.isFinite = true)
    (hp : p.isFinite = true) : (b.extend p).Around (insert p ps) := by
  have hp' := hp
  simp only [Point.isFinite, Bool.and_eq_true] at hp'
  constructor
  · rw [Set.image_insert_eq]
    exact isLeast_insert (isFinite_x hps) hp'.1 h.left
  · rw [Set.image_insert_eq]
    exact isGreatest_insert (isFinite_x hps) hp'.1 h.right
  · rw [Set.image_insert_eq]
    exact isLeast_insert (isFinite_y hps) hp'.2 h.bottom
  · rw [Set.image_insert_eq]
    exact isGreatest_insert (isFinite_y hps) hp'.2 h.top

theorem Box.around_ofPoint (hp : p.isFinite = true) : (Box.ofPoint p).Around {p} := by
  simp only [Point.isFinite, Bool.and_eq_true] at hp
  have hself {x : α} (hx : Scalar.isFinite x = true) : IsLeast {x} x ∧ IsGreatest {x} x := by
    refine ⟨⟨rfl, ?_⟩, rfl, ?_⟩ <;>
    · rintro _ rfl
      exact Scalar.le_self hx
  constructor <;> rw [Set.image_singleton]
  · exact (hself hp.1).1
  · exact (hself hp.1).2
  · exact (hself hp.2).1
  · exact (hself hp.2).2

namespace Bounds

variable {b : Bounds α}

theorem Around.extend (h : b.Around ps) (hps : ∀ p ∈ ps, p.isFinite = true)
    (hp : p.isFinite = true) : (b.extend p).Around (insert p ps) := by
  cases b with
  | empty =>
    obtain rfl : ps = ∅ := h
    simpa [Bounds.extend, hp, Around] using Box.around_ofPoint hp
  | box b => simpa [Bounds.extend, hp, Around] using Box.Around.extend h hps hp

/-- Bounds that take in points are around these as well. -/
theorem Around.extendAll {l : List (Point α)} (h : b.Around (usable l)) (ps : List (Point α)) :
    (b.extendAll ps).Around (usable (l ++ ps)) := by
  induction ps generalizing b l with
  | nil => simpa [Bounds.extendAll] using h
  | cons p ps ih =>
    have hp : (b.extend p).Around (usable (l ++ [p])) := by
      cases hf : p.isFinite with
      | false =>
        rw [usable_concat_of_not_isFinite hf]
        simpa [Bounds.extend, hf] using h
      | true =>
        rw [usable_concat hf]
        exact h.extend (fun q hq => hq.2) hf
    simpa [Bounds.extendAll] using ih hp

end Bounds

/-! ## Bounds of some of the points -/

namespace Box

/-- Whether all sides of a box are finite. -/
structure IsFinite (b : Box α) : Prop where
  left : Scalar.isFinite b.minX = true
  right : Scalar.isFinite b.maxX = true
  bottom : Scalar.isFinite b.minY = true
  top : Scalar.isFinite b.maxY = true

/-- Whether the sides of a box lie within those of another. -/
structure Within (b b' : Box α) : Prop where
  left : b'.minX ≤ b.minX
  right : b.maxX ≤ b'.maxX
  bottom : b'.minY ≤ b.minY
  top : b.maxY ≤ b'.maxY

variable {b b' : Box α} {qs : Set (Point α)}

omit [Scalar.Ordered α] in
theorem Around.isFinite (h : b.Around ps) (hps : ∀ p ∈ ps, p.isFinite = true) : b.IsFinite where
  left := isFinite_x hps _ h.left.1
  right := isFinite_x hps _ h.right.1
  bottom := isFinite_y hps _ h.bottom.1
  top := isFinite_y hps _ h.top.1

omit [Scalar.Ordered α] in
theorem Around.holds (h : b.Around ps) (hp : p ∈ ps) : b.Holds p where
  left := h.left.2 (Set.mem_image_of_mem _ hp)
  right := h.right.2 (Set.mem_image_of_mem _ hp)
  bottom := h.bottom.2 (Set.mem_image_of_mem _ hp)
  top := h.top.2 (Set.mem_image_of_mem _ hp)

omit [Scalar.Ordered α] in
theorem Around.within (h : b.Around ps) (h' : b'.Around qs) (hsub : qs ⊆ ps) : b'.Within b where
  left := h.left.2 (Set.image_mono hsub h'.left.1)
  right := h.right.2 (Set.image_mono hsub h'.right.1)
  bottom := h.bottom.2 (Set.image_mono hsub h'.bottom.1)
  top := h.top.2 (Set.image_mono hsub h'.top.1)

/-- A box of no extent that holds all points lies within the box around them. -/
theorem Around.origin_within (h : b.Around ps) (hps : ∀ p ∈ ps, p.isFinite = true)
    (hall : ∀ p ∈ ps, origin.Holds p) : origin.Within b := by
  obtain ⟨p, hp, -⟩ := h.left.1
  have hb := h.isFinite hps
  have hfinite := hps p hp
  simp only [Point.isFinite, Bool.and_eq_true] at hfinite
  have hin := h.holds hp
  have horigin := hall p hp
  have hzero : Scalar.isFinite (0.0 : α) = true := Scalar.isFinite_zero
  exact ⟨Scalar.le_trans hb.left hfinite.1 hzero hin.left horigin.right,
    Scalar.le_trans hzero hfinite.1 hb.right horigin.left hin.right,
    Scalar.le_trans hb.bottom hfinite.2 hzero hin.bottom horigin.top,
    Scalar.le_trans hzero hfinite.2 hb.top horigin.bottom hin.top⟩

/-- A box within the box around points equals it just if it holds them all. -/
theorem Around.same_iff (h : b.Around ps) (hps : ∀ p ∈ ps, p.isFinite = true) (hb' : b'.IsFinite)
    (hw : (∀ p ∈ ps, b'.Holds p) → b'.Within b) : b.Same b' ↔ ∀ p ∈ ps, b'.Holds p := by
  have hb := h.isFinite hps
  constructor
  · intro hs p hp
    have hfinite := hps p hp
    simp only [Point.isFinite, Bool.and_eq_true] at hfinite
    have hin := h.holds hp
    have hleft := ((Scalar.beq_iff_le_and_le hb.left hb'.left).mp hs.left).2
    have hright := ((Scalar.beq_iff_le_and_le hb.right hb'.right).mp hs.right).1
    have hbottom := ((Scalar.beq_iff_le_and_le hb.bottom hb'.bottom).mp hs.bottom).2
    have htop := ((Scalar.beq_iff_le_and_le hb.top hb'.top).mp hs.top).1
    exact ⟨Scalar.le_trans hb'.left hb.left hfinite.1 hleft hin.left,
      Scalar.le_trans hfinite.1 hb.right hb'.right hin.right hright,
      Scalar.le_trans hb'.bottom hb.bottom hfinite.2 hbottom hin.bottom,
      Scalar.le_trans hfinite.2 hb.top hb'.top hin.top htop⟩
  · intro hall
    have hw := hw hall
    obtain ⟨p₁, hp₁, hleft⟩ := h.left.1
    obtain ⟨p₂, hp₂, hright⟩ := h.right.1
    obtain ⟨p₃, hp₃, hbottom⟩ := h.bottom.1
    obtain ⟨p₄, hp₄, htop⟩ := h.top.1
    exact ⟨(Scalar.beq_iff_le_and_le hb.left hb'.left).mpr ⟨hw.left, hleft ▸ (hall p₁ hp₁).left⟩,
      (Scalar.beq_iff_le_and_le hb.right hb'.right).mpr ⟨hright ▸ (hall p₂ hp₂).right, hw.right⟩,
      (Scalar.beq_iff_le_and_le hb.bottom hb'.bottom).mpr
        ⟨hw.bottom, hbottom ▸ (hall p₃ hp₃).bottom⟩,
      (Scalar.beq_iff_le_and_le hb.top hb'.top).mpr ⟨htop ▸ (hall p₄ hp₄).top, hw.top⟩⟩

theorem isFinite_origin : (origin : Box α).IsFinite :=
  ⟨Scalar.isFinite_zero, Scalar.isFinite_zero, Scalar.isFinite_zero, Scalar.isFinite_zero⟩

end Box

/-- The box of the bounds around some points, or the one at the origin where there are none of them,
equals the bounds around all points just if it holds them all. -/
theorem Bounds.Around.same_boxOrOrigin_iff {b b' : Bounds α} {qs : Set (Point α)}
    (h : b.Around ps) (hps : ∀ p ∈ ps, p.isFinite = true) (hb : b.isFinite = true)
    (h' : b'.Around qs) (hsub : qs ⊆ ps) :
    b.Same (.box b'.boxOrOrigin) ↔ ∀ p ∈ ps, (Bounds.box b'.boxOrOrigin).Holds p := by
  cases b with
  | empty => cases hb
  | box b =>
    cases b' with
    | empty => exact Box.Around.same_iff h hps Box.isFinite_origin (Box.Around.origin_within h hps)
    | box b' =>
      exact Box.Around.same_iff h hps (Box.Around.isFinite h' fun p hp => hps p (hsub hp))
        fun _ => Box.Around.within h h' hsub

end Extend

end WallPanel
