import Mathlib.Data.List.Nodup
import WallPanel.Proofs.Attribution.Basic
import WallPanel.Proofs.Reading.Document

/-!
# What is open at a position

The state that a reading carries along is what reaches the position that it has come to
(`Attribution.OpenAt`). What reaches a position is told from what reaches the one before it and from
the statement between them (`Attribution.panelReaches_succ`, `Attribution.routingReaches_succ`,
`Attribution.runReaches_succ`), and a statement changes the state in the same way
(`Attribution.OpenAt.next`).
-/

namespace WallPanel

variable {α : Type}

namespace Attribution

variable {ss : List (Statement α)} {passes : Statement α → Bool} {i j k : Nat}

/-! ## Reaching a position -/

theorem Between.mono {i' j' : Nat} (h : Between ss passes j i) (hj : j ≤ j') (hi : i' ≤ i) :
    Between ss passes j' i' :=
  fun s hs hjs hsi => h s hs (Nat.lt_of_le_of_lt hj hjs) (Nat.lt_of_lt_of_le hsi hi)

theorem Between.imp {passes' : Statement α → Bool} (h : Between ss passes j i)
    (hp : ∀ s, passes s = true → passes' s = true) : Between ss passes' j i :=
  fun s hs hjs hsi => hp s (h s hs hjs hsi)

theorem between_of_le (h : i ≤ j) : Between ss passes j i :=
  fun _ _ hj hi => absurd (Nat.lt_trans hj hi) (Nat.not_lt.mpr h)

/-- A stretch with a statement in it that passes. -/
theorem Between.trans {s : Statement α} (h : Between ss passes j s.index)
    (h' : Between ss passes s.index i) (hs : ∀ t ∈ ss, t.index = s.index → passes t = true) :
    Between ss passes j i := by
  intro t ht hj hi
  rcases Nat.lt_trichotomy t.index s.index with hlt | heq | hgt
  · exact h t ht hj hlt
  · exact hs t ht heq
  · exact h' t ht hgt hi

theorem isPathPart_of_opensPanel {s : Statement α} (h : s.opensPanel = true) :
    s.isPathPart = false := by
  unfold Statement.opensPanel at h
  cases hk : s.command.kind <;> simp_all [Statement.isPathPart]

theorem isPathPart_of_isPoint {s : Statement α} (h : s.isPoint = true) : s.isPathPart = true := by
  simp_all [Statement.isPoint, Statement.isPathPart]

theorem opensPanel_isPoint {s : Statement α} (h : s.opensPanel = true) : s.isPoint = false :=
  Bool.eq_false_iff.mpr fun hp => by
    simpa [isPathPart_of_opensPanel h] using isPathPart_of_isPoint hp

theorem endsRouting_of_routing {s : Statement α} (h : s.command.kind = .routing) :
    s.endsRouting = true := by
  simp [Statement.endsRouting, h]

theorem not_endsRouting_of_isPathPart {s : Statement α} (h : s.isPathPart = true) :
    (!s.endsRouting) = true := by
  cases hk : s.command.kind <;> simp_all [Statement.isPathPart, Statement.endsRouting]

theorem isPathPart_of_isVertexLike {s : Statement α} (h : s.isVertexLike = true) :
    s.isPathPart = true := by
  simp only [Statement.isVertexLike, Statement.isPathPart, Bool.and_eq_true, Bool.or_eq_true,
    decide_eq_true_eq] at h ⊢
  exact h.2.imp id And.left

theorem not_circleOf_of_beginsRun {s : Statement α} (h : BeginsRun ss j s) : ¬CircleOf ss j s :=
  fun hc => by
    have hpath := isPathPart_of_isVertexLike h.1.1
    simp [Statement.isPathPart, hc.1] at hpath

/-- A point is on the boundary of one panel. -/
theorem PanelReaches.unique {j' : Nat} (h : PanelReaches ss j i) (h' : PanelReaches ss j' i) :
    j = j' := by
  obtain ⟨hj, ⟨s, hs, rfl, hos⟩, hb⟩ := h
  obtain ⟨hj', ⟨t, ht, rfl, hot⟩, hb'⟩ := h'
  rcases Nat.lt_trichotomy s.index t.index with hlt | heq | hgt
  · exact absurd (hb t ht hlt hj') (by simp [opensPanel_isPoint hot])
  · exact heq
  · exact absurd (hb' s hs hgt hj) (by simp [opensPanel_isPoint hos])

/-- A statement belongs to one routing. -/
theorem RoutingReaches.unique {j' : Nat} (h : RoutingReaches ss j i)
    (h' : RoutingReaches ss j' i) : j = j' := by
  obtain ⟨hj, ⟨s, hs, rfl, hos⟩, hb⟩ := h
  obtain ⟨hj', ⟨t, ht, rfl, hot⟩, hb'⟩ := h'
  rcases Nat.lt_trichotomy s.index t.index with hlt | heq | hgt
  · exact absurd (hb t ht hlt hj') (by simp [endsRouting_of_routing hot])
  · exact heq
  · exact absurd (hb' s hs hgt hj) (by simp [endsRouting_of_routing hos])

/-! ## One statement further -/

/-- The path with its first vertex at `k` is open at `i`. -/
def RunReaches (ss : List (Statement α)) (k i : Nat) : Prop :=
  k < i ∧ (∃ s ∈ ss, s.index = k ∧ ∃ j, BeginsRun ss j s) ∧ Between ss Statement.isPathPart k i

/-- The positions of the statements are those from zero on. -/
def Numbered (ss : List (Statement α)) : Prop :=
  ss.map (·.index) = List.range' 0 ss.length

theorem Numbered.sorted (hn : Numbered ss) : (ss.map (·.index)).Pairwise (· < ·) := by
  rw [hn]
  exact List.pairwise_lt_range'

section Step

variable {s : Statement α} (hn : Numbered ss) (hs : s ∈ ss)
include hn

theorem Numbered.eq_of_index {t : Statement α} (hs : s ∈ ss) (ht : t ∈ ss)
    (h : t.index = s.index) : t = s := by
  refine List.inj_on_of_nodup_map (f := Statement.index) ?_ ht hs h
  rw [hn]
  exact List.nodup_range'

theorem Numbered.index_of_append {pre post : List (Statement α)} (hss : ss = pre ++ s :: post) :
    s.index = pre.length := by
  have h : (ss.map (·.index))[pre.length]? = some s.index := by simp [hss]
  rw [hn] at h
  have hlt : pre.length < ss.length := by simp [hss]
  rw [List.getElem?_range' hlt] at h
  simpa using h.symm

include hs

theorem between_succ (hj : j < s.index) :
    Between ss passes j (s.index + 1) ↔ Between ss passes j s.index ∧ passes s = true := by
  refine ⟨fun h => ⟨h.mono (Nat.le_refl _) (Nat.le_succ _), h s hs hj (Nat.lt_succ_self _)⟩,
    fun ⟨h, hp⟩ t ht hjt ht' => ?_⟩
  rcases Nat.lt_succ_iff_lt_or_eq.mp ht' with hlt | heq
  · exact h t ht hjt hlt
  · rwa [hn.eq_of_index hs ht heq]

theorem panelReaches_succ : PanelReaches ss j (s.index + 1) ↔
    j = s.index ∧ s.opensPanel = true ∨ PanelReaches ss j s.index ∧ s.isPoint = true := by
  constructor
  · rintro ⟨hj, ⟨t, ht, rfl, ho⟩, hb⟩
    rcases Nat.lt_succ_iff_lt_or_eq.mp hj with hlt | heq
    · obtain ⟨hb, hp⟩ := (between_succ hn hs hlt).mp hb
      exact .inr ⟨⟨hlt, ⟨t, ht, rfl, ho⟩, hb⟩, hp⟩
    · exact .inl ⟨heq, hn.eq_of_index hs ht heq ▸ ho⟩
  · rintro (⟨rfl, ho⟩ | ⟨⟨hj, ho, hb⟩, hp⟩)
    · exact ⟨Nat.lt_succ_self _, ⟨s, hs, rfl, ho⟩, fun _ _ hl hg => absurd hl (by omega)⟩
    · exact ⟨Nat.lt_succ_of_lt hj, ho, (between_succ hn hs hj).mpr ⟨hb, hp⟩⟩

theorem routingReaches_succ : RoutingReaches ss j (s.index + 1) ↔
    j = s.index ∧ s.command.kind = .routing ∨
      RoutingReaches ss j s.index ∧ s.endsRouting = false := by
  constructor
  · rintro ⟨hj, ⟨t, ht, rfl, ho⟩, hb⟩
    rcases Nat.lt_succ_iff_lt_or_eq.mp hj with hlt | heq
    · obtain ⟨hb, hp⟩ := (between_succ hn hs hlt).mp hb
      exact .inr ⟨⟨hlt, ⟨t, ht, rfl, ho⟩, hb⟩, by simpa using hp⟩
    · exact .inl ⟨heq, hn.eq_of_index hs ht heq ▸ ho⟩
  · rintro (⟨rfl, ho⟩ | ⟨⟨hj, ho, hb⟩, hp⟩)
    · exact ⟨Nat.lt_succ_self _, ⟨s, hs, rfl, ho⟩, fun _ _ hl hg => absurd hl (by omega)⟩
    · exact ⟨Nat.lt_succ_of_lt hj, ho, (between_succ hn hs hj).mpr ⟨hb, by simpa using hp⟩⟩

theorem runReaches_succ : RunReaches ss k (s.index + 1) ↔
    (k = s.index ∧ ∃ j, BeginsRun ss j s) ∨ RunReaches ss k s.index ∧ s.isPathPart = true := by
  constructor
  · rintro ⟨hk, ⟨t, ht, rfl, ho⟩, hb⟩
    rcases Nat.lt_succ_iff_lt_or_eq.mp hk with hlt | heq
    · obtain ⟨hb, hp⟩ := (between_succ hn hs hlt).mp hb
      exact .inr ⟨⟨hlt, ⟨t, ht, rfl, ho⟩, hb⟩, hp⟩
    · exact .inl ⟨heq, hn.eq_of_index hs ht heq ▸ ho⟩
  · rintro (⟨rfl, ho⟩ | ⟨⟨hk, ho, hb⟩, hp⟩)
    · exact ⟨Nat.lt_succ_self _, ⟨s, hs, rfl, ho⟩, fun _ _ hl hg => absurd hl (by omega)⟩
    · exact ⟨Nat.lt_succ_of_lt hk, ho, (between_succ hn hs hk).mpr ⟨hb, hp⟩⟩

theorem before_succ : before ss (s.index + 1) = before ss s.index ++ [s] := by
  obtain ⟨pre, post, rfl⟩ := List.append_of_mem hs
  have hi := hn.index_of_append rfl
  have hsorted := hn.sorted
  rw [List.map_append, List.map_cons, List.pairwise_append, List.pairwise_cons] at hsorted
  obtain ⟨-, ⟨hpost, -⟩, hpre⟩ := hsorted
  have hlt : ∀ t ∈ pre, t.index < s.index := fun t ht =>
    hpre _ (List.mem_map_of_mem ht) _ List.mem_cons_self
  have hgt : ∀ t ∈ post, s.index < t.index := fun t ht => hpost _ (List.mem_map_of_mem ht)
  have keep (n : Nat) (h : s.index ≤ n) : pre.filter (·.index < n) = pre :=
    List.filter_eq_self.mpr fun t ht => by simpa using Nat.lt_of_lt_of_le (hlt t ht) h
  have drop (n : Nat) (h : n ≤ s.index + 1) : post.filter (·.index < n) = [] :=
    List.filter_eq_nil_iff.mpr fun t ht => by have := hgt t ht; simp; omega
  rw [before, before, List.filter_append, List.filter_append,
    List.filter_cons_of_pos (by simp), List.filter_cons_of_neg (by simp),
    keep _ (Nat.le_succ _), keep _ (Nat.le_refl _), drop _ (Nat.le_refl _),
    drop _ (Nat.le_succ _), List.append_nil]

end Step

end Attribution

end WallPanel
