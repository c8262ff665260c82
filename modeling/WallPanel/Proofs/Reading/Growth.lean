import WallPanel.Proofs.Reading.Rooted

/-!
# How the contents of a reading grow

What one more statement adds to the routings of a reading, by what it is: a header
(`Reading.routings_header`), a circle or a vertex of the open routing
(`Reading.routings_within`, `Reading.cuts_vertex`). The end of a path adds its cut, or the record
that it has none (`Reading.cuts_close`, `Reading.unhandled_closeRun`).
-/

namespace WallPanel

variable {α : Type}

namespace Reading

variable {es : List (Placed α)} {p : Placed α} {j : Nat}

/-! ## Nothing names what is to come -/

theorem Below.points {i : Nat} (h : Below es i) : points es i = [] := by
  refine List.filterMap_eq_nil_iff.mpr fun p hp => ?_
  cases hr : p.role with
  | boundary j q =>
    have : j < i := h p hp j (by simp [hr, Role.keys])
    simp [Role.point?, Nat.ne_of_lt this]
  | _ => rfl

theorem Below.items {i : Nat} (h : Below es i) : items es i = [] := by
  refine List.filterMap_eq_nil_iff.mpr fun p hp => ?_
  have hk := h p hp
  cases hr : p.role with
  | circle j d => simp [Role.item?, Nat.ne_of_lt (hk j (by simp [hr, Role.keys]))]
  | vertex j k v => simp [Role.item?, Nat.ne_of_lt (hk j (by simp [hr, Role.keys]))]
  | _ => rfl

theorem Below.indices {i : Nat} (h : Below es i) : indices es i = [] := by
  rw [Reading.indices, List.map_eq_nil_iff, List.filter_eq_nil_iff]
  intro p hp
  have hk := h p hp
  cases hr : p.role with
  | header r =>
    simp [Role.isOf, Nat.ne_of_lt (hk r.statementIndex (by simp [hr, Role.keys]))]
  | circle j d => simp [Role.isOf, Nat.ne_of_lt (hk j (by simp [hr, Role.keys]))]
  | vertex j k v => simp [Role.isOf, Nat.ne_of_lt (hk j (by simp [hr, Role.keys]))]
  | _ => simp [Role.isOf]

theorem Below.vertices {i : Nat} (h : Below es i) : vertices es i = [] := by
  refine List.filterMap_eq_nil_iff.mpr fun p hp => ?_
  have hk := h p hp
  cases hr : p.role with
  | vertex j k v => simp [Role.vertex?, Nat.ne_of_lt (hk k (by simp [hr, Role.keys]))]
  | _ => rfl

theorem sheathing_concat (hp : p.role.panel? = none) (hq : ∀ j, p.role.point? j = none) :
    sheathing (es ++ [p]) = sheathing es := by
  simp [sheathing, panels_concat, points_concat, hp, hq]

/-- The vertex whose position names a path begins it. -/
theorem mem_firsts {k : Nat} {v : Vertex α} (hv : v ∈ vertices es k)
    (hk : v.entry.statementIndex = k) : v ∈ firsts es := by
  obtain ⟨p, hp, hr⟩ := List.mem_filterMap.mp hv
  obtain ⟨j, hr⟩ := Role.vertex?_eq_some.mp hr
  exact List.mem_filterMap.mpr ⟨p, hp, by simp [hr, Role.first?, hk]⟩

theorem item?_of_isOf {r : Role α} (h : r.isOf j = false) : r.item? j = none := by
  cases r <;> simp_all [Role.isOf, Role.item?]

variable [Scalar α]

theorem Below.cuts {i : Nat} (h : Below es i) (o : Option Nat) : cuts es o i = [] := by
  rw [Reading.cuts, h.items, List.filterMap_nil]

/-! ## The end of a path -/

/-- The cut that an open path gets when it ends. -/
theorem cuts_close {j k : Nat} (h : LastAlone id (items es j) (.run k)) :
    cuts es none j = cuts es (some k) j ++ (itemCut? es none (.run k)).toList := by
  refine h.filterMap_eq (by simp [itemCut?]) fun i hi => ?_
  cases i with
  | circle c => rfl
  | run k' =>
    have : k ≠ k' := fun e => hi (by rw [e])
    simp [itemCut?, this]

theorem cuts_of_notMem {j k : Nat} (h : .run k ∉ items es j) :
    cuts es none j = cuts es (some k) j := by
  refine List.filterMap_congr fun i hi => ?_
  cases i with
  | circle c => rfl
  | run k' =>
    have : k ≠ k' := fun e => h (by rwa [e])
    simp [itemCut?, this]

theorem cutOf?_eq {k : Nat} {r : VertexRun α} (h : r.toList = vertices es k) :
    cutOf? es k = r.cut? := by
  simp [cutOf?, ← h, VertexRun.toList]

/-- The record that an open path gets when it ends. -/
theorem unhandled_closeRun {k : Nat} {v : Vertex α} {o : Option Nat}
    (h : LastAlone (·.entry.statementIndex) (firsts es) v) (hk : v.entry.statementIndex = k) :
    (unhandled es none o).Perm
      (unhandled es (some k) o ++ (shortRun? es none v).toList) := by
  have hf : (firsts es).filterMap (shortRun? es none) =
      (firsts es).filterMap (shortRun? es (some k)) ++ (shortRun? es none v).toList := by
    refine h.filterMap_eq (by simp [shortRun?, hk]) fun w hw => ?_
    have : k ≠ w.entry.statementIndex := fun e => hw (by rw [hk, e])
    simp [shortRun?, this]
  rw [unhandled, unhandled, hf, ← List.append_assoc, List.append_assoc, List.append_assoc _ _ (Option.toList _)]
  exact List.perm_append_comm.append_left _

/-! ## A statement of the open routing -/

/-- A statement of one routing keeps the cuts of the others, if it is on none of their paths. -/
theorem cuts_concat_of_ne (hof : p.role.isOf j = false)
    (hv : ∀ k, .run k ∈ items es j → p.role.vertex? k = none) (o : Option Nat) :
    cuts (es ++ [p]) o j = cuts es o j := by
  have hi := item?_of_isOf hof
  rw [cuts_concat (fun k hk _ => hv k hk) (fun k hk => by simp [hi] at hk), hi]
  simp

theorem filled_concat_of_ne {r : Routing α} (hof : p.role.isOf r.statementIndex = false)
    (hv : ∀ k, .run k ∈ items es r.statementIndex → p.role.vertex? k = none) (o : Option Nat) :
    filled (es ++ [p]) o r = filled es o r := by
  simp [filled, cuts_concat_of_ne hof hv, indices_concat, hof]

section Within

variable (hh : p.role.header? = none) (hof : ∀ j' ≠ j, p.role.isOf j' = false)
  (hv : ∀ j' ≠ j, ∀ k, .run k ∈ items es j' → p.role.vertex? k = none)
include hh hof hv

/-- A statement of the open routing keeps the routings before it. -/
theorem routings_within : routings (es ++ [p]) (some j) = routings es (some j) := by
  rw [routings, headers_concat, hh, Option.toList_none, List.append_nil]
  refine List.filterMap_congr fun w _ => ?_
  by_cases hw : w.statementIndex = j
  · simp [emitted?, hw]
  · simp [emitted?, cuts_concat_of_ne (hof _ hw) (hv _ hw),
      filled_concat_of_ne (hof _ hw) (hv _ hw)]

theorem emptyHeaders_within : (headers (es ++ [p])).filterMap (emptyHeader? (es ++ [p]) (some j)) =
    (headers es).filterMap (emptyHeader? es (some j)) := by
  rw [headers_concat, hh, Option.toList_none, List.append_nil]
  refine List.filterMap_congr fun w _ => ?_
  by_cases hw : w.statementIndex = j
  · simp [emptyHeader?, hw]
  · simp [emptyHeader?, cuts_concat_of_ne (hof _ hw) (hv _ hw)]

theorem unhandled_within {o o' : Option Nat} (hu : p.role.unhandled? = none)
    (hs : (firsts (es ++ [p])).filterMap (shortRun? (es ++ [p]) o') =
      (firsts es).filterMap (shortRun? es o)) :
    unhandled (es ++ [p]) o' (some j) = unhandled es o (some j) := by
  rw [unhandled, unhandled, emptyHeaders_within hh hof hv, hs, filterMap_concat, hu,
    Option.toList_none, List.append_nil]

end Within

/-! ## A header -/

section Header

variable {s : Statement α} {w : Routing α} (hw : w.statementIndex = s.index)

theorem cuts_header (o : Option Nat) (j : Nat) :
    cuts (es ++ [⟨s, .header w⟩]) o j = cuts es o j := by
  rw [cuts_concat (fun _ _ _ => rfl) (fun _ hk => by cases hk)]
  simp [Role.item?]

include hw

omit [Scalar α] in
theorem indices_header (j : Nat) :
    indices (es ++ [⟨s, .header w⟩]) j = indices es j ++ if s.index = j then [j] else [] := by
  simp only [indices_concat, Role.isOf, hw, decide_eq_true_eq]
  split <;> simp_all

variable (hb : Below es s.index)
include hb

omit [Scalar α] in
theorem ne_of_mem_headers : ∀ w' ∈ headers es, w.statementIndex ≠ w'.statementIndex :=
  fun _ hw' => Nat.ne_of_gt (hw ▸ hb.header hw')

/-- A header keeps the routings before it. -/
theorem routings_header :
    routings (es ++ [⟨s, .header w⟩]) (some w.statementIndex) = routings es none := by
  have hne := ne_of_mem_headers hw hb
  have hold : ∀ w' ∈ headers es,
      emitted? (es ++ [⟨s, .header w⟩]) (some w.statementIndex) w' = emitted? es none w' := by
    intro w' hw'
    have hi : s.index ≠ w'.statementIndex := hw ▸ hne w' hw'
    simp [emitted?, filled, cuts_header, indices_header hw, hne w' hw', hi]
  have hself : emitted? (es ++ [⟨s, .header w⟩]) (some w.statementIndex) w = none := by
    simp [emitted?]
  simp only [routings, headers_concat, Role.header?, Option.toList_some, filterMap_concat, hself,
    Option.toList_none, List.append_nil]
  exact List.filterMap_congr hold

theorem unhandled_header :
    unhandled (es ++ [⟨s, .header w⟩]) none (some w.statementIndex) = unhandled es none none := by
  have hne := ne_of_mem_headers hw hb
  have hshort : shortRun? (es ++ [⟨s, .header w⟩]) none = shortRun? es none := by
    funext v
    simp only [shortRun?, cutOf?_concat (p := ⟨s, .header w⟩) rfl]
  have hold : ∀ w' ∈ headers es,
      emptyHeader? (es ++ [⟨s, .header w⟩]) (some w.statementIndex) w' =
        emptyHeader? es none w' := fun w' hw' => by
    simp [emptyHeader?, cuts_header, hne w' hw']
  have hself : emptyHeader? (es ++ [⟨s, .header w⟩]) (some w.statementIndex) w = none := by
    simp [emptyHeader?]
  simp only [unhandled, headers_concat, Role.header?, Option.toList_some, filterMap_concat, hself,
    firsts_concat, Role.first?, Role.unhandled?, Option.toList_none, List.append_nil, hshort]
  rw [List.filterMap_congr hold]

/-- A routing as its header opens it. -/
theorem filled_header (hs : w.segments = []) (hi : w.statementIndices = [s.index])
    (o : Option Nat) : filled (es ++ [⟨s, .header w⟩]) o w = w := by
  have hb' : Below es w.statementIndex := hw ▸ hb
  have hi' : [w.statementIndex] = w.statementIndices := by rw [hw, hi]
  rw [filled, cuts_header, hb'.cuts, indices_header hw, hb'.indices, if_pos hw.symm,
    List.filterMap_nil, List.nil_append, hi', ← hs]

end Header

/-! ## A vertex -/

section Vertex

variable {s : Statement α} {k : Nat} {v : Vertex α} {o : Option Nat}

/-- A vertex leaves the cuts as they are: its path is open. -/
theorem cuts_vertex (ho : o = some k ∨ o = none ∧ Below es k) (j' : Nat) :
    cuts (es ++ [⟨s, .vertex j k v⟩]) (some k) j' = cuts es o j' := by
  have hcuts : cuts (es ++ [⟨s, .vertex j k v⟩]) (some k) j' = cuts es (some k) j' := by
    rw [cuts_concat]
    · simp only [Role.item?]
      split <;> simp [itemCut?]
    · intro k' _ hk'
      have : k ≠ k' := fun e => hk' (by rw [e])
      simp [Role.vertex?, this]
    · intro k' hk'
      simp only [Role.item?] at hk'
      split at hk' <;> simp_all
  rcases ho with rfl | ⟨rfl, hb⟩
  · exact hcuts
  · rw [hcuts, cuts_of_notMem fun hk => Nat.lt_irrefl k (hb.run hk)]

/-- A vertex leaves the records of short paths as they are: its path is open. -/
theorem shortRuns_vertex (hv : o = some k ∧ v.entry.statementIndex ≠ k ∨
      o = none ∧ v.entry.statementIndex = k ∧ Below es k) :
    (firsts (es ++ [⟨s, .vertex j k v⟩])).filterMap
        (shortRun? (es ++ [⟨s, .vertex j k v⟩]) (some k)) =
      (firsts es).filterMap (shortRun? es o) := by
  have hcut {w : Vertex α} (hw : w.entry.statementIndex ≠ k) :
      shortRun? (es ++ [⟨s, .vertex j k v⟩]) (some k) w = shortRun? es none w := by
    have : Role.vertex? w.entry.statementIndex (.vertex j k v) = none := by
      simp [Role.vertex?, Ne.symm hw]
    simp [shortRun?, cutOf?_concat (p := ⟨s, .vertex j k v⟩) this, Ne.symm hw]
  rcases hv with ⟨rfl, hv⟩ | ⟨rfl, hv, hb⟩
  · have hf : firsts (es ++ [⟨s, .vertex j k v⟩]) = firsts es := by
      simp [firsts_concat, Role.first?, hv]
    rw [hf]
    refine List.filterMap_congr fun w _ => ?_
    by_cases hw : w.entry.statementIndex = k
    · simp [shortRun?, hw]
    · rw [hcut hw]
      simp [shortRun?, Ne.symm hw]
  · have hf : firsts (es ++ [⟨s, .vertex j k v⟩]) = firsts es ++ [v] := by
      simp [firsts_concat, Role.first?, hv]
    have hself : shortRun? (es ++ [⟨s, .vertex j k v⟩]) (some k) v = none := by
      simp [shortRun?, hv]
    rw [hf, filterMap_concat, hself, Option.toList_none, List.append_nil]
    exact List.filterMap_congr fun w hw => hcut (Nat.ne_of_lt (hb.first hw))

end Vertex

end Reading

end WallPanel
