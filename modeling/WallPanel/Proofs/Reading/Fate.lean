import Mathlib.Data.List.Nodup
import Mathlib.Data.List.Pairwise
import WallPanel.Proofs.Reading.Contents

/-!
# What becomes of a statement

A reading has one fate for each of its statements (`Reading.fate`), so the statements with the
different fates are together all statements (`Reading.perm_tally`).

* `perm_flatMap_filter`: the members of a list grouped by their keys.
* `Reading.map_filterMap_eq_map_filter`: records that stand for the statements of a fate.
* `Reading.perm_tally_of_keys`: the statements of a fate grouped by what they belong to.
-/

namespace WallPanel

/-! ## Grouping -/

section Lists

variable {β γ κ : Type}

theorem perm_append_filter {p q : β → Bool} {l : List β}
    (h : ∀ b ∈ l, ¬(p b = true ∧ q b = true)) :
    (l.filter p ++ l.filter q).Perm (l.filter fun b => p b || q b) := by
  have hp : (l.filter fun b => p b || q b).filter p = l.filter p := by
    rw [List.filter_filter]
    exact List.filter_congr fun b _ => by cases p b <;> simp
  have hq : (l.filter fun b => p b || q b).filter (!p ·) = l.filter q := by
    rw [List.filter_filter]
    refine List.filter_congr fun b hb => ?_
    have := h b hb
    cases hpb : p b <;> simp_all
  rw [← hp, ← hq]
  exact List.filter_append_perm ..

/-- The members of a list grouped by their keys. -/
theorem perm_flatMap_filter [DecidableEq κ] {keys : List κ} (hn : keys.Nodup)
    (key : β → Option κ) (l : List β) :
    (keys.flatMap fun k => l.filter (key · = some k)).Perm
      (l.filter fun b => ∃ k ∈ keys, key b = some k) := by
  induction keys with
  | nil => simp
  | cons k keys ih =>
    obtain ⟨hk, hn⟩ := List.nodup_cons.mp hn
    rw [List.flatMap_cons]
    refine ((ih hn).append_left _).trans ((perm_append_filter fun b _ hb => ?_).trans ?_)
    · simp only [decide_eq_true_eq] at hb
      obtain ⟨hb, k', hk', hb'⟩ := hb
      exact hk (Option.some.inj (hb.symm.trans hb') ▸ hk')
    · exact .of_eq (List.filter_congr fun b _ => by simp)

/-- What the members of a list give, with nothing twice, comes from one of them. -/
theorem eq_of_mem_of_nodup_flatMap {l : List β} {f : β → List γ} (hn : (l.flatMap f).Nodup)
    {b c : β} (hb : b ∈ l) (hc : c ∈ l) {x : γ} (hx : x ∈ f b) (hx' : x ∈ f c) : b = c := by
  have hdisjoint := (List.nodup_flatMap.mp hn).2
  have hsymm : Std.Symm (Function.onFun List.Disjoint f) := ⟨fun _ _ h _ hx hx' => h hx' hx⟩
  by_contra hne
  exact hdisjoint.forall hb hc hne hx hx'

end Lists

/-! ## Fates -/

/-- What becomes of a statement. -/
inductive Fate where
  | wall
  | moduleBegin
  | moduleEnd
  | member
  | panel
  /-- It is a point on the boundary of a panel. -/
  | boundary
  | nailRow
  | drilling
  /-- It begins a routing of the model. -/
  | header
  /-- It is a circle of a routing of the model. -/
  | circle
  /-- It is a line of a path of a routing of the model. -/
  | source
  | unhandled
  /-- It leaves no record: it goes on with a path that keeps fewer than two points. -/
  | silent
deriving DecidableEq, Repr

namespace Fate

def all : List Fate :=
  [wall, moduleBegin, moduleEnd, member, panel, boundary, nailRow, drilling, header, circle, source,
    unhandled, silent]

theorem mem_all (f : Fate) : f ∈ all := by cases f <;> decide

theorem nodup_all : all.Nodup := by decide

end Fate

variable {α : Type}

namespace Routing

/-- The circles of a routing, by their positions. -/
def circleIndices (r : Routing α) : List Nat :=
  r.segments.filterMap fun
    | .circle c => some c.statementIndex
    | .path _ => none

/-- The lines of the paths of a routing, by their positions. -/
def sourceIndices (r : Routing α) : List Nat :=
  r.segments.flatMap fun
    | .circle _ => []
    | .path cut => cut.source.map (·.statementIndex)

end Routing

namespace Role

/-- The panel whose boundary a statement is on. -/
def boundaryOf? : Role α → Option Nat
  | .boundary j _ => some j
  | _ => none

/-- The routing that a circle is cut in. -/
def circleOf? : Role α → Option Nat
  | .circle j _ => some j
  | _ => none

/-- The routing that a statement belongs to. -/
def routingOf? : Role α → Option Nat
  | .header r => some r.statementIndex
  | .circle j _ | .vertex j _ _ => some j
  | _ => none

/-- The path that a vertex is on. -/
def runOf? : Role α → Option Nat
  | .vertex _ k _ => some k
  | _ => none

end Role

variable [Scalar α]

namespace Reading

variable (es : List (Placed α))

/-- The routing that a vertex begins a path in, if the path has a cut. -/
def cutStart? : Role α → Option Nat
  | .vertex j k v => if v.entry.statementIndex = k ∧ (cutOf? es k).isSome then some j else none
  | _ => none

/-- What becomes of a statement with a role. -/
def fate : Role α → Fate
  | .wall _ => .wall
  | .moduleBegin _ => .moduleBegin
  | .moduleEnd => .moduleEnd
  | .member _ => .member
  | .panel _ => .panel
  | .boundary .. => .boundary
  | .nailRow _ => .nailRow
  | .drilling _ => .drilling
  | .header r => if (cuts es none r.statementIndex).isEmpty then .unhandled else .header
  | .circle .. => .circle
  | .vertex _ k v =>
    if (cutOf? es k).isSome then .source
    else if v.entry.statementIndex = k then .unhandled
    else .silent
  | .unhandled _ | .foreign _ => .unhandled

theorem fate_eq_boundary_iff {r : Role α} : fate es r = .boundary ↔ r.boundaryOf?.isSome := by
  cases r <;> grind [fate, Role.boundaryOf?]

theorem fate_eq_header_iff {r : Role α} : fate es r = .header ↔
    ∃ w, r.header? = some w ∧ cuts es none w.statementIndex ≠ [] := by
  cases r <;> grind [fate, Role.header?]

theorem fate_eq_circle_iff {r : Role α} : fate es r = .circle ↔ r.circleOf?.isSome := by
  cases r <;> grind [fate, Role.circleOf?]

theorem fate_eq_source_iff {r : Role α} :
    fate es r = .source ↔ ∃ k, r.runOf? = some k ∧ (cutOf? es k).isSome := by
  cases r <;> grind [fate, Role.runOf?]

/-- What owns a statement of its own is no part of a routing. -/
theorem routingOf?_of_fate {r : Role α} (h : fate es r ∈ [.nailRow, .drilling, .member, .panel]) :
    r.routingOf? = none := by
  cases r <;> grind [fate, Role.routingOf?]

theorem fate_eq_silent_iff {r : Role α} : fate es r = .silent ↔
    ∃ j k v, r = .vertex j k v ∧ cutOf? es k = none ∧ v.entry.statementIndex ≠ k := by
  cases r with
  | vertex j k v => cases hc : cutOf? es k <;> simp [fate, hc]
  | _ => grind [fate]

/-- The positions of the statements with a fate. -/
def tally (f : Fate) : List Nat :=
  (es.filter fun p => fate es p.role = f).map (·.statement.index)

/-- Every statement has one fate. -/
theorem perm_tally : (Fate.all.flatMap (tally es)).Perm (es.map (·.statement.index)) := by
  have h := perm_flatMap_filter Fate.nodup_all (fun p => some (fate es p.role)) es
  have hall : es.filter (fun p => ∃ f ∈ Fate.all, some (fate es p.role) = some f) = es :=
    List.filter_eq_self.mpr fun p _ => by simpa using Fate.mem_all _
  rw [hall] at h
  have hmap := h.map (·.statement.index)
  rw [List.map_flatMap] at hmap
  simp only [Option.some.injEq] at hmap
  exact hmap

variable {es} {f : Fate}

omit [Scalar α] in
/-- Records that have the positions of their statements stand for these statements. -/
theorem map_filterMap_eq_map_filter {γ : Type} {g : Role α → Option γ} {key : γ → Nat}
    {P : Placed α → Bool} (hkey : ∀ p ∈ es, ∀ x, g p.role = some x → key x = p.statement.index)
    (hg : ∀ p ∈ es, (g p.role).isSome = P p) :
    (es.filterMap (g ·.role)).map key = (es.filter P).map (·.statement.index) := by
  rw [List.map_filterMap, ← List.filterMap_eq_map, List.filterMap_filter]
  refine List.filterMap_congr fun p hp => ?_
  have hg := hg p hp
  cases hx : g p.role with
  | none => rw [hx] at hg; simp [← hg]
  | some x =>
    rw [hx] at hg
    simp [← hg, hkey p hp x hx]

/-- What belongs to the statements with some keys, grouped by these, is all of a fate. -/
theorem perm_tally_of_keys {keys : List Nat} (hn : keys.Nodup) (key : Role α → Option Nat)
    (hf : ∀ p ∈ es, fate es p.role = f ↔ ∃ k ∈ keys, key p.role = some k) :
    (keys.flatMap fun k => (es.filter (key ·.role = some k)).map (·.statement.index)).Perm
      (tally es f) := by
  have h := (perm_flatMap_filter hn (fun p : Placed α => key p.role) es).map (·.statement.index)
  rw [List.map_flatMap] at h
  refine h.trans (.of_eq (congrArg _ (List.filter_congr fun p hp => ?_)))
  simp only [hf p hp]

end Reading

end WallPanel
