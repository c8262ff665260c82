import WallPanel.Proofs.Reading.Renumber
import WallPanel.Proofs.Statement.Document

/-!
# The statements of a document

The texts of a document are read one after the other, each at its position (`Statement.readAll`).
With some of them left out, each of the others is read as before, but for its position
(`Statement.readAll_serialize`).
-/

namespace WallPanel

/-! ## Reading the statements -/

section Reading

variable {α : Type} [Scalar α]

/-- The statements of texts, at the positions from one on. -/
def Statement.readAll (index : Nat) : List String → Except Fault (List (Statement α))
  | [] => .ok []
  | text :: texts => do
    let s ← Statement.read index text
    let ss ← readAll (index + 1) texts
    return s :: ss

theorem Statement.readAll_cons {i : Nat} {text : String} {texts : List String}
    {ss : List (Statement α)} : readAll i (text :: texts) = .ok ss ↔
      ∃ s ss', Statement.read i text = .ok s ∧ readAll (i + 1) texts = .ok ss' ∧ ss = s :: ss' := by
  simp only [readAll, bind, Except.bind, pure, Except.pure]
  cases Statement.read (α := α) i text with
  | error => simp
  | ok s =>
    cases readAll (α := α) (i + 1) texts with
    | error => simp
    | ok ss' => simp [eq_comm]

theorem Statement.index_read {i : Nat} {text : String} {s : Statement α}
    (h : Statement.read i text = .ok s) : s.index = i := by
  obtain ⟨c, -, rfl⟩ := read_eq_ok_iff.mp h
  rfl

/-- A text reads the same at any position. -/
theorem Statement.read_eq (i n : Nat) (text : String) :
    (Statement.read n text : Except Fault (Statement α)) =
      (Statement.read i text).map fun s => { s with index := n } := by
  simp only [Statement.read, bind, Except.bind, pure, Except.pure]
  cases Command.ofWord (splitCommand text).1 <;> rfl

/-- The positions of the statements of texts. -/
theorem Statement.index_readAll {i : Nat} {texts : List String} {ss : List (Statement α)}
    (h : readAll i texts = .ok ss) : ss.map (·.index) = List.range' i ss.length := by
  induction texts generalizing i ss with
  | nil => cases h; rfl
  | cons text texts ih =>
    obtain ⟨s, ss', hs, hss, rfl⟩ := readAll_cons.mp h
    simp [index_read hs, ih hss, List.range'_succ]

theorem Statement.length_readAll {i : Nat} {texts : List String} {ss : List (Statement α)}
    (h : readAll i texts = .ok ss) : ss.length = texts.length := by
  induction texts generalizing i ss with
  | nil => cases h; rfl
  | cons text texts ih =>
    obtain ⟨s, ss', -, hss, rfl⟩ := readAll_cons.mp h
    simp [ih hss]

theorem Statement.sorted_readAll {i : Nat} {texts : List String} {ss : List (Statement α)}
    (h : readAll i texts = .ok ss) : (ss.map (·.index)).Pairwise (· < ·) := by
  rw [index_readAll h]
  exact List.pairwise_lt_range'

theorem Statement.index_lt_of_readAll {texts : List String} {ss : List (Statement α)}
    {s : Statement α} (h : readAll 0 texts = .ok ss) (hs : s ∈ ss) : s.index < ss.length := by
  have hmem := List.mem_map_of_mem (f := Statement.index) hs
  rw [index_readAll h] at hmem
  simpa using (List.mem_range'_1.mp hmem).2

/-! ## Statements that are left -/

/-- The number of positions before one that are kept. -/
def rank (keep : Nat → Bool) (i : Nat) : Nat := (List.range i).countP keep

omit [Scalar α] in
theorem rank_succ (keep : Nat → Bool) (i : Nat) :
    rank keep (i + 1) = rank keep i + if keep i then 1 else 0 := by
  simp [rank, List.range_succ, List.countP_append, List.countP_cons]

/-- The statements of the texts that are kept. -/
theorem Statement.readAll_filter (keep : Nat → Bool) {i : Nat} {texts : List String}
    {ss : List (Statement α)} (h : readAll i texts = .ok ss) :
    readAll (rank keep i)
        ((texts.zipIdx i).filterMap fun (t, n) => if keep n then some t else none) =
      .ok ((ss.filter (keep ·.index)).map (·.renumber (rank keep))) := by
  induction texts generalizing i ss with
  | nil => cases h; rfl
  | cons text texts ih =>
    obtain ⟨s, ss', hs, hss, rfl⟩ := readAll_cons.mp h
    have hi := index_read hs
    have ih := ih hss
    rw [rank_succ] at ih
    cases hk : keep i with
    | false => simpa [hk, hi] using ih
    | true =>
      have hs' : Statement.read (rank keep i) text = .ok (s.renumber (rank keep)) := by
        rw [read_eq i, hs]
        simp [Except.map, renumber, hi]
      simp only [hk, ↓reduceIte] at ih
      simp only [List.zipIdx_cons, List.filterMap_cons, hk, ↓reduceIte, hi, List.filter_cons,
        List.map_cons]
      exact readAll_cons.mpr ⟨_, _, hs', ih, rfl⟩

omit [Scalar α] in
theorem rank_lt {keep : Nat → Bool} {i j : Nat} (hi : keep i = true) (hij : i < j) :
    rank keep i < rank keep j := by
  have hmono : ∀ n, rank keep (i + 1) ≤ rank keep (i + 1 + n) := by
    intro n
    induction n with
    | zero => exact Nat.le_refl _
    | succ n ih =>
      refine Nat.le_trans ih ?_
      rw [← Nat.add_assoc, rank_succ]
      exact Nat.le_add_right ..
  have h := hmono (j - (i + 1))
  rw [Nat.add_sub_cancel' hij, rank_succ, if_pos hi] at h
  omega

omit [Scalar α] in
/-- Positions that are kept stay different. -/
theorem rank_injective {keep : Nat → Bool} {i j : Nat} (hi : keep i = true) (hj : keep j = true)
    (h : rank keep i = rank keep j) : i = j := by
  rcases Nat.lt_trichotomy i j with hij | hij | hij
  · exact absurd h (Nat.ne_of_lt (rank_lt hi hij))
  · exact hij
  · exact absurd h (Nat.ne_of_gt (rank_lt hj hij))

/-- A document that is written again without some of its statements reads as these. -/
theorem Statement.readAll_serialize {keep : Nat → Bool} {text written : String}
    {statements : List (Option String)} {ss : List (Statement α)}
    (h : readAll 0 (splitStatements text) = .ok ss)
    (hk : statements = (splitStatements text).zipIdx.map fun (t, n) =>
      if keep n then some t else none)
    (hw : serialize statements none = some written) :
    readAll 0 (splitStatements written) =
      .ok ((ss.filter (keep ·.index)).map (·.renumber (rank keep))) := by
  have hst : ∀ t, some t ∈ statements → IsStatement t := by
    intro t ht
    rw [hk] at ht
    obtain ⟨⟨t', n⟩, hmem, he⟩ := List.mem_map.mp ht
    have ht' := List.fst_mem_of_mem_zipIdx hmem
    dsimp only at he
    split at he
    · cases he
      exact isStatement_of_mem ht'
    · cases he
  rw [splitStatements_serialize hst hw, hk, List.filterMap_map]
  exact readAll_filter keep h

end Reading

end WallPanel
