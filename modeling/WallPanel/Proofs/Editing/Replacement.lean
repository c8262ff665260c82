import WallPanel.Proofs.Editing.RoundTrip

/-!
# Replacing statements

Statements are replaced in the text of a document and nowhere else: the new document has the
statements that were left before the first of the positions that are named, then those of the new
texts, then those that were left behind it and are not named (`WallModel.replaced`). Whether the
request is granted, and what it gives, depends on these statements alone
(`WallModel.replaced_of_session`).

* `WallModel.replacedStatements_eq`: what is written, by the positions of the statements.
* `WallModel.replaceStatements_eq`: the request is a reading of what is written.
* `WallModel.Spelled.splitStatements_rewritten`: every line that is left is one statement again.
* `WallModel.rewritten_self`: a statement put in its own place changes nothing.
-/

namespace WallPanel.WallModel

variable {α : Type} {m : WallModel α} {indices : List (Option Int)} {first : Nat}
  {new : List String}

/-! ## Positions and statements -/

/-- Whether a position is the first one of the document that indices name. -/
structure IsFirst (m : WallModel α) (indices : List (Option Int)) (first : Nat) : Prop where
  inside : first < m.statements.length
  named : some (first : Int) ∈ indices
  least : ∀ i < first, some (i : Int) ∉ indices

/-- The live ones of statements at the positions, counted from `n`, that satisfy `p`, in order. -/
def liveFrom (p : Nat → Prop) [DecidablePred p] (n : Nat) (ss : List (Option String)) :
    List String :=
  (ss.zipIdx n).filterMap fun (s, i) => if p i then s else none

/-- The live statements before a position. -/
def leading (m : WallModel α) (first : Nat) : List String :=
  liveFrom (· < first) 0 m.statements

/-- The live statements behind a position that indices do not name. -/
def trailing (m : WallModel α) (indices : List (Option Int)) (first : Nat) : List String :=
  liveFrom (fun i => first < i ∧ some (i : Int) ∉ indices) 0 m.statements

/-- The texts of a document with new ones from a position on in place of those that are named. -/
def rewritten (m : WallModel α) (indices : List (Option Int)) (first : Nat) (new : List String) :
    List String :=
  m.leading first ++ new ++ m.trailing indices first

/-- The statements of a document with those of new texts from a position on in place of those that
are named. -/
def replaced (m : WallModel α) (indices : List (Option Int)) (first : Nat) (new : List String) :
    List String :=
  m.leading first ++ new.flatMap splitStatements ++ m.trailing indices first

/-- What a model is whose statements have been replaced: it has the statements of the new document,
and it is what is read from that document, however it is written, but for the text. -/
structure Replaced [Scalar α] (m : WallModel α) (indices : List (Option Int)) (first : Nat)
    (new : List String) (m' : WallModel α) : Prop where
  isFirst : m.IsFirst indices first
  statements : m'.statements = (m.replaced indices first new).map some
  read : ∃ text, serialize ((m.rewritten indices first new).map some) none = some text ∧
    parseModel text m.nextEditorId = .ok m'
  reread : ∀ text, splitStatements text = m.replaced indices first new →
    parseModel text m.nextEditorId = .ok { m' with source := some text }

/-! ## Live statements -/

section Live

variable {p : Nat → Prop} [DecidablePred p] {n : Nat} {ss : List (Option String)}

theorem liveFrom_eq_append (h : n ≤ ss.length) :
    liveFrom p 0 ss = liveFrom p 0 (ss.take n) ++ liveFrom p n (ss.drop n) := by
  conv => lhs; rw [liveFrom, ← List.take_append_drop n ss]
  rw [List.zipIdx_append, List.filterMap_append, List.length_take_of_le h, Nat.zero_add]
  rfl

theorem liveFrom_congr {q : Nat → Prop} [DecidablePred q]
    (h : ∀ i, n ≤ i → i < n + ss.length → (p i ↔ q i)) : liveFrom p n ss = liveFrom q n ss :=
  List.filterMap_congr fun x hx => if_congr
    (h x.2 (List.le_snd_of_mem_zipIdx hx) (List.snd_lt_add_of_mem_zipIdx hx)) rfl rfl

theorem liveFrom_true : liveFrom (fun _ => True) n ss = ss.filterMap id := by
  conv => rhs; rw [← List.zipIdx_map_fst n ss, List.filterMap_map]
  exact List.filterMap_congr fun _ _ => if_pos trivial

theorem liveFrom_false : liveFrom (fun _ => False) n ss = [] :=
  List.filterMap_eq_nil_iff.mpr fun _ _ => if_neg not_false

theorem liveStatements_eq (p : Nat → Bool) : liveStatements p n ss = liveFrom (p ·) n ss := by
  have hzip : ss.zipIdx n = ((List.range ss.length).zip ss).map fun x => (x.2, n + x.1) := by
    rw [List.zipIdx_eq_map_add, List.zipIdx_eq_zip_range', ← List.range_eq_range',
      ← List.zip_swap, List.map_map]
    rfl
  rw [liveFrom, hzip, List.filterMap_map]
  rfl

end Live

theorem leading_eq (h : first ≤ m.statements.length) :
    m.leading first = (m.statements.take first).filterMap id := by
  have hlength := List.length_take_of_le h
  have hbefore : liveFrom (· < first) 0 (m.statements.take first) =
      (m.statements.take first).filterMap id := by
    rw [← @liveFrom_true 0]
    exact liveFrom_congr fun i _ hi => iff_true_intro (by omega)
  have hafter : liveFrom (· < first) first (m.statements.drop first) = [] := by
    rw [← @liveFrom_false first (m.statements.drop first)]
    exact liveFrom_congr fun i hi _ => iff_false_intro (by omega)
  rw [leading, liveFrom_eq_append h, hbefore, hafter, List.append_nil]

theorem trailing_eq {n : Nat} (hn : n ≤ first + 1) (h : n ≤ m.statements.length) :
    m.trailing indices first =
      liveFrom (fun i => first < i ∧ some (i : Int) ∉ indices) n (m.statements.drop n) := by
  have hlength := List.length_take_of_le h
  have hbefore : liveFrom (fun i => first < i ∧ some (i : Int) ∉ indices) 0
      (m.statements.take n) = [] := by
    rw [← @liveFrom_false 0 (m.statements.take n)]
    exact liveFrom_congr fun i _ hi => iff_false_intro (by omega)
  rw [trailing, liveFrom_eq_append h, hbefore, List.nil_append]

/-- A statement put in its own place gives the statements that were there. -/
theorem rewritten_self {t : String} (h : m.statements[first]? = some (some t)) :
    m.rewritten [some (first : Int)] first [t] = m.live := by
  obtain ⟨hlt, hget⟩ := List.getElem?_eq_some_iff.mp h
  have hbehind : m.trailing [some (first : Int)] first =
      (m.statements.drop (first + 1)).filterMap id := by
    rw [trailing_eq le_rfl hlt, ← @liveFrom_true (first + 1)]
    refine liveFrom_congr fun i hi _ => iff_true_intro ⟨hi, ?_⟩
    simp only [List.mem_singleton, Option.some.injEq]
    omega
  rw [rewritten, leading_eq hlt.le, hbehind, live]
  conv => rhs; rw [← List.take_append_drop first m.statements, List.drop_eq_getElem_cons hlt, hget]
  simp

/-! ## What is written -/

theorem mem_knownIndices {i : Nat} : i ∈ m.knownIndices indices ↔
    i < m.statements.length ∧ some (i : Int) ∈ indices := by
  simp [knownIndices]

theorem head?_knownIndices :
    (m.knownIndices indices).head? = some first ↔ m.IsFirst indices first := by
  rw [knownIndices, List.head?_filter, List.find?_range_eq_some]
  simp only [List.mem_range, Bool.not_eq_true', List.contains_eq_mem, decide_eq_true_eq,
    decide_eq_false_iff_not]
  exact ⟨fun ⟨hn, hi, hl⟩ => ⟨hi, hn, hl⟩, fun h => ⟨h.named, h.inside, h.least⟩⟩

theorem knownIndices_eq_nil (h : ∀ first, ¬m.IsFirst indices first) :
    m.knownIndices indices = [] := by
  rw [← List.head?_eq_none_iff, Option.eq_none_iff_forall_ne_some]
  exact fun first he => h first (head?_knownIndices.mp he)

/-- What is put together for a request, by the positions of the statements. -/
theorem replacedStatements_eq (h : m.IsFirst indices first) :
    m.replacedStatements (m.knownIndices indices) first new = m.rewritten indices first new := by
  have hle := h.inside.le
  have hbefore : liveStatements (fun _ => true) 0 (m.statements.take first) = m.leading first := by
    rw [leading_eq hle, liveStatements_eq, ← @liveFrom_true 0]
    exact liveFrom_congr fun _ _ _ => iff_of_true rfl trivial
  have hbehind : liveStatements (fun i => !(m.knownIndices indices).contains i) first
      (m.statements.drop first) = m.trailing indices first := by
    rw [trailing_eq (Nat.le_succ first) hle, liveStatements_eq]
    refine liveFrom_congr fun i hi hlt => ?_
    rw [List.length_drop] at hlt
    have hinside : i < m.statements.length := by omega
    simp only [List.contains_eq_mem, mem_knownIndices, hinside, true_and, Bool.not_eq_true',
      decide_eq_false_iff_not, iff_and_self]
    -- the first position is named, so one that is not named lies behind it
    intro hnot
    exact lt_of_le_of_ne hi fun he => hnot (he ▸ h.named)
  rw [replacedStatements, rewritten, hbefore, hbehind]

variable [Scalar α] {text : String} {k : Int} {m' : WallModel α}

/-- A request that names a statement is a reading of what is put together. -/
theorem replaceStatements_eq (h : m.IsFirst indices first) :
    m.replaceStatements indices new =
      match serialize ((m.rewritten indices first new).map some) none with
      | none => .ok (.declined .emptyDocument)
      | some text =>
        match parseModel text m.nextEditorId with
        | .ok m' => .ok ⟨some m', 1, []⟩
        | .error (.refused refusal) => .ok (.declined (.refused refusal))
        | .error fault => .error fault := by
  have hfirst := head?_knownIndices.mpr h
  rw [replaceStatements, ← replacedStatements_eq h]
  split
  · next hnil => simp [hnil] at hfirst
  · next hcons =>
    obtain rfl : _ = first := by simpa [hcons] using hfirst
    rewrite [hcons]
    rfl

/-- A request is granted exactly if it names a statement and what is put together can be read, and
the new model is what is read. -/
theorem replaceStatements_eq_ok {e : Edit α} :
    m.replaceStatements indices new = .ok e ∧ e.count ≠ 0 ↔
      ∃ first text m', m.IsFirst indices first ∧
        serialize ((m.rewritten indices first new).map some) none = some text ∧
        parseModel text m.nextEditorId = .ok m' ∧ e = ⟨some m', 1, []⟩ := by
  constructor
  · rintro ⟨h, hcount⟩
    by_cases hfirst : ∃ first, m.IsFirst indices first
    · obtain ⟨first, hfirst⟩ := hfirst
      rw [replaceStatements_eq hfirst] at h
      split at h
      · cases h; exact absurd rfl hcount
      · next text htext =>
        split at h
        · next m' hm => cases h; exact ⟨first, text, m', hfirst, htext, hm, rfl⟩
        · cases h; exact absurd rfl hcount
        · cases h
    · rw [replaceStatements, knownIndices_eq_nil (not_exists.mp hfirst)] at h
      cases h
      exact absurd rfl hcount
  · rintro ⟨first, text, m', hfirst, htext, hm, rfl⟩
    refine ⟨?_, Nat.one_ne_zero⟩
    rw [replaceStatements_eq hfirst, htext]
    simp only [hm]

/-! ## What is read -/

omit [Scalar α] in
theorem Spelled.isStatement_of_mem_liveFrom (h : m.Spelled) {p : Nat → Prop} [DecidablePred p] :
    ∀ t ∈ liveFrom p 0 m.statements, IsStatement t := by
  intro t ht
  obtain ⟨⟨s, i⟩, hs, ht⟩ := List.mem_filterMap.mp ht
  obtain ⟨-, rfl⟩ := Option.ite_none_right_eq_some.mp ht
  exact h.statements t (List.fst_mem_of_mem_zipIdx hs)

omit [Scalar α] in
/-- What is put together has the statements that were left, and those of the new texts. -/
theorem Spelled.splitStatements_rewritten (h : m.Spelled) (indices : List (Option Int))
    (first : Nat) (new : List String) :
    splitStatements (joinLines (survivingStatements ((m.rewritten indices first new).map some))) =
      m.replaced indices first new := by
  rw [splitStatements_joinLines, List.filterMap_map, Function.id_comp, List.filterMap_some,
    rewritten, List.flatMap_append, List.flatMap_append, leading, trailing,
    flatMap_splitStatements h.isStatement_of_mem_liveFrom,
    flatMap_splitStatements h.isStatement_of_mem_liveFrom]
  rfl

omit [Scalar α] in
theorem Spelled.splitStatements_of_serialize (h : m.Spelled)
    (hs : serialize ((m.rewritten indices first new).map some) none = some text) :
    splitStatements text = m.replaced indices first new :=
  eq_joinLines_of_serialize hs ▸ h.splitStatements_rewritten ..

/-- Two texts with the same statements give the same model but for the text. -/
theorem parseModel_congr {text' : String} (h : splitStatements text' = splitStatements text)
    (hm : parseModel text k = .ok m) :
    parseModel text' k = .ok { m with source := some text' } := by
  have hzero : m.relabel 0 text' = { m with source := some text' } := by
    simp [relabel]
  have hread := parseModel_relabel (α := α) h (splitStatements_ne_nil hm) k 0
  rw [hm, Int.add_zero] at hread
  rw [hread, ← hzero]
  rfl

theorem Spelled.replaced_of_read (h : m.Spelled) (hfirst : m.IsFirst indices first)
    (hs : serialize ((m.rewritten indices first new).map some) none = some text)
    (hm : parseModel text m.nextEditorId = .ok m') : m.Replaced indices first new m' := by
  have hsplit := h.splitStatements_of_serialize hs
  obtain ⟨-, -, hst⟩ := says_of_parseModel hm
  exact ⟨hfirst, by rw [hst, hsplit], ⟨text, hs, hm⟩,
    fun text' ht => parseModel_congr (ht.trans hsplit.symm) hm⟩

/-- What is put together can be read if any text with the new statements can. -/
theorem Spelled.exists_read (h : m.Spelled)
    (ht : splitStatements text = m.replaced indices first new)
    (hm : parseModel text m.nextEditorId = .ok m') :
    ∃ text', serialize ((m.rewritten indices first new).map some) none = some text' ∧
      parseModel text' m.nextEditorId = .ok { m' with source := some text' } := by
  cases hs : serialize ((m.rewritten indices first new).map some) none with
  | none =>
    have hsplit := h.splitStatements_rewritten indices first new
    rw [survivingStatements_eq_nil hs, ← ht] at hsplit
    exact absurd hsplit.symm (splitStatements_ne_nil hm)
  | some text' =>
    exact ⟨text', rfl, parseModel_congr ((h.splitStatements_of_serialize hs).trans ht.symm) hm⟩

/-- A statement put in its own place: the document is read again. -/
theorem Spelled.replaceStatements_self (h : m.Spelled) {i : Nat} {t : String}
    (hi : m.statements[i]? = some (some t)) :
    m.replaceStatements [some (i : Int)] [t] =
      match m.reparse with
      | .ok m' => .ok ⟨some m', 1, []⟩
      | .error (.refused refusal) => .ok (.declined (.refused refusal))
      | .error fault => .error fault := by
  have hfirst : m.IsFirst [some (i : Int)] i := by
    refine ⟨(List.getElem?_eq_some_iff.mp hi).1, List.mem_singleton_self _, fun j hj => ?_⟩
    simp only [List.mem_singleton, Option.some.injEq]
    omega
  have hlines : survivingStatements (m.live.map some) = survivingStatements m.statements := by
    rw [survivingStatements, live, List.map_filterMap, List.filterMap_filterMap]
    exact List.filterMap_congr fun s _ => by cases s <;> rfl
  have hlive : m.live ≠ [] :=
    List.ne_nil_of_mem (List.mem_filterMap.mpr ⟨_, List.mem_of_getElem? hi, rfl⟩)
  have hserialize : serialize (m.live.map some) none = serialize m.statements none := by
    rw [serialize, serialize, hlines]
  rw [replaceStatements_eq hfirst, rewritten_self hi, hserialize, reparse, h.serialize_eq hlive]

/-! ## Sessions -/

/-- Whatever an editor has been asked, it replaces statements in the text and nowhere else. When a
request is granted, the new model has the statements that were left before the first position that
is named, then those of the new texts, then those that were left behind it and are not named, and it
is what is read from any text with these statements. The request is granted exactly if a position of
the document is named, and there is such a text, not without statements, that can be read. So a
statement put in its own place does what reading the document again does. -/
theorem replaced_of_session {s : WallModel α} {qs : List (EditRequest α)}
    (hm : parseModel text k = .ok m) (hs : m.withIds.session qs = s) (indices : List (Option Int))
    (new : List String) :
    (∀ e, s.replaceStatements indices new = .ok e → e.count ≠ 0 → ∃ s' first,
      e = ⟨some s', 1, []⟩ ∧ s.Replaced indices first new s') ∧
    ((∃ e, s.replaceStatements indices new = .ok e ∧ e.count ≠ 0) ↔
      ∃ (first : Nat) (written : String) (s' : WallModel α), s.IsFirst indices first ∧
        s.replaced indices first new ≠ [] ∧
        splitStatements written = s.replaced indices first new ∧
        parseModel written s.nextEditorId = .ok s') ∧
    ∀ (i : Nat) (t : String), s.statements[i]? = some (some t) →
      (∀ s', s.replaceStatements [some (i : Int)] [t] = .ok ⟨some s', 1, []⟩ ↔
        s.reparse = .ok s') ∧
      s.after (.replaceStatements [some (i : Int)] [t]) = s.after .reparse := by
  obtain ⟨-, hids, -⟩ := says_of_parseModel hm
  have hspelled : s.Spelled := by
    rw [← hs, withIds_eq hids]
    exact session_induction (fun _ _ hm hs => hs.spelled hm) (spelled_of_parseModel hm) qs
  refine ⟨fun e he hcount => ?_, ⟨?_, ?_⟩, fun i t hi => ⟨fun s' => ?_, ?_⟩⟩
  · obtain ⟨first, written, s', hfirst, hw, hs', rfl⟩ := replaceStatements_eq_ok.mp ⟨he, hcount⟩
    exact ⟨s', first, rfl, hspelled.replaced_of_read hfirst hw hs'⟩
  · rintro ⟨e, he⟩
    obtain ⟨first, written, s', hfirst, hw, hs', rfl⟩ := replaceStatements_eq_ok.mp he
    have hsplit := hspelled.splitStatements_of_serialize hw
    exact ⟨first, written, s', hfirst, hsplit ▸ splitStatements_ne_nil hs', hsplit, hs'⟩
  · rintro ⟨first, written, s', hfirst, -, hw, hs'⟩
    obtain ⟨written', hw', hs'⟩ := hspelled.exists_read hw hs'
    exact ⟨_, replaceStatements_eq_ok.mpr ⟨first, written', _, hfirst, hw', hs', rfl⟩⟩
  · rw [hspelled.replaceStatements_self hi]
    cases s.reparse with
    | ok s'' => simp
    | error fault => cases fault <;> simp [Edit.declined]
  · rw [after, after, answer, answer, hspelled.replaceStatements_self hi]
    cases s.reparse with
    | ok s'' => rfl
    | error fault => cases fault <;> rfl

set_option maxRecDepth 100000 in
/-- A drilling is deleted, and then two texts, of which one is two statements and the other none,
are put in place of a nail row and of the statement that is gone. -/
theorem replaced_of_session_of_four :
    ∃ (text : String) (m s : WallModel Float) (qs : List (EditRequest Float))
      (indices : List (Option Int)) (new : List String),
      text = "PLI1 9,9,1;NR 0,0,9,9;BOY 1,2,3,4;PAF;PP 0,0;PP 5,5" ∧ parseModel text 1 = .ok m ∧
      qs = [.delete [⟨"boy", 2⟩]] ∧ m.withIds.session qs = s ∧
      indices = [some 7, none, some 2, some (-1), some 1] ∧
      new = [" NR 1,1,2,2; ;BOY 1,1,2 ;", " "] ∧ s.IsFirst indices 1 ∧
      s.replaced indices 1 new =
        ["PLI1 9,9,1", "NR 1,1,2,2", "BOY 1,1,2", "PAF", "PP 0,0", "PP 5,5"] ∧
      (∃ e, s.replaceStatements indices new = .ok e ∧ e.count ≠ 0) ∧
      ((∀ e, s.replaceStatements indices new = .ok e → e.count ≠ 0 → ∃ s' first,
        e = ⟨some s', 1, []⟩ ∧ s.Replaced indices first new s') ∧
      ((∃ e, s.replaceStatements indices new = .ok e ∧ e.count ≠ 0) ↔
        ∃ (first : Nat) (written : String) (s' : WallModel Float), s.IsFirst indices first ∧
          s.replaced indices first new ≠ [] ∧
          splitStatements written = s.replaced indices first new ∧
          parseModel written s.nextEditorId = .ok s') ∧
      ∀ (i : Nat) (t : String), s.statements[i]? = some (some t) →
        (∀ s', s.replaceStatements [some (i : Int)] [t] = .ok ⟨some s', 1, []⟩ ↔
          s.reparse = .ok s') ∧
        s.after (.replaceStatements [some (i : Int)] [t]) = s.after .reparse) := by
  have heval : (do
      let m ← (parseModel (α := Float)
        "PLI1 9,9,1;NR 0,0,9,9;BOY 1,2,3,4;PAF;PP 0,0;PP 5,5" 1).toOption
      let s := m.withIds.session [.delete [⟨"boy", 2⟩]]
      let indices := [some 7, none, some 2, some (-1), some 1]
      let new := [" NR 1,1,2,2; ;BOY 1,1,2 ;", " "]
      let e ← (s.replaceStatements indices new).toOption
      if s.statements.length = 6 ∧ e.count ≠ 0 ∧ s.replaced indices 1 new =
        ["PLI1 9,9,1", "NR 1,1,2,2", "BOY 1,1,2", "PAF", "PP 0,0", "PP 5,5"]
      then some (m, e) else none).isSome = true := by
    decide +kernel
  obtain ⟨_, h⟩ := Option.isSome_iff_exists.mp heval
  simp only [Option.bind_eq_bind, Option.bind_eq_some_iff, Option.ite_none_right_eq_some] at h
  obtain ⟨m, hm, e, he, ⟨hlength, hcount, hreplaced⟩, -⟩ := h
  have hm := eq_ok_of_toOption hm
  have he := eq_ok_of_toOption he
  have hfirst : (m.withIds.session [.delete [⟨"boy", 2⟩]]).IsFirst
      [some 7, none, some 2, some (-1), some 1] 1 :=
    ⟨by rw [hlength]; decide, by decide, by decide⟩
  exact ⟨_, m, _, _, _, _, rfl, hm, rfl, rfl, rfl, rfl, hfirst, hreplaced, ⟨e, he, hcount⟩,
    replaced_of_session hm rfl _ _⟩

end WallPanel.WallModel
