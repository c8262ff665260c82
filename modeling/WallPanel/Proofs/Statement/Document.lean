import Mathlib.Data.List.DropRight
import WallPanel.Statement.Document

/-!
# The statements of a document that is written

A document that is written from texts has the statements of all of them, one text after the other
(`splitStatements_joinLines`), whatever blanks and terminators are in the texts. The texts of
statements have these statements again (`splitStatements_serialize`).

* `Separated.exists_split_append`: where two texts meet, two pieces become one.
* `splitStatements_append`, `splitStatements_blanks`: terminators divide, and blanks do not count.
* `splitStatements_closeStatement`: nor does the terminator that a text is ended by.
-/

namespace WallPanel

/-! ## Trimmed texts -/

namespace Blank

theorem trimEnd_isPrefix (cs : List Char) : trimEnd cs <+: cs := by
  have h := List.dropWhile_suffix isBlank (l := cs.reverse)
  simpa [trimEnd, dropEndWhile] using List.reverse_prefix.mpr h

theorem trim_sublist (cs : List Char) : (trim cs).Sublist cs :=
  (trimEnd_isPrefix _).sublist.trans (List.dropWhile_suffix _).sublist

theorem trimStart_of_head {c : Char} {cs : List Char} (h : isBlank c = false) :
    trimStart (c :: cs) = c :: cs := by
  simp [trimStart, h]

theorem trimEnd_trimEnd (cs : List Char) : trimEnd (trimEnd cs) = trimEnd cs := by
  simp [trimEnd, dropEndWhile, List.dropWhile_idempotent]

/-- What is left of a text begins with no blank. -/
theorem trimStart_trimEnd {cs : List Char} (h : trimStart cs = cs) :
    trimStart (trimEnd cs) = trimEnd cs := by
  cases ht : trimEnd cs with
  | nil => rfl
  | cons c ts =>
    obtain ⟨rest, hrest⟩ := trimEnd_isPrefix cs
    rw [ht] at hrest
    have hc : isBlank c = false := by
      by_contra hb
      have := congrArg List.length h
      rw [← hrest, trimStart, List.cons_append,
        List.dropWhile_cons_of_pos (by simpa using hb)] at this
      have hle := (List.dropWhile_suffix isBlank (l := ts ++ rest)).length_le
      simp only [List.length_cons] at this
      omega
    exact trimStart_of_head hc

theorem trim_trim (cs : List Char) : trim (trim cs) = trim cs := by
  have h : trimStart (trimStart cs) = trimStart cs := List.dropWhile_idempotent ..
  rw [trim, trim, trimStart_trimEnd h, trimEnd_trimEnd]

/-- Blanks in front do not count. -/
theorem trim_append {bs cs : List Char} (h : ∀ c ∈ bs, isBlank c = true) :
    trim (bs ++ cs) = trim cs := by
  rw [trim, trimStart, List.dropWhile_append_of_pos h]
  rfl

/-- Nothing is left of a text exactly if it is blank. -/
theorem trim_eq_nil_iff {cs : List Char} : trim cs = [] ↔ ∀ c ∈ cs, isBlank c = true := by
  induction cs with
  | nil => exact iff_of_true rfl nofun
  | cons c cs ih =>
    cases hc : isBlank c with
    | true =>
      rw [← List.singleton_append, trim_append (by simpa using hc), ih]
      simp [hc]
    | false =>
      rw [trim, trimStart_of_head hc, trimEnd, dropEndWhile, List.reverse_eq_nil_iff,
        List.dropWhile_eq_nil_iff]
      simp only [List.mem_reverse]

/-- Blanks at the end do not count. -/
theorem trim_append_blanks {cs bs : List Char} (h : ∀ c ∈ bs, isBlank c = true) :
    trim (cs ++ bs) = trim cs := by
  induction cs with
  | nil => exact trim_eq_nil_iff.mpr h
  | cons c cs ih =>
    cases hc : isBlank c with
    | true =>
      have hfront : ∀ d ∈ [c], isBlank d = true := by simpa using hc
      calc trim (c :: cs ++ bs) = trim (cs ++ bs) := trim_append hfront
        _ = trim cs := ih
        _ = trim (c :: cs) := (trim_append hfront).symm
    | false =>
      have hback : ∀ d ∈ bs.reverse, isBlank d = true := by simpa using h
      rw [List.cons_append, trim, trim, trimStart_of_head hc, trimStart_of_head hc, trimEnd,
        trimEnd, dropEndWhile, dropEndWhile, ← List.cons_append, List.reverse_append,
        List.dropWhile_append_of_pos hback]

/-- A text is what is left of it, with blanks around. -/
theorem exists_blanks (cs : List Char) : ∃ bs bs' : List Char, cs = bs ++ trim cs ++ bs' ∧
    (∀ c ∈ bs, isBlank c = true) ∧ ∀ c ∈ bs', isBlank c = true := by
  refine ⟨cs.takeWhile isBlank, ((trimStart cs).reverse.takeWhile isBlank).reverse, ?_,
    fun c => List.mem_takeWhile_imp, fun c hc => List.mem_takeWhile_imp (List.mem_reverse.mp hc)⟩
  have hend : trim cs ++ ((trimStart cs).reverse.takeWhile isBlank).reverse = trimStart cs := by
    rw [trim, trimEnd, dropEndWhile, ← List.reverse_append, List.takeWhile_append_dropWhile,
      List.reverse_reverse]
  rw [List.append_assoc, hend]
  exact List.takeWhile_append_dropWhile.symm

end Blank

namespace Separated

theorem split_append {sep : Char} {cs rest : List Char} (h : sep ∉ cs) :
    split sep (cs ++ sep :: rest) = cs :: split sep rest := by
  induction cs with
  | nil => simp [split]
  | cons c cs ih =>
    rw [List.mem_cons, not_or] at h
    rw [List.cons_append, split, if_neg (Ne.symm h.1), ih h.2]

theorem split_of_notMem {sep : Char} {cs : List Char} (h : sep ∉ cs) : split sep cs = [cs] := by
  induction cs with
  | nil => rfl
  | cons c cs ih =>
    rw [List.mem_cons, not_or] at h
    rw [split, if_neg (Ne.symm h.1), ih h.2]

theorem notMem_of_mem_split {sep : Char} {cs piece : List Char} (h : piece ∈ split sep cs) :
    sep ∉ piece := by
  induction cs generalizing piece with
  | nil => simp_all [split]
  | cons c cs ih =>
    rw [split] at h
    split at h
    · rcases List.mem_cons.mp h with rfl | h
      · simp
      · exact ih h
    · next hc =>
      cases hs : split sep cs with
      | nil => exact absurd hs (split_ne_nil sep cs)
      | cons q qs =>
        rw [hs] at h ih
        rcases List.mem_cons.mp h with rfl | h
        · simpa [Ne.symm hc] using ih List.mem_cons_self
        · exact ih (List.mem_cons_of_mem _ h)

/-- Where two texts meet, the last piece of the one and the first of the other make one piece. -/
theorem exists_split_append (sep : Char) (cs ds : List Char) : ∃ init last first rest,
    split sep cs = init ++ [last] ∧ split sep ds = first :: rest ∧
      split sep (cs ++ ds) = init ++ (last ++ first) :: rest := by
  induction cs with
  | nil =>
    obtain ⟨first, rest, hds⟩ := List.exists_cons_of_ne_nil (split_ne_nil sep ds)
    exact ⟨[], [], first, rest, rfl, hds, hds⟩
  | cons c cs ih =>
    obtain ⟨init, last, first, rest, hcs, hds, happ⟩ := ih
    rw [List.cons_append, split, split, hcs, happ]
    split
    · exact ⟨[] :: init, last, first, rest, rfl, hds, rfl⟩
    · cases init with
      | nil => exact ⟨[], c :: last, first, rest, rfl, hds, rfl⟩
      | cons p init => exact ⟨(c :: p) :: init, last, first, rest, rfl, hds, rfl⟩

theorem split_append_sep (sep : Char) (cs ds : List Char) :
    split sep (cs ++ sep :: ds) = split sep cs ++ split sep ds := by
  obtain ⟨init, last, first, rest, hcs, hds, happ⟩ := exists_split_append sep cs (sep :: ds)
  rw [split, if_pos rfl] at hds
  obtain ⟨rfl, rfl⟩ := List.cons.inj hds
  rw [happ, hcs, List.append_nil, List.append_assoc, List.singleton_append]

end Separated

/-! ## Statements of a document -/

/-- Whether a text is a statement as it stands in a document: it is not empty, has no blanks around
it and no terminator in it. -/
structure IsStatement (text : String) : Prop where
  nonempty : text.toList ≠ []
  trimmed : Blank.trim text.toList = text.toList
  unended : terminator ∉ text.toList

theorem IsStatement.ne_empty {t : String} (h : IsStatement t) : t ≠ "" := by
  rintro rfl
  exact h.nonempty rfl

theorem isStatement_of_mem {text t : String} (h : t ∈ splitStatements text) : IsStatement t := by
  simp only [splitStatements, List.mem_map, List.mem_filter] at h
  obtain ⟨cs, ⟨⟨piece, hpiece, rfl⟩, hne⟩, rfl⟩ := h
  refine ⟨by simpa using hne, by simpa using Blank.trim_trim piece, fun hmem => ?_⟩
  exact Separated.notMem_of_mem_split hpiece
    ((Blank.trim_sublist piece).subset (by simpa using hmem))

theorem IsStatement.closeStatement {t : String} (h : IsStatement t) :
    closeStatement t = some (t ++ ";") := by
  obtain ⟨cs, last, hl⟩ := (List.eq_nil_or_concat' t.toList).resolve_left h.nonempty
  have hne : last ≠ terminator := by
    rintro rfl
    exact h.unended (by simp [hl])
  have ht : String.ofList (t.toList ++ [terminator]) = t ++ ";" :=
    String.toList_injective (by simp [terminator])
  simp only [WallPanel.closeStatement, h.trimmed, ← ht]
  simp [hl, hne]

/-- A statement that stands in a document is the only one of its text. -/
theorem IsStatement.splitStatements {t : String} (h : IsStatement t) : splitStatements t = [t] := by
  rw [WallPanel.splitStatements, Separated.split_of_notMem h.unended, List.map_singleton, h.trimmed,
    List.filter_cons_of_pos (by simpa using h.nonempty)]
  simp

theorem flatMap_splitStatements {texts : List String} (h : ∀ t ∈ texts, IsStatement t) :
    texts.flatMap splitStatements = texts := by
  rw [List.flatMap_congr fun t ht => (h t ht).splitStatements, List.flatMap_singleton']

/-- The statements on both sides of a terminator. -/
theorem splitStatements_append (cs ds : List Char) :
    splitStatements (String.ofList (cs ++ terminator :: ds)) =
      splitStatements (String.ofList cs) ++ splitStatements (String.ofList ds) := by
  simp only [splitStatements, String.toList_ofList, Separated.split_append_sep, List.map_append,
    List.filter_append]

/-- The pieces between terminators, but for blanks around them, with blanks around the text. -/
theorem map_trim_split_blanks {bs bs' : List Char} (h : ∀ c ∈ bs, Blank.isBlank c = true)
    (h' : ∀ c ∈ bs', Blank.isBlank c = true) (cs : List Char) :
    (Separated.split terminator (bs ++ cs ++ bs')).map Blank.trim =
      (Separated.split terminator cs).map Blank.trim := by
  have hsplit {bs : List Char} (h : ∀ c ∈ bs, Blank.isBlank c = true) :
      Separated.split terminator bs = [bs] :=
    Separated.split_of_notMem fun hc => absurd (h _ hc) (by decide)
  have hfront : (Separated.split terminator (bs ++ cs)).map Blank.trim =
      (Separated.split terminator cs).map Blank.trim := by
    obtain ⟨init, last, first, rest, hbs, hcs, happ⟩ :=
      Separated.exists_split_append terminator bs cs
    have hone : [] ++ [bs] = init ++ [last] := (hsplit h).symm.trans hbs
    obtain ⟨rfl, ⟨⟩⟩ := List.append_inj' hone rfl
    rw [happ, hcs, List.nil_append, List.map_cons, List.map_cons, Blank.trim_append h]
  have hback : (Separated.split terminator (bs ++ cs ++ bs')).map Blank.trim =
      (Separated.split terminator (bs ++ cs)).map Blank.trim := by
    obtain ⟨init, last, first, rest, hcs, hbs, happ⟩ :=
      Separated.exists_split_append terminator (bs ++ cs) bs'
    obtain ⟨rfl, rfl⟩ := List.cons.inj (hsplit h' ▸ hbs)
    rw [happ, hcs, List.map_append, List.map_append, List.map_singleton, List.map_singleton,
      Blank.trim_append_blanks h']
  rw [hback, hfront]

/-- Blanks around a text are in none of its statements. -/
theorem splitStatements_blanks {bs bs' : List Char} (h : ∀ c ∈ bs, Blank.isBlank c = true)
    (h' : ∀ c ∈ bs', Blank.isBlank c = true) (cs : List Char) :
    splitStatements (String.ofList (bs ++ cs ++ bs')) = splitStatements (String.ofList cs) := by
  simp only [splitStatements, String.toList_ofList, map_trim_split_blanks h h']

/-- A text that is ended by a terminator has the statements that it had. -/
theorem splitStatements_closeStatement {t : String} :
    (closeStatement t = none → splitStatements t = []) ∧
      ∀ line, closeStatement t = some line → ∃ cs, line.toList = cs ++ [terminator] ∧
        splitStatements (String.ofList cs) = splitStatements t := by
  obtain ⟨bs, bs', hblanks, h, h'⟩ := Blank.exists_blanks t.toList
  have htrim : splitStatements (String.ofList (Blank.trim t.toList)) = splitStatements t := by
    rw [← splitStatements_blanks h h', ← hblanks, String.ofList_toList]
  rcases List.eq_nil_or_concat' (Blank.trim t.toList) with hnil | ⟨cs, last, hlast⟩
  · have hnone : closeStatement t = none := by simp [closeStatement, hnil]
    refine ⟨fun _ => ?_, fun line hline => by simp [hnone] at hline⟩
    rw [← htrim, hnil]
    rfl
  · have hsome : closeStatement t = some (String.ofList
        (if last = terminator then cs ++ [last] else cs ++ [last] ++ [terminator])) := by
      simp [closeStatement, hlast]
    refine ⟨fun hnone => by simp [hsome] at hnone, fun line hline => ?_⟩
    obtain rfl := Option.some.inj (hsome.symm.trans hline)
    rw [← htrim, hlast, String.toList_ofList]
    split
    · next heq =>
      -- the terminator that is there already ends a blank piece
      refine ⟨cs, by rw [heq], ?_⟩
      rw [heq, splitStatements_append, show splitStatements (String.ofList []) = [] from rfl,
        List.append_nil]
    · exact ⟨cs ++ [last], rfl, rfl⟩

/-- A document that is written from texts has the statements of all of them, in order. -/
theorem splitStatements_joinLines (texts : List (Option String)) :
    splitStatements (joinLines (survivingStatements texts)) =
      (texts.filterMap id).flatMap splitStatements := by
  have hbreak : ∀ c ∈ ['\n'], Blank.isBlank c = true := by
    intro c hc
    rw [List.mem_singleton.mp hc]
    decide
  induction texts with
  | nil => rfl
  | cons t texts ih =>
    obtain _ | t := t
    · exact ih
    · obtain ⟨hnone, hsome⟩ := @splitStatements_closeStatement t
      rw [show (some t :: texts).filterMap id = t :: texts.filterMap id from rfl,
        List.flatMap_cons, ← ih]
      cases hc : closeStatement t with
      | none =>
        rw [hnone hc, survivingStatements, List.filterMap_cons_none (by simpa using hc)]
        rfl
      | some line =>
        obtain ⟨cs, hline, hcs⟩ := hsome line hc
        rw [survivingStatements, List.filterMap_cons_some (by simpa using hc), ← hcs]
        have hlines (lines : List String) : joinLines (line :: lines) = String.ofList
            (cs ++ terminator :: (['\n'] ++ (joinLines lines).toList ++ [])) := by
          simp [joinLines, hline]
        rw [hlines, splitStatements_append, splitStatements_blanks hbreak (by simp),
          String.ofList_toList]
        rfl

theorem eq_joinLines_of_serialize {texts : List (Option String)} {text : String}
    (h : serialize texts none = some text) : text = joinLines (survivingStatements texts) := by
  unfold serialize at h
  split at h
  · cases h
  · exact (Option.some.inj h).symm

theorem survivingStatements_eq_nil {texts : List (Option String)}
    (h : serialize texts none = none) : survivingStatements texts = [] := by
  unfold serialize at h
  split at h
  · assumption
  · cases h

/-- The statements of a document that is written again are those that were left in it. -/
theorem splitStatements_serialize {statements : List (Option String)} {text : String}
    (h : ∀ t, some t ∈ statements → IsStatement t)
    (hs : serialize statements none = some text) :
    splitStatements text = statements.filterMap id := by
  rw [eq_joinLines_of_serialize hs, splitStatements_joinLines]
  exact flatMap_splitStatements (by simpa using h)

end WallPanel
