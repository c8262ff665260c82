import WallPanel.Proofs.Number.Thousandths
import WallPanel.Proofs.Statement.Document

/-!
# Tokens and numbers of a statement

The numbers of a body are those of its tokens, one after the other (`bodyNumbers_eq`). A statement
that is written from a word and tokens has this word and these tokens (`splitCommand_joinCommand`,
`tokens_joinTokens`).
-/

namespace WallPanel

/-! ## Trimmed texts -/

namespace Blank

theorem dropWhile_eq_self_iff {p : Char → Bool} {cs : List Char} :
    cs.dropWhile p = cs ↔ ∀ c ∈ cs.head?, p c = false := by
  cases cs with
  | nil => simp
  | cons c cs =>
    cases hc : p c with
    | false => simp [hc]
    | true =>
      have hle := (List.dropWhile_suffix p (l := cs)).length_le
      refine iff_of_false (fun h => ?_) (by simp [hc])
      rw [List.dropWhile_cons_of_pos hc] at h
      have := congrArg List.length h
      simp only [List.length_cons] at this
      omega

theorem dropEndWhile_eq_self_iff {p : Char → Bool} {cs : List Char} :
    dropEndWhile p cs = cs ↔ ∀ c ∈ cs.getLast?, p c = false := by
  rw [dropEndWhile, ← List.head?_reverse, ← dropWhile_eq_self_iff, List.reverse_eq_iff]

/-- A text is trimmed if no blank stands at either end of it. -/
theorem trim_eq_self_iff {cs : List Char} :
    trim cs = cs ↔ (∀ c ∈ cs.head?, isBlank c = false) ∧ ∀ c ∈ cs.getLast?, isBlank c = false := by
  have hsub : (trimStart cs).Sublist cs := (List.dropWhile_suffix _).sublist
  constructor
  · intro h
    have hstart : trimStart cs = cs := by
      refine hsub.eq_of_length_le ?_
      conv => lhs; rw [← h]
      exact (trimEnd_isPrefix _).length_le
    rw [trim, hstart] at h
    exact ⟨dropWhile_eq_self_iff.mp hstart, dropEndWhile_eq_self_iff.mp h⟩
  · rintro ⟨hh, hl⟩
    rw [trim, trimStart, dropWhile_eq_self_iff.mpr hh]
    exact dropEndWhile_eq_self_iff.mpr hl

theorem trim_append_cons {cs ds : List Char} (hc : cs ≠ []) (hd : ds ≠ []) (h : trim cs = cs)
    (h' : trim ds = ds) (c : Char) : trim (cs ++ c :: ds) = cs ++ c :: ds := by
  rw [trim_eq_self_iff] at h h' ⊢
  refine ⟨by rw [List.head?_append_of_ne_nil _ hc]; exact h.1, ?_⟩
  rw [List.getLast?_append_of_ne_nil _ (by simp), List.getLast?_cons_of_ne_nil hd]
  exact h'.2

end Blank

/-! ## Joined texts -/

namespace Separated

theorem split_join {sep : Char} {pieces : List (List Char)} (hne : pieces ≠ [])
    (h : ∀ p ∈ pieces, sep ∉ p) : split sep (join sep pieces) = pieces := by
  induction pieces with
  | nil => exact absurd rfl hne
  | cons p pieces ih =>
    cases pieces with
    | nil => exact split_of_notMem (h p List.mem_cons_self)
    | cons q pieces =>
      rw [join, split_append (h p List.mem_cons_self),
        ih (by simp) fun p hp => h p (List.mem_cons_of_mem _ hp)]

theorem mem_join {sep c : Char} {p : List Char} {pieces : List (List Char)} (hp : p ∈ pieces)
    (hc : c ∈ p) : c ∈ join sep pieces := by
  induction pieces with
  | nil => cases hp
  | cons q pieces ih =>
    cases pieces with
    | nil => simpa [join, List.mem_singleton.mp hp] using hc
    | cons r pieces =>
      rw [join, List.mem_append, List.mem_cons]
      rcases List.mem_cons.mp hp with rfl | hp
      · exact .inl hc
      · exact .inr (.inr (ih hp))

/-- The numerals of a joined text are those of its pieces. -/
theorem findAll_join {sep : Char} (hs : Numeral.Divides sep) (pieces : List (List Char)) :
    Numeral.findAll (join sep pieces) = pieces.flatMap Numeral.findAll := by
  induction pieces with
  | nil => exact Numeral.findAll_nil
  | cons p pieces ih =>
    cases pieces with
    | nil => simp [join]
    | cons q pieces => simp [join, Numeral.findAll_append hs, ih]

/-- Pieces that are trimmed are so when joined. -/
theorem trim_join {sep : Char} {pieces : List (List Char)} (hne : pieces ≠ [])
    (h : ∀ p ∈ pieces, p ≠ [] ∧ Blank.trim p = p) :
    join sep pieces ≠ [] ∧ Blank.trim (join sep pieces) = join sep pieces := by
  induction pieces with
  | nil => exact absurd rfl hne
  | cons p pieces ih =>
    obtain ⟨hp, htrim⟩ := h p List.mem_cons_self
    cases pieces with
    | nil => exact ⟨hp, htrim⟩
    | cons q pieces =>
      obtain ⟨hq, hqtrim⟩ := ih (by simp) fun p hp => h p (List.mem_cons_of_mem _ hp)
      exact ⟨by simp [join], Blank.trim_append_cons hp hq htrim hqtrim sep⟩

end Separated

/-! ## Tokens -/

/-- Whether a text is a token as it stands in the body of a statement: it is not empty, has no blanks
around it, and neither a comma nor a terminator in it. -/
structure IsToken (t : String) : Prop where
  nonempty : t.toList ≠ []
  trimmed : Blank.trim t.toList = t.toList
  separate : ',' ∉ t.toList
  unended : terminator ∉ t.toList

/-- What is cut off a piece between two commas. -/
def tokenChars (piece : List Char) : List Char :=
  Blank.trim (Blank.dropEndWhile (· == terminator) piece)

theorem tokens_eq (body : String) : tokens body =
    (((Separated.split ',' body.toList).map tokenChars).filter (!·.isEmpty)).map String.ofList :=
  rfl

theorem tokenChars_sublist (piece : List Char) : (tokenChars piece).Sublist piece := by
  refine (Blank.trim_sublist _).trans ?_
  have h := (List.dropWhile_sublist (· == terminator) (l := piece.reverse)).reverse
  rwa [List.reverse_reverse] at h

theorem findAll_tokenChars (piece : List Char) :
    Numeral.findAll (tokenChars piece) = Numeral.findAll piece := by
  rw [tokenChars, Numeral.findAll_trim, Numeral.findAll_dropEndWhile]
  intro c hc
  obtain rfl : c = terminator := by simpa using hc
  decide

/-- The characters of a token are what is cut off a piece of the body. -/
theorem exists_piece_of_mem {body t : String} (h : t ∈ tokens body) :
    ∃ piece ∈ Separated.split ',' body.toList, t.toList = tokenChars piece ∧ t.toList ≠ [] := by
  rw [tokens_eq] at h
  simp only [List.mem_map, List.mem_filter] at h
  obtain ⟨cs, ⟨⟨piece, hpiece, rfl⟩, hne⟩, rfl⟩ := h
  exact ⟨piece, hpiece, by simp, by simpa using hne⟩

theorem isToken_of_unended {body t : String} (h : t ∈ tokens body)
    (hend : terminator ∉ t.toList) : IsToken t := by
  obtain ⟨piece, hpiece, hchars, hne⟩ := exists_piece_of_mem h
  refine ⟨hne, by rw [hchars]; exact Blank.trim_trim _, fun hc => ?_, hend⟩
  rw [hchars] at hc
  exact Separated.notMem_of_mem_split hpiece ((tokenChars_sublist piece).subset hc)

theorem isToken_of_mem {body t : String} (hb : terminator ∉ body.toList) (h : t ∈ tokens body) :
    IsToken t := by
  obtain ⟨piece, hpiece, hchars, -⟩ := exists_piece_of_mem h
  refine isToken_of_unended h fun hc => hb ?_
  rw [hchars] at hc
  rw [← Separated.join_split ',' body.toList]
  exact Separated.mem_join hpiece ((tokenChars_sublist piece).subset hc)

/-- Tokens that are joined by commas are these tokens again. -/
theorem tokens_joinTokens {ts : List String} (h : ∀ t ∈ ts, IsToken t) :
    tokens (joinTokens ts) = ts := by
  by_cases hne : ts = []
  · subst hne
    decide
  have hpieces : ∀ p ∈ ts.map String.toList, ',' ∉ p := by
    intro p hp
    obtain ⟨t, ht, rfl⟩ := List.mem_map.mp hp
    exact (h t ht).separate
  have hchars : ∀ t ∈ ts, (tokenChars ∘ String.toList) t = t.toList := by
    intro t ht
    rw [Function.comp_apply, tokenChars, Blank.dropEndWhile_eq_self_iff.mpr, (h t ht).trimmed]
    intro c hc
    simpa using fun he : c = terminator => (h t ht).unended (he ▸ List.mem_of_getLast? hc)
  rw [tokens_eq, joinTokens, String.toList_ofList, Separated.split_join (by simpa using hne) hpieces,
    List.map_map, List.map_congr_left hchars, List.filter_eq_self.mpr, List.map_map]
  · simp [Function.comp_def]
  · intro p hp
    obtain ⟨t, ht, rfl⟩ := List.mem_map.mp hp
    simpa using (h t ht).nonempty

section Numbers

variable {α : Type} [Scalar α]

theorem isToken_formatNumber (x : α) : IsToken (formatNumber x) := by
  obtain ⟨n, hn, -⟩ := (Scalar.reading x).ofWhole?_plain
  have hchars : ∀ c, Numeral.Divides c → c ∉ (formatNumber x).toList := fun c hc hmem =>
    Reading.not_divides_of_mem_plain (by simpa [formatNumber] using hmem) hc
  have hblank : ∀ c ∈ (formatNumber x).toList, Blank.isBlank c = false := fun c hmem => by
    by_contra hb
    exact hchars c (Numeral.divides_of_isBlank (by simpa using hb)) hmem
  refine ⟨fun he => ?_, ?_, hchars _ (by decide), hchars _ (by decide)⟩
  · rw [formatNumber, String.toList_ofList] at he
    rw [he] at hn
    cases hn
  · exact Blank.trim_eq_self_iff.mpr
      ⟨fun c hc => hblank c (List.mem_of_head? hc), fun c hc => hblank c (List.mem_of_getLast? hc)⟩

/-- The numbers of a body are those of its tokens. -/
theorem bodyNumbers_eq (body : String) :
    bodyNumbers (α := α) body = (tokens body).flatMap bodyNumbers := by
  have hbody : Numeral.findAll body.toList =
      (tokens body).flatMap fun t => Numeral.findAll t.toList := by
    conv => lhs; rw [← Separated.join_split ',' body.toList]
    rw [Separated.findAll_join (by decide), tokens_eq, List.flatMap_map]
    simp only [String.toList_ofList]
    generalize Separated.split ',' body.toList = pieces
    induction pieces with
    | nil => rfl
    | cons p pieces ih =>
      rw [List.flatMap_cons, ih, List.map_cons, List.filter_cons, ← findAll_tokenChars p]
      by_cases hp : tokenChars p = [] <;> simp [hp, Numeral.findAll_nil]
  rw [bodyNumbers, hbody, List.map_flatMap]
  rfl

end Numbers

/-! ## Command and body -/

/-- Whether a text is a command word as it stands before a body. -/
structure IsWord (word : String) : Prop where
  trimmed : Blank.trim word.toList = word.toList
  unspaced : ' ' ∉ word.toList

/-- What is written from a text without a space and tokens splits at the space between them. -/
theorem splitCommand_joinCommand_eq {word : String} (hw : ' ' ∉ word.toList) (ts : List String) :
    splitCommand (joinCommand word ts) = (String.ofList (Blank.trim word.toList),
      String.ofList (Blank.trim (joinTokens ts).toList)) := by
  have hword : ∀ c ∈ word.toList, decide (c ≠ ' ') = true := fun c hc =>
    decide_eq_true fun he => hw (he ▸ hc)
  have hlist : (joinCommand word ts).toList = word.toList ++ ' ' :: (joinTokens ts).toList := by
    simp [joinCommand]
  simp only [splitCommand, hlist, List.takeWhile_append_of_pos hword,
    List.dropWhile_append_of_pos hword]
  simp

/-- What is written from a text without a space and tokens has this text, trimmed, as its word, and
it has these tokens. -/
theorem splitCommand_joinCommand_of_unspaced {word : String} {ts : List String}
    (hw : ' ' ∉ word.toList) (h : ∀ t ∈ ts, IsToken t) :
    splitCommand (joinCommand word ts) =
      (String.ofList (Blank.trim word.toList), joinTokens ts) := by
  have hjoin : Blank.trim (Separated.join ',' (ts.map String.toList)) =
      Separated.join ',' (ts.map String.toList) := by
    by_cases hne : ts = []
    · subst hne
      rfl
    · refine (Separated.trim_join (by simpa using hne) fun p hp => ?_).2
      obtain ⟨t, ht, rfl⟩ := List.mem_map.mp hp
      exact ⟨(h t ht).nonempty, (h t ht).trimmed⟩
  simp [splitCommand_joinCommand_eq hw, joinTokens, hjoin]

/-- A statement that is written from a word and tokens has this word and these tokens. -/
theorem splitCommand_joinCommand {word : String} {ts : List String} (hw : IsWord word)
    (h : ∀ t ∈ ts, IsToken t) : splitCommand (joinCommand word ts) = (word, joinTokens ts) := by
  rw [splitCommand_joinCommand_of_unspaced hw.unspaced h, hw.trimmed, String.ofList_toList]

/-- A statement without a space is all command word. -/
theorem splitCommand_of_unspaced {text : String} (h : ' ' ∉ text.toList) :
    splitCommand text = (text, "") := by
  have hdrop : text.toList.dropWhile (· ≠ ' ') = [] :=
    List.dropWhile_eq_nil_iff.mpr fun c hc => decide_eq_true fun he => h (he ▸ hc)
  rw [splitCommand, hdrop]

/-- A statement with a space has a command word before it, and a body after it. -/
theorem splitCommand_of_spaced {text : String} (h : ' ' ∈ text.toList) :
    IsWord (splitCommand text).1 ∧ (splitCommand text).2.toList.Sublist text.toList := by
  have hword : ' ' ∉ text.toList.takeWhile (· ≠ ' ') := fun hc => by
    simpa using List.mem_takeWhile_imp hc
  simp only [splitCommand]
  split
  · next hd =>
    rw [List.dropWhile_eq_nil_iff] at hd
    exact absurd (hd ' ' h) (by simp)
  · next body hd =>
    have hbody : body.Sublist text.toList := by
      have hdrop := List.dropWhile_sublist (· ≠ ' ') (l := text.toList)
      rw [hd] at hdrop
      exact (List.sublist_cons_self ..).trans hdrop
    refine ⟨⟨by simpa using Blank.trim_trim _, fun hc => hword ?_⟩, ?_⟩
    · exact (Blank.trim_sublist _).subset (by simpa using hc)
    · simpa using (Blank.trim_sublist body).trans hbody

/-- The word of a statement, and its body. -/
theorem isWord_splitCommand {text : String} (h : IsStatement text) :
    IsWord (splitCommand text).1 ∧ terminator ∉ (splitCommand text).2.toList := by
  by_cases hs : ' ' ∈ text.toList
  · obtain ⟨hw, hbody⟩ := splitCommand_of_spaced hs
    exact ⟨hw, fun hc => h.unended (hbody.subset hc)⟩
  · rw [splitCommand_of_unspaced hs]
    exact ⟨⟨h.trimmed, hs⟩, by simp⟩

end WallPanel
