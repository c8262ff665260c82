/-!
# Separated text

A text as the pieces between the occurrences of one separator character.

* `Separated.split`: the pieces; a text without the separator is one piece.
* `Separated.join`: the text of the pieces, with a separator between each two.
* `Separated.join_split`: splitting loses nothing.
-/

namespace WallPanel.Separated

/-- The pieces of a text between the separators. -/
def split (sep : Char) : List Char → List (List Char)
  | [] => [[]]
  | c :: cs =>
    if c = sep then [] :: split sep cs
    else
      match split sep cs with
      | [] => [[c]]
      | piece :: pieces => (c :: piece) :: pieces

/-- The pieces with a separator between each two. -/
def join (sep : Char) : List (List Char) → List Char
  | [] => []
  | [piece] => piece
  | piece :: next :: pieces => piece ++ sep :: join sep (next :: pieces)

theorem split_ne_nil (sep : Char) (cs : List Char) : split sep cs ≠ [] := by
  cases cs with
  | nil => simp [split]
  | cons c cs =>
    rw [split]
    split
    · simp
    · split <;> simp

theorem join_cons_cons (sep c : Char) (piece : List Char) (pieces : List (List Char)) :
    join sep ((c :: piece) :: pieces) = c :: join sep (piece :: pieces) := by
  cases pieces <;> rfl

/-- Joining the pieces of a text gives the text again. -/
theorem join_split (sep : Char) (cs : List Char) : join sep (split sep cs) = cs := by
  induction cs with
  | nil => rfl
  | cons c cs ih =>
    rw [split]
    have h := split_ne_nil sep cs
    cases hs : split sep cs with
    | nil => exact absurd hs h
    | cons piece pieces =>
      rw [hs] at ih
      split
      · next hc => rw [join, List.nil_append, ih, hc]
      · rw [join_cons_cons, ih]

end WallPanel.Separated
