/-!
# Splitting text

A text is cut at every occurrence of a character. The pieces do not hold the character, and put
together again with the character between them they are the text.
-/

namespace ChatRelay.Text

/-- Cut at every `sep`. There is always at least one piece. -/
def splitChars (sep : Char) : List Char → List (List Char)
  | [] => [[]]
  | c :: cs =>
    match splitChars sep cs with
    | [] => [[c]]
    | piece :: pieces => if c = sep then [] :: piece :: pieces else (c :: piece) :: pieces

/-- Cut a text at every `sep`. -/
def split (sep : Char) (s : String) : List String :=
  (splitChars sep s.toList).map String.ofList

/-- What stands before and what stands behind the first `sep`, if there is one. -/
def splitOnce? (sep : Char) : List Char → Option (List Char × List Char)
  | [] => none
  | c :: cs => if c = sep then some ([], cs) else (splitOnce? sep cs).map fun p => (c :: p.1, p.2)

/-- Remove every `c` from the end. -/
def trimEnd (c : Char) (s : String) : String :=
  String.ofList (s.toList.reverse.dropWhile (· == c)).reverse

theorem splitChars_ne_nil (sep : Char) (cs : List Char) : splitChars sep cs ≠ [] := by
  cases cs with
  | nil => simp [splitChars]
  | cons c cs =>
    unfold splitChars
    split
    · simp
    · split <;> simp

theorem splitChars_cons_self (sep : Char) (cs : List Char) :
    splitChars sep (sep :: cs) = [] :: splitChars sep cs := by
  rw [splitChars]
  split
  next h => exact (splitChars_ne_nil sep cs h).elim
  next h => rw [if_pos rfl, h]

end ChatRelay.Text
