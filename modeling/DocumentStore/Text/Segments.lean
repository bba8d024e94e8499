/-! Cutting a text at a separator character or at a marker, and putting segments together again.

`segments` always yields at least one segment, and joining them gives the text back
(`join_segments`); `cut?` finds the first occurrence of a marker. -/
namespace DocumentStore.Text

/-- The pieces between the occurrences of a separator; a text without it is one piece. -/
def segments (sep : Char) : List Char → List (List Char)
  | [] => [[]]
  | c :: rest =>
    if c = sep then [] :: segments sep rest
    else
      match segments sep rest with
      | [] => [[c]]
      | first :: others => (c :: first) :: others

/-- The pieces of a text between the occurrences of a separator. -/
def split (sep : Char) (s : String) : List String := (segments sep s.toList).map String.ofList

/-- Segments with the separator between any two. -/
def join (sep : Char) : List (List Char) → List Char
  | [] => []
  | [s] => s
  | s :: rest => s ++ sep :: join sep rest

theorem segments_ne_nil (sep : Char) (cs : List Char) : segments sep cs ≠ [] := by
  cases cs with
  | nil => simp [segments]
  | cons c rest =>
    unfold segments
    split
    · simp
    · split <;> simp

/-- Joining the segments of a text gives the text. -/
theorem join_segments (sep : Char) (cs : List Char) : join sep (segments sep cs) = cs := by
  induction cs with
  | nil => rfl
  | cons c rest ih =>
    unfold segments
    split
    · next h =>
      cases hs : segments sep rest with
      | nil => exact absurd hs (segments_ne_nil sep rest)
      | cons first others => rw [hs] at ih; simp [join, ih, h]
    · cases hs : segments sep rest with
      | nil => exact absurd hs (segments_ne_nil sep rest)
      | cons first others =>
        rw [hs] at ih
        cases others with
        | nil => simpa [join] using ih
        | cons second others => simpa [join] using ih

/-- What stands before and after the first occurrence of a marker. -/
def cut? (marker : List Char) : List Char → Option (List Char × List Char)
  | [] => if marker.isEmpty then some ([], []) else none
  | c :: rest =>
    if marker.isPrefixOf (c :: rest) then some ([], (c :: rest).drop marker.length)
    else (cut? marker rest).map fun (before, after) => (c :: before, after)

/-- A text with one character replaced wherever it occurs. -/
def replaceChar (old new : Char) (s : String) : String := s.map fun c => if c = old then new else c

/-- The text without the leading occurrences of a character. -/
def dropLeading (c : Char) (s : String) : String := String.ofList (s.toList.dropWhile (· == c))

end DocumentStore.Text
