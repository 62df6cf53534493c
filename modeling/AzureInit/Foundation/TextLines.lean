import AzureInit.Foundation.Utf8Text

/-! The lines of a text: each is ended by a line feed, in front of which a carriage return
belongs to the end; what stands behind the last line feed is a line as it is. -/

set_option autoImplicit false

namespace AzureInit.Foundation.Lines

/-- The pieces of a text, each up to and with a line feed. -/
def splitInclusive : Text → List Text
  | [] => []
  | c :: text =>
      if c = '\n' then [c] :: splitInclusive text
      else
        match splitInclusive text with
        | [] => [[c]]
        | piece :: pieces => (c :: piece) :: pieces

def stripLineFeed (piece : Text) : Text :=
  if piece.getLast? = some '\n' then
    if piece.dropLast.getLast? = some '\r' then piece.dropLast.dropLast else piece.dropLast
  else piece

def lines (text : Text) : List Text := (splitInclusive text).map stripLineFeed

/-- The text in which every line is ended by a line feed. -/
def unlines (lines : List Text) : Text := lines.flatMap (· ++ ['\n'])

/-- A line that its ending leaves as it is. -/
structure IsLine (line : Text) : Prop where
  noLineFeed : '\n' ∉ line
  noReturn : line.getLast? ≠ some '\r'

theorem splitInclusive_append_cons {line : Text} (noLineFeed : '\n' ∉ line) (text : Text) :
    splitInclusive (line ++ '\n' :: text) = (line ++ ['\n']) :: splitInclusive text := by
  induction line with
  | nil => simp [splitInclusive]
  | cons c line ih =>
      rw [List.mem_cons, not_or] at noLineFeed
      rw [List.cons_append, splitInclusive, if_neg (Ne.symm noLineFeed.1), ih noLineFeed.2]
      rfl

theorem stripLineFeed_append {line : Text} (noReturn : line.getLast? ≠ some '\r') :
    stripLineFeed (line ++ ['\n']) = line := by
  unfold stripLineFeed
  rw [List.getLast?_concat, if_pos rfl, List.dropLast_concat, if_neg noReturn]

theorem lines_append_cons {line : Text} (isLine : IsLine line) (text : Text) :
    lines (line ++ '\n' :: text) = line :: lines text := by
  unfold lines
  rw [splitInclusive_append_cons isLine.noLineFeed, List.map_cons,
    stripLineFeed_append isLine.noReturn]

/-- Lines are read back from the text that they make. -/
theorem lines_unlines {texts : List Text} (isLine : ∀ line ∈ texts, IsLine line) :
    lines (unlines texts) = texts := by
  induction texts with
  | nil => rfl
  | cons line texts ih =>
      obtain ⟨first, others⟩ := List.forall_mem_cons.mp isLine
      unfold unlines at ih ⊢
      rw [List.flatMap_cons, List.append_assoc, List.singleton_append, lines_append_cons first,
        ih others]

end AzureInit.Foundation.Lines
