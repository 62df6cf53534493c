import AzureInit.Foundation.Utf8Text

/-! The longest front of a text within a number of bytes, and texts cut greedily into
such fronts. -/

set_option autoImplicit false

namespace AzureInit.Foundation.Utf8

/-! ## The longest front -/

/-- The longest front of a text that has at most so many bytes. -/
def takeBytes : Nat → Text → Text
  | _, [] => []
  | limit, head :: tail =>
      if head.utf8Size ≤ limit then head :: takeBytes (limit - head.utf8Size) tail else []

/-- What is behind the longest front. -/
def dropBytes (limit : Nat) (text : Text) : Text := text.drop (takeBytes limit text).length

theorem takeBytes_isPrefix (limit : Nat) (text : Text) : takeBytes limit text <+: text := by
  induction text generalizing limit with
  | nil => exact List.nil_prefix
  | cons head tail ih =>
      rw [takeBytes]
      split
      · exact List.cons_prefix_cons.mpr ⟨rfl, ih _⟩
      · exact List.nil_prefix

@[simp] theorem takeBytes_append_dropBytes (limit : Nat) (text : Text) :
    takeBytes limit text ++ dropBytes limit text = text :=
  List.prefix_iff_eq_append.mp (takeBytes_isPrefix limit text)

theorem byteLength_takeBytes_le (limit : Nat) (text : Text) :
    byteLength (takeBytes limit text) ≤ limit := by
  induction text generalizing limit with
  | nil => exact Nat.zero_le limit
  | cons head tail ih =>
      rw [takeBytes]
      split
      · have shorter := ih (limit - head.utf8Size)
        rw [byteLength_cons]
        omega
      · exact Nat.zero_le limit

/-- Every other front within the bytes is a front of the longest. -/
theorem isPrefix_takeBytes {left text : Text} {limit : Nat} (front : left <+: text)
    (fits : byteLength left ≤ limit) : left <+: takeBytes limit text := by
  induction left generalizing limit text with
  | nil => exact List.nil_prefix
  | cons head left ih =>
      obtain ⟨tail, rfl⟩ := front
      rw [byteLength_cons] at fits
      have headFits : head.utf8Size ≤ limit := by omega
      rw [List.cons_append, takeBytes, if_pos headFits]
      exact List.cons_prefix_cons.mpr ⟨rfl, ih (List.prefix_append _ _) (by omega)⟩

/-- A front of a text that has at most so many bytes, and no longer one has. -/
structure LongestFront (limit : Nat) (text front : Text) : Prop where
  isFront : front <+: text
  fits : byteLength front ≤ limit
  longest : ∀ other, other <+: text → byteLength other ≤ limit → other <+: front

theorem longestFront_takeBytes (limit : Nat) (text : Text) :
    LongestFront limit text (takeBytes limit text) where
  isFront := takeBytes_isPrefix limit text
  fits := byteLength_takeBytes_le limit text
  longest := fun _ => isPrefix_takeBytes

theorem takeBytes_of_le {text : Text} {limit : Nat} (fits : byteLength text ≤ limit) :
    takeBytes limit text = text := by
  have whole := isPrefix_takeBytes (List.prefix_refl text) fits
  exact List.IsPrefix.eq_of_length_le (takeBytes_isPrefix limit text) (List.IsPrefix.length_le whole)

theorem dropBytes_eq_nil_iff {text : Text} {limit : Nat} :
    dropBytes limit text = [] ↔ byteLength text ≤ limit := by
  constructor
  · intro none
    have joined := takeBytes_append_dropBytes limit text
    rw [none, List.append_nil] at joined
    rw [← joined]
    exact byteLength_takeBytes_le limit text
  · intro fits
    rw [dropBytes, takeBytes_of_le fits, List.drop_length]

/-- Fewer than the bytes of one more character are left unused. -/
theorem lt_byteLength_takeBytes {text : Text} {limit : Nat} (longer : limit < byteLength text) :
    limit < byteLength (takeBytes limit text) + 4 := by
  induction text generalizing limit with
  | nil => cases longer
  | cons head tail ih =>
      have width := Char.utf8Size_le_four head
      rw [takeBytes]
      rw [byteLength_cons] at longer
      split
      · have unused := @ih (limit - head.utf8Size) (by omega)
        rw [byteLength_cons]
        omega
      · rw [byteLength_nil]
        omega

/-- A text that is longer has its cut before its end. -/
theorem length_dropBytes_lt {text : Text} {limit : Nat} (wide : 4 ≤ limit) (nonempty : text ≠ []) :
    (dropBytes limit text).length < text.length := by
  cases text with
  | nil => exact absurd rfl nonempty
  | cons head tail =>
      have width := Char.utf8Size_le_four head
      have headFits : head.utf8Size ≤ limit := by omega
      rw [dropBytes, takeBytes, if_pos headFits, List.length_cons, List.drop_succ_cons]
      have shorter := List.length_drop (i := (takeBytes (limit - head.utf8Size) tail).length) (l := tail)
      rw [shorter, List.length_cons]
      omega

/-! ## The cut at a character boundary -/

theorem le_floorCharBoundary {text : Text} {boundary offset : Nat}
    (isBoundary : isCharBoundary text boundary = true) (below : boundary ≤ offset) :
    boundary ≤ floorCharBoundary text offset := by
  induction offset with
  | zero => exact Nat.le_trans below (Nat.zero_le _)
  | succ offset ih =>
      rw [floorCharBoundary]
      split
      · exact below
      · rename_i notBoundary
        apply ih
        by_contra beyond
        have same : boundary = offset + 1 := by omega
        exact notBoundary (same ▸ isBoundary)

/-- The cut found by searching downwards is the longest front's. -/
theorem splitAt?_floorCharBoundary (text : Text) (limit : Nat) :
    splitAt? text (floorCharBoundary text (min (byteLength text) limit)) =
      some (takeBytes limit text, dropBytes limit text) := by
  obtain ⟨left, right, cut, joined, bounded⟩ :=
    exists_split_floorCharBoundary text (min (byteLength text) limit)
  have leftFits : byteLength left ≤ limit := Nat.le_trans bounded (Nat.min_le_right ..)
  have front : left <+: takeBytes limit text := isPrefix_takeBytes ⟨right, joined⟩ leftFits
  have boundary : isCharBoundary text (byteLength (takeBytes limit text)) = true :=
    isCharBoundary_iff.mpr ⟨_, _, takeBytes_append_dropBytes limit text, rfl⟩
  have below : byteLength (takeBytes limit text) ≤ min (byteLength text) limit := by
    apply Nat.le_min.mpr
    refine ⟨?_, byteLength_takeBytes_le limit text⟩
    have whole := congrArg byteLength (takeBytes_append_dropBytes limit text)
    rw [byteLength_append] at whole
    omega
  have longest := le_floorCharBoundary boundary below
  obtain ⟨more, same⟩ := front
  have lengths := (splitAt?_eq_some_iff.mp cut).2
  have none : more = [] := by
    rw [← byteLength_eq_zero_iff]
    have whole := congrArg byteLength same
    rw [byteLength_append] at whole
    omega
  rw [none, List.append_nil] at same
  have rejoined : takeBytes limit text ++ right = takeBytes limit text ++ dropBytes limit text := by
    rw [takeBytes_append_dropBytes, ← same, joined]
  rw [cut, same, List.append_cancel_left rejoined]

/-! ## Pieces -/

/-- A text cut greedily into pieces of at most so many bytes. -/
inductive GreedyPieces (limit : Nat) : Text → List Text → Prop where
  | last {text : Text} : byteLength text ≤ limit → GreedyPieces limit text [text]
  | cut {text : Text} {pieces : List Text} : limit < byteLength text →
      GreedyPieces limit (dropBytes limit text) pieces →
      GreedyPieces limit text (takeBytes limit text :: pieces)

section Pieces

variable {limit : Nat} {text : Text} {pieces : List Text}

theorem exists_greedyPieces (wide : 4 ≤ limit) (text : Text) :
    ∃ pieces, GreedyPieces limit text pieces := by
  induction measured : text.length using Nat.strong_induction_on generalizing text with
  | _ length ih =>
      by_cases fits : byteLength text ≤ limit
      · exact ⟨_, .last fits⟩
      · have longer : limit < byteLength text := Nat.lt_of_not_le fits
        have nonempty : text ≠ [] := by
          rintro rfl
          cases longer
        obtain ⟨pieces, rest⟩ :=
          ih _ (measured ▸ length_dropBytes_lt wide nonempty) (dropBytes limit text) rfl
        exact ⟨_, .cut longer rest⟩

theorem GreedyPieces.nonempty (greedy : GreedyPieces limit text pieces) : pieces ≠ [] := by
  cases greedy <;> exact List.cons_ne_nil _ _

theorem GreedyPieces.flatten (greedy : GreedyPieces limit text pieces) :
    pieces.flatten = text := by
  induction greedy with
  | last => simp
  | cut _ _ ih => rw [List.flatten_cons, ih, takeBytes_append_dropBytes]

theorem GreedyPieces.bounded (greedy : GreedyPieces limit text pieces) :
    ∀ piece ∈ pieces, byteLength piece ≤ limit := by
  induction greedy with
  | last fits => simpa using fits
  | cut _ _ ih => exact List.forall_mem_cons.mpr ⟨byteLength_takeBytes_le _ _, ih⟩

/-- All pieces but the last are as good as full. -/
theorem GreedyPieces.full (greedy : GreedyPieces limit text pieces) :
    ∀ piece ∈ pieces.dropLast, limit < byteLength piece + 4 := by
  induction greedy with
  | last => simp
  | cut longer rest ih =>
      rw [List.dropLast_cons_of_ne_nil rest.nonempty]
      exact List.forall_mem_cons.mpr ⟨lt_byteLength_takeBytes longer, ih⟩

/-- No piece of a text that is not empty is empty. -/
theorem GreedyPieces.ne_nil (greedy : GreedyPieces limit text pieces) (wide : 4 ≤ limit)
    (nonempty : text ≠ []) : ∀ piece ∈ pieces, piece ≠ [] := by
  induction greedy with
  | last => simpa using nonempty
  | cut longer rest ih =>
      refine List.forall_mem_cons.mpr ⟨fun empty => ?_, ih fun ended => ?_⟩
      · have full := lt_byteLength_takeBytes longer
        rw [empty, byteLength_nil] at full
        omega
      · have whole := dropBytes_eq_nil_iff.mp ended
        omega

/-- More pieces than `count` need more bytes than as many full ones have. -/
theorem GreedyPieces.lt_byteLength (greedy : GreedyPieces limit text pieces) (wide : 4 ≤ limit)
    {count : Nat} (more : count < pieces.length) (positive : 0 < count) :
    count * (limit - 3) < byteLength text := by
  induction greedy generalizing count with
  | last => simp at more; omega
  | @cut text pieces longer rest ih =>
      have full := lt_byteLength_takeBytes longer
      have whole := congrArg byteLength (takeBytes_append_dropBytes limit text)
      rw [byteLength_append] at whole
      rw [List.length_cons] at more
      obtain ⟨fewer, rfl⟩ := Nat.exists_eq_succ_of_ne_zero (Nat.ne_of_gt positive)
      rw [Nat.succ_mul]
      cases fewer with
      | zero =>
          have behind : dropBytes limit text ≠ [] := by
            rw [Ne, dropBytes_eq_nil_iff]
            omega
          have some := mt byteLength_eq_zero_iff.mp behind
          omega
      | succ fewer =>
          have restLonger := @ih (fewer + 1) (by omega) (by omega)
          omega

end Pieces

end AzureInit.Foundation.Utf8
