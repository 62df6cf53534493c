import Mathlib.Tactic
import AzureInit.Foundation.Utf8Text

/-! Regular expressions in multi-line mode. Each position has its matches in the order of
preference, the first match of a text is the leftmost one. -/

set_option autoImplicit false

namespace AzureInit.Foundation

/-- A place in a text: what is behind it, backwards, and what is ahead. -/
structure Position where
  behind : Text
  ahead : Text
  deriving DecidableEq, Repr

namespace Position

def atLineStart (position : Position) : Bool := position.behind.head?.all (· == '\n')

def atLineEnd (position : Position) : Bool := position.ahead.head?.all (· == '\n')

end Position

inductive Pattern where
  | empty
  | lineStart
  | lineEnd
  | one (accepts : Char → Bool)
  /-- As many characters as possible, or fewer. -/
  | many (accepts : Char → Bool)
  | seq (first second : Pattern)
  | alt (preferred other : Pattern)

namespace Pattern

def optional (pattern : Pattern) : Pattern := .alt pattern .empty

def literal (text : Text) : Pattern := text.foldr (fun c rest => .seq (.one (· == c)) rest) .empty

def sequence (patterns : List Pattern) : Pattern := patterns.foldr .seq .empty

/-! ## Matches -/

def manyEnds (accepts : Char → Bool) (behind : Text) : Text → List Position
  | [] => [⟨behind, []⟩]
  | c :: ahead =>
      if accepts c then manyEnds accepts (c :: behind) ahead ++ [⟨behind, c :: ahead⟩]
      else [⟨behind, c :: ahead⟩]

/-- Where the matches that begin at a position end, the preferred one first. -/
def ends : Pattern → Position → List Position
  | .empty, position => [position]
  | .lineStart, position => if position.atLineStart then [position] else []
  | .lineEnd, position => if position.atLineEnd then [position] else []
  | .one accepts, position =>
      match position.ahead with
      | [] => []
      | c :: ahead => if accepts c then [⟨c :: position.behind, ahead⟩] else []
  | .many accepts, position => manyEnds accepts position.behind position.ahead
  | .seq first second, position => (first.ends position).flatMap second.ends
  | .alt preferred other, position => preferred.ends position ++ other.ends position

variable (pattern : Pattern)

/-- How many characters the preferred match at a position takes. -/
def matchLength (position : Position) : Option Nat :=
  (pattern.ends position).head?.map fun stop => position.ahead.length - stop.ahead.length

def frontFrom (behind : Text) : Text → Option Text
  | [] => (pattern.matchLength ⟨behind, []⟩).map fun _ => []
  | c :: ahead =>
      match pattern.matchLength ⟨behind, c :: ahead⟩ with
      | some _ => some []
      | none => (frontFrom (c :: behind) ahead).map (c :: ·)

/-- The text in front of the first match. -/
def front? (text : Text) : Option Text := pattern.frontFrom [] text

def isMatch (text : Text) : Bool := (pattern.front? text).isSome

/-- Behind a match the next one is not empty. -/
def replaceFrom (replacement : Text) :
    (behind : Text) → (inside : Nat) → (afterMatch : Bool) → Text → Text
  | behind, inside, afterMatch, [] =>
      if inside = 0 ∧ ¬ afterMatch ∧ (pattern.matchLength ⟨behind, []⟩).isSome then replacement
      else []
  | behind, inside + 1, _, c :: ahead => replaceFrom replacement (c :: behind) inside true ahead
  | behind, 0, afterMatch, c :: ahead =>
      match pattern.matchLength ⟨behind, c :: ahead⟩ with
      | some (inside + 1) => replacement ++ replaceFrom replacement (c :: behind) inside true ahead
      | some 0 =>
          (if afterMatch then [] else replacement) ++
            c :: replaceFrom replacement (c :: behind) 0 false ahead
      | none => c :: replaceFrom replacement (c :: behind) 0 false ahead

/-- The text with a replacement, taken as it is, for each match in turn. -/
def replaceAll (text replacement : Text) : Text := pattern.replaceFrom replacement [] 0 false text

variable {pattern}

/-! ## The first match -/

theorem frontFrom_eq_some {behind ahead front : Text}
    (found : pattern.frontFrom behind ahead = some front) :
    ∃ rest, ahead = front ++ rest ∧
      (pattern.matchLength ⟨front.reverse ++ behind, rest⟩).isSome := by
  induction ahead generalizing behind front with
  | nil =>
      obtain ⟨length, matched, rfl⟩ := Option.map_eq_some_iff.mp found
      exact ⟨[], rfl, by simp [matched]⟩
  | cons c ahead ih =>
      unfold frontFrom at found
      split at found
      · rename_i length matched
        obtain rfl := Option.some.inj found
        exact ⟨c :: ahead, rfl, by simp [matched]⟩
      · obtain ⟨later, foundLater, rfl⟩ := Option.map_eq_some_iff.mp found
        obtain ⟨rest, rfl, matched⟩ := ih foundLater
        exact ⟨rest, rfl, by simpa using matched⟩

theorem replaceFrom_of_front {behind ahead front : Text} (replacement : Text)
    (found : pattern.frontFrom behind ahead = some front) :
    ∃ rest, pattern.replaceFrom replacement behind 0 false ahead =
      front ++ (replacement ++ rest) := by
  induction ahead generalizing behind front with
  | nil =>
      obtain ⟨length, matched, rfl⟩ := Option.map_eq_some_iff.mp found
      exact ⟨[], by simp [replaceFrom, matched]⟩
  | cons c ahead ih =>
      unfold frontFrom at found
      unfold replaceFrom
      split at found
      · rename_i length matched
        obtain rfl := Option.some.inj found
        rw [matched]
        cases length with
        | zero => exact ⟨_, rfl⟩
        | succ inside => exact ⟨_, rfl⟩
      · rename_i unmatched
        obtain ⟨later, foundLater, rfl⟩ := Option.map_eq_some_iff.mp found
        obtain ⟨rest, replaced⟩ := ih foundLater
        refine ⟨rest, ?_⟩
        rw [unmatched]
        exact congrArg _ replaced

theorem atLineStart_of_matchLength {second : Pattern} {position : Position}
    (matched : ((Pattern.seq .lineStart second).matchLength position).isSome) :
    position.atLineStart = true := by
  by_contra inside
  rw [matchLength, ends, ends, if_neg inside] at matched
  cases matched

/-- A pattern for the start of a line divides a text between two lines. -/
theorem front?_eq_some {second : Pattern} {text front : Text}
    (found : (Pattern.seq .lineStart second).front? text = some front) :
    (∃ rest, text = front ++ rest) ∧ ∀ c ∈ front.getLast?, c = '\n' := by
  obtain ⟨rest, divided, matched⟩ := frontFrom_eq_some found
  refine ⟨⟨rest, divided⟩, ?_⟩
  have starts := atLineStart_of_matchLength matched
  intro c last
  rw [Position.atLineStart, List.append_nil, List.head?_reverse, last] at starts
  simpa using starts

theorem replaceAll_of_front {text front : Text} (replacement : Text)
    (found : pattern.front? text = some front) :
    ∃ rest, pattern.replaceAll text replacement = front ++ (replacement ++ rest) :=
  replaceFrom_of_front replacement found

end Pattern

end AzureInit.Foundation
