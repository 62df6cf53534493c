import AzureInit.Foundation.InPlaceSweep

/-! A walk over a list that is edited on the way: the element passed last may be
changed or taken out, and the list may grow at its end. Every element that was
ahead or has been appended is handed out once or still lies ahead. -/

set_option autoImplicit false

namespace AzureInit.Foundation

namespace Walk

/-- A list with a cursor in it. -/
structure Cursor (α : Type) where
  passed : List α
  ahead : List α

inductive Move (α : Type) where
  | advance
  | modify (change : α → α)
  | remove
  | append (element : α)
  | stay

variable {α : Type}

def Move.appended : Move α → Option α
  | .append element => some element
  | .advance | .modify _ | .remove | .stay => none

/-- A move that changes nothing but the end of the list. -/
def Move.Grows : Move α → Prop
  | .advance | .append _ | .stay => True
  | .modify _ | .remove => False

namespace Cursor

def elements (cursor : Cursor α) : List α := cursor.passed ++ cursor.ahead

/-- What a move hands out and leaves. Before the first element nothing can be
changed or taken out; a hole is closed with the final element. -/
def perform (cursor : Cursor α) : Move α → Option α × Cursor α
  | .advance =>
      match cursor.ahead with
      | [] => (none, cursor)
      | head :: tail => (some head, ⟨cursor.passed ++ [head], tail⟩)
  | .modify change =>
      match cursor.passed.getLast? with
      | none => (none, cursor)
      | some last => (none, ⟨cursor.passed.dropLast ++ [change last], cursor.ahead⟩)
  | .remove =>
      match cursor.passed.getLast? with
      | none => (none, cursor)
      | some _ => (none, ⟨cursor.passed.dropLast, Sweep.closeGap cursor.ahead⟩)
  | .append element => (none, ⟨cursor.passed, cursor.ahead ++ [element]⟩)
  | .stay => (none, cursor)

section Perform

variable (passed ahead : List α) (head last : α)

@[simp] theorem perform_advance_nil :
    perform ⟨passed, []⟩ .advance = (none, ⟨passed, []⟩) := rfl

@[simp] theorem perform_advance_cons :
    perform ⟨passed, head :: ahead⟩ .advance = (some head, ⟨passed ++ [head], ahead⟩) := rfl

@[simp] theorem perform_modify_nil (change : α → α) :
    perform ⟨[], ahead⟩ (.modify change) = (none, ⟨[], ahead⟩) := rfl

@[simp] theorem perform_modify_concat (change : α → α) :
    perform ⟨passed ++ [last], ahead⟩ (.modify change) =
      (none, ⟨passed ++ [change last], ahead⟩) := by
  simp [perform]

@[simp] theorem perform_remove_nil :
    perform ⟨[], ahead⟩ .remove = (none, ⟨[], ahead⟩) := rfl

@[simp] theorem perform_remove_concat :
    perform ⟨passed ++ [last], ahead⟩ .remove = (none, ⟨passed, Sweep.closeGap ahead⟩) := by
  simp [perform]

@[simp] theorem perform_append (element : α) :
    perform ⟨passed, ahead⟩ (.append element) = (none, ⟨passed, ahead ++ [element]⟩) := rfl

@[simp] theorem perform_stay (cursor : Cursor α) : cursor.perform .stay = (none, cursor) := rfl

end Perform

/-- No move loses or doubles an element. -/
theorem perform_balanced (cursor : Cursor α) (move : Move α) :
    ((cursor.perform move).1.toList ++ (cursor.perform move).2.ahead).Perm
      (cursor.ahead ++ move.appended.toList) := by
  obtain ⟨passed, ahead⟩ := cursor
  cases move with
  | advance => cases ahead <;> simp [Move.appended]
  | modify change =>
      cases List.eq_nil_or_concat passed with
      | inl empty => simp [empty, Move.appended]
      | inr split =>
          obtain ⟨front, last, rfl⟩ := split
          simp [Move.appended]
  | remove =>
      cases List.eq_nil_or_concat passed with
      | inl empty => simp [empty, Move.appended]
      | inr split =>
          obtain ⟨front, last, rfl⟩ := split
          simpa [Move.appended] using Sweep.closeGap_perm ahead
  | append element => simp [Move.appended]
  | stay => simp [Move.appended]

/-- The cursor behind a sequence of moves. -/
def performAll (cursor : Cursor α) (moves : List (Move α)) : Cursor α :=
  moves.foldl (fun cursor move => (cursor.perform move).2) cursor

/-- What a sequence of moves hands out. -/
def handedOut : Cursor α → List (Move α) → List α
  | _, [] => []
  | cursor, move :: moves =>
      (cursor.perform move).1.toList ++ (cursor.perform move).2.handedOut moves

@[simp] theorem performAll_nil (cursor : Cursor α) : cursor.performAll [] = cursor := rfl

@[simp] theorem performAll_cons (cursor : Cursor α) (move : Move α) (moves : List (Move α)) :
    cursor.performAll (move :: moves) = (cursor.perform move).2.performAll moves := rfl

theorem filterMap_appended_cons (move : Move α) (moves : List (Move α)) :
    (move :: moves).filterMap Move.appended =
      move.appended.toList ++ moves.filterMap Move.appended := by
  cases appended : move.appended <;> simp [appended]

theorem performAll_balanced (cursor : Cursor α) (moves : List (Move α)) :
    (cursor.handedOut moves ++ (cursor.performAll moves).ahead).Perm
      (cursor.ahead ++ moves.filterMap Move.appended) := by
  induction moves generalizing cursor with
  | nil => simp [handedOut]
  | cons move moves ih =>
      have first := cursor.perform_balanced move
      have later := ih (cursor.perform move).2
      rw [handedOut, performAll_cons, filterMap_appended_cons, List.append_assoc]
      apply (later.append_left _).trans
      rw [← List.append_assoc, ← List.append_assoc]
      exact first.append_right _

theorem perform_grows (cursor : Cursor α) {move : Move α} (grows : move.Grows) :
    (cursor.perform move).2.elements = cursor.elements ++ move.appended.toList ∧
      (cursor.perform move).1.toList ++ (cursor.perform move).2.ahead =
        cursor.ahead ++ move.appended.toList := by
  obtain ⟨passed, ahead⟩ := cursor
  cases move with
  | advance => cases ahead <;> simp [elements, Move.appended]
  | append element => simp [elements, Move.appended]
  | stay => simp [Move.appended]
  | modify change => exact grows.elim
  | remove => exact grows.elim

/-- A list that only grows is handed out in its order, and what is appended behind it. -/
theorem performAll_grows (cursor : Cursor α) {moves : List (Move α)}
    (grows : ∀ move ∈ moves, move.Grows) :
    (cursor.performAll moves).elements =
        cursor.elements ++ moves.filterMap Move.appended ∧
      cursor.handedOut moves ++ (cursor.performAll moves).ahead =
        cursor.ahead ++ moves.filterMap Move.appended := by
  induction moves generalizing cursor with
  | nil => simp [handedOut]
  | cons move moves ih =>
      obtain ⟨growsFirst, growsLater⟩ := List.forall_mem_cons.mp grows
      obtain ⟨elements, pending⟩ := cursor.perform_grows growsFirst
      obtain ⟨elementsLater, pendingLater⟩ := ih (cursor.perform move).2 growsLater
      rw [filterMap_appended_cons, handedOut, performAll_cons]
      constructor
      · rw [elementsLater, elements, List.append_assoc]
      · rw [List.append_assoc, pendingLater, ← List.append_assoc, pending, List.append_assoc]

end Cursor

end Walk

end AzureInit.Foundation
