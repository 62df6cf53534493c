import Mathlib.Tactic
import Mathlib.Data.List.Basic

/-! Dividing a list at the first or the last occurrence of a separator. Division
at every occurrence is the core library's `List.splitOn`. -/

set_option autoImplicit false

namespace AzureInit.Foundation.Delimited

variable {α : Type} [DecidableEq α]

/-- The parts before and behind the first separator. -/
def splitOnce? (separator : α) : List α → Option (List α × List α)
  | [] => none
  | head :: tail =>
      if head = separator then some ([], tail)
      else (splitOnce? separator tail).map fun parts => (head :: parts.1, parts.2)

/-- The parts before and behind the last occurrence of a pattern. -/
def rsplitOnce? (pattern : List α) : List α → Option (List α × List α)
  | [] => if pattern.isEmpty then some ([], []) else none
  | head :: tail =>
      match rsplitOnce? pattern tail with
      | some (left, right) => some (head :: left, right)
      | none =>
          if pattern.isPrefixOf (head :: tail) then
            some ([], (head :: tail).drop pattern.length)
          else none

/-- The part in front of the first separator; the whole list without one. -/
def firstField (separator : α) (values : List α) : List α :=
  (values.splitOn separator).headD []

theorem splitOnce?_eq_none_iff {separator : α} {values : List α} :
    splitOnce? separator values = none ↔ separator ∉ values := by
  induction values with
  | nil => simp [splitOnce?]
  | cons head tail ih =>
      simp only [splitOnce?, List.mem_cons, not_or]
      split
      · rename_i found
        simp [found]
      · rename_i different
        simp [ih, Ne.symm different]

theorem splitOnce?_eq_some_iff {separator : α} {values left right : List α} :
    splitOnce? separator values = some (left, right) ↔
      values = left ++ separator :: right ∧ separator ∉ left := by
  induction values generalizing left with
  | nil => simp [splitOnce?]
  | cons head tail ih =>
      simp only [splitOnce?]
      cases left with
      | nil =>
          split <;> simp_all [eq_comm]
      | cons first left =>
          split
          · rename_i found
            simp only [Option.some.injEq, Prod.mk.injEq, List.nil_eq, reduceCtorEq, false_and,
              List.cons_append, List.cons.injEq, List.mem_cons, not_or, false_iff, not_and,
              and_imp]
            intro sameHead _ different
            exact absurd (found.symm.trans sameHead) different
          · rename_i different
            simp only [Option.map_eq_some_iff, Prod.exists, Prod.mk.injEq, List.cons.injEq,
              List.cons_append, List.mem_cons, not_or]
            constructor
            · intro found
              obtain ⟨before, behind, found, ⟨rfl, rfl⟩, rfl⟩ := found
              obtain ⟨rfl, absent⟩ := ih.mp found
              exact ⟨⟨rfl, rfl⟩, Ne.symm different, absent⟩
            · intro divided
              obtain ⟨⟨rfl, rfl⟩, -, absent⟩ := divided
              exact ⟨left, right, ih.mpr ⟨rfl, absent⟩, ⟨rfl, rfl⟩, rfl⟩

theorem rsplitOnce?_singleton_eq_none_iff {separator : α} {values : List α} :
    rsplitOnce? [separator] values = none ↔ separator ∉ values := by
  induction values with
  | nil => simp [rsplitOnce?]
  | cons head tail ih =>
      simp only [rsplitOnce?, List.mem_cons, not_or]
      cases divided : rsplitOnce? [separator] tail with
      | some parts =>
          have present : separator ∈ tail := by
            by_contra absent
            rw [ih.mpr absent] at divided
            cases divided
          simp [present]
      | none =>
          have absent := ih.mp divided
          by_cases same : separator = head <;> simp [same, absent]

/-- Only the last separator divides a list whose end has none. -/
theorem rsplitOnce?_append_cons {separator : α} {left right : List α}
    (absent : separator ∉ right) :
    rsplitOnce? [separator] (left ++ separator :: right) = some (left, right) := by
  induction left with
  | nil =>
      have none_behind := rsplitOnce?_singleton_eq_none_iff.mpr absent
      simp [rsplitOnce?, none_behind]
  | cons first left ih => simp [rsplitOnce?, ih]

theorem rsplitOnce?_singleton_eq_some_iff {separator : α} {values left right : List α} :
    rsplitOnce? [separator] values = some (left, right) ↔
      values = left ++ separator :: right ∧ separator ∉ right := by
  constructor
  · intro divided
    induction values generalizing left with
    | nil => simp [rsplitOnce?] at divided
    | cons head tail ih =>
        simp only [rsplitOnce?] at divided
        cases behind : rsplitOnce? [separator] tail with
        | some parts =>
            simp only [behind, Option.some.injEq, Prod.mk.injEq] at divided
            obtain ⟨rfl, sameRight⟩ := divided
            obtain ⟨joined, absent⟩ := @ih parts.1 (by rw [behind, ← sameRight])
            exact ⟨by rw [List.cons_append, ← joined], absent⟩
        | none =>
            have absent := rsplitOnce?_singleton_eq_none_iff.mp behind
            by_cases same : separator = head
            · subst same
              simp only [behind, List.isPrefixOf, beq_self_eq_true, Bool.and_self,
                ↓reduceIte, List.length_cons, List.length_nil, Nat.zero_add,
                List.drop_succ_cons, List.drop_zero, Option.some.injEq,
                Prod.mk.injEq] at divided
              obtain ⟨rfl, rfl⟩ := divided
              exact ⟨rfl, absent⟩
            · simp [behind, same] at divided
  · intro joined
    obtain ⟨rfl, absent⟩ := joined
    exact rsplitOnce?_append_cons absent

theorem rsplitOnce?_cons_eq_none_iff {pattern : List α} {head : α} {tail : List α} :
    rsplitOnce? pattern (head :: tail) = none ↔
      rsplitOnce? pattern tail = none ∧ ¬ pattern <+: head :: tail := by
  rw [rsplitOnce?]
  cases behind : rsplitOnce? pattern tail with
  | some parts => simp
  | none => simp [List.isPrefixOf_iff_prefix]

/-- A pattern divides a list where it stands if it does not begin again behind that. -/
theorem rsplitOnce?_append {first : α} {rest left right : List α}
    (absent : rsplitOnce? (first :: rest) (rest ++ right) = none) :
    rsplitOnce? (first :: rest) (left ++ (first :: rest ++ right)) = some (left, right) := by
  induction left with
  | nil => simp [rsplitOnce?, absent]
  | cons head left ih => rw [List.cons_append, rsplitOnce?, ih]

theorem firstField_of_splitOn {separator : α} {values : List α} {first : List α}
    {rest : List (List α)} (fields : values.splitOn separator = first :: rest) :
    firstField separator values = first := by
  simp [firstField, fields]

/-- A suffix behind a further separator leaves the first field alone. -/
theorem firstField_append_cons (separator : α) (left right : List α) :
    firstField separator (left ++ separator :: right) = firstField separator left := by
  unfold firstField
  rw [List.splitOn_append_cons_self]
  cases fields : left.splitOn separator with
  | nil => exact absurd fields (List.splitOn_ne_nil separator left)
  | cons first rest => simp

theorem not_mem_of_mem_splitOn {separator : α} {values field : List α}
    (isField : field ∈ values.splitOn separator) : separator ∉ field := by
  induction values generalizing field with
  | nil =>
      rw [List.splitOn_nil, List.mem_singleton] at isField
      simp [isField]
  | cons value values ih =>
      rw [List.splitOn_cons_eq_if_modifyHead] at isField
      split at isField
      · cases List.mem_cons.mp isField with
        | inl empty => simp [empty]
        | inr later => exact ih later
      · rename_i other
        cases fields : values.splitOn separator with
        | nil => exact absurd fields (List.splitOn_ne_nil separator values)
        | cons first rest =>
            rw [fields] at isField ih
            rw [List.modifyHead_cons] at isField
            cases List.mem_cons.mp isField with
            | inl isFirst =>
                rw [isFirst, List.mem_cons, not_or]
                exact ⟨fun same => other (by simp [same]), ih List.mem_cons_self⟩
            | inr later => exact ih (List.mem_cons_of_mem _ later)

omit [DecidableEq α] in
theorem mem_intercalate {separator value : α} {fields : List (List α)} {field : List α}
    (isField : field ∈ fields) (member : value ∈ field) :
    value ∈ [separator].intercalate fields := by
  induction fields with
  | nil => cases isField
  | cons first fields ih =>
      cases fields with
      | nil =>
          rw [List.mem_singleton.mp isField] at member
          rwa [List.intercalate_singleton]
      | cons next fields =>
          rw [List.intercalate_cons_cons, List.append_assoc, List.mem_append]
          cases List.mem_cons.mp isField with
          | inl isFirst => exact .inl (isFirst ▸ member)
          | inr later => exact .inr (List.mem_append_right _ (ih later))

omit [DecidableEq α] in
theorem not_mem_intercalate {separator value : α} {fields : List (List α)}
    (different : value ≠ separator) (absent : ∀ field ∈ fields, value ∉ field) :
    value ∉ [separator].intercalate fields := by
  induction fields with
  | nil => simp
  | cons field fields ih =>
      obtain ⟨here, later⟩ := List.forall_mem_cons.mp absent
      cases fields with
      | nil => simpa using here
      | cons next fields =>
          rw [List.intercalate_cons_cons, List.mem_append, List.mem_append, not_or, not_or,
            List.mem_singleton]
          exact ⟨⟨here, different⟩, ih later⟩

omit [DecidableEq α] in
theorem sum_length_le_intercalate (separator : α) (fields : List (List α)) :
    (fields.map List.length).sum ≤ ([separator].intercalate fields).length := by
  induction fields with
  | nil => simp
  | cons field fields ih =>
      cases fields with
      | nil => simp
      | cons next fields =>
          rw [List.map_cons, List.sum_cons, List.intercalate_cons_cons, List.length_append,
            List.length_append]
          omega

omit [DecidableEq α] in
/-- A list is divided in front of the first value that ends a scan. -/
theorem exists_scanned (ends : α → Bool) (values : List α) :
    ∃ front rest, values = front ++ rest ∧ (∀ value ∈ front, ends value = false) ∧
      ∀ value ∈ rest.head?, ends value = true := by
  induction values with
  | nil => exact ⟨[], [], rfl, by simp, by simp⟩
  | cons value values ih =>
      cases stops : ends value with
      | true => exact ⟨[], value :: values, rfl, by simp, by simpa using stops⟩
      | false =>
          obtain ⟨front, rest, rfl, goesOn, ended⟩ := ih
          exact ⟨value :: front, rest, rfl, List.forall_mem_cons.mpr ⟨stops, goesOn⟩, ended⟩

section Fronts

variable {β : Type} [BEq β] [LawfulBEq β]

theorem takeWhile_append_cons {separator : β} {left : List β} (right : List β)
    (absent : separator ∉ left) : (left ++ separator :: right).takeWhile (· != separator) = left := by
  rw [List.takeWhile_append_of_pos, List.takeWhile_cons_of_neg (by simp), List.append_nil]
  intro value member
  exact bne_iff_ne.mpr fun same => absent (same ▸ member)

theorem dropWhile_append_cons {separator : β} {left : List β} (right : List β)
    (absent : separator ∉ left) :
    (left ++ separator :: right).dropWhile (· != separator) = separator :: right := by
  rw [List.dropWhile_append_of_pos, List.dropWhile_cons_of_neg (by simp)]
  intro value member
  exact bne_iff_ne.mpr fun same => absent (same ▸ member)

theorem dropWhile_of_not_mem {separator : β} {values : List β} (absent : separator ∉ values) :
    values.dropWhile (· != separator) = [] := by
  induction values with
  | nil => rfl
  | cons value values ih =>
      rw [List.mem_cons, not_or] at absent
      simp [Ne.symm absent.1, ih absent.2]

end Fronts

end AzureInit.Foundation.Delimited
