import Mathlib.Tactic

/-! One pass over a list that is edited in place. A removed element is replaced
by the list's final one, which is then visited in its stead, so that a pass
reorders what it leaves behind. A pass may stop at an element it refuses. -/

set_option autoImplicit false

namespace AzureInit.Foundation

namespace Sweep

variable {α σ ε : Type}

/-- What the pass does to the element it stands on. -/
inductive Edit (α : Type) where
  | keep
  | replace (value : α)
  | remove
  deriving DecidableEq, Repr

/-- The list behind a hole after the final element has moved into the hole. -/
def closeGap (tail : List α) : List α :=
  match tail.getLast? with
  | none => []
  | some last => last :: tail.dropLast

@[simp] theorem closeGap_nil : closeGap ([] : List α) = [] := rfl

@[simp] theorem closeGap_concat (front : List α) (last : α) :
    closeGap (front ++ [last]) = last :: front := by
  simp [closeGap]

theorem closeGap_perm (tail : List α) : (closeGap tail).Perm tail := by
  rcases List.eq_nil_or_concat tail with rfl | ⟨front, last, rfl⟩
  · exact .refl _
  · rw [List.concat_eq_append, closeGap_concat]
    exact (List.perm_append_singleton last front).symm

@[simp] theorem length_closeGap (tail : List α) : (closeGap tail).length = tail.length :=
  (closeGap_perm tail).length_eq

/-- Closing a gap moves no element behind a position it was before. -/
theorem mem_drop_of_mem_drop_closeGap {head element : α} {tail : List α} {count : Nat}
    (short : count ≤ tail.length) (member : element ∈ (closeGap tail).drop count) :
    element ∈ (head :: tail).drop count := by
  rcases List.eq_nil_or_concat tail with rfl | ⟨front, last, rfl⟩
  · simp at member
  · rw [List.concat_eq_append] at *
    rw [closeGap_concat] at member
    cases count with
    | zero => simpa [or_comm] using Or.inr member
    | succ count =>
        rw [List.drop_succ_cons] at member ⊢
        have inside : count ≤ front.length := by simpa using short
        rw [List.drop_append_of_le_length inside]
        exact List.mem_append_left _ member

theorem last_mem_drop {head last : α} {tail : List α} {count : Nat}
    (short : count ≤ tail.length) (found : last ∈ tail.getLast?) :
    last ∈ (head :: tail).drop count := by
  rcases List.eq_nil_or_concat tail with rfl | ⟨front, final, rfl⟩
  · simp at found
  · rw [List.concat_eq_append] at *
    obtain rfl : final = last := by simpa using found
    rw [← List.cons_append, List.drop_append_of_le_length (by simpa using short)]
    simp

theorem filter_closeGap {chosen : α → Bool} {tail : List α}
    (lastNot : ∀ last ∈ tail.getLast?, chosen last = false) :
    (closeGap tail).filter chosen = tail.filter chosen := by
  rcases List.eq_nil_or_concat tail with rfl | ⟨front, last, rfl⟩
  · rfl
  · rw [List.concat_eq_append] at *
    have outside : chosen last = false := lastNot last (by simp)
    simp [outside]

namespace Edit

/-- The elements an edit leaves behind the pass. -/
def emitted (edit : Edit α) (head : α) : List α :=
  match edit with
  | .keep => [head]
  | .replace value => [value]
  | .remove => []

/-- The elements an edit leaves before the pass. -/
def remaining (edit : Edit α) (tail : List α) : List α :=
  match edit with
  | .keep | .replace _ => tail
  | .remove => closeGap tail

@[simp] theorem emitted_keep (head : α) : (keep : Edit α).emitted head = [head] := rfl

@[simp] theorem emitted_replace (value head : α) : (replace value).emitted head = [value] := rfl

@[simp] theorem emitted_remove (head : α) : (remove : Edit α).emitted head = [] := rfl

@[simp] theorem remaining_keep (tail : List α) : (keep : Edit α).remaining tail = tail := rfl

@[simp] theorem remaining_replace (value : α) (tail : List α) :
    (replace value).remaining tail = tail := rfl

@[simp] theorem remaining_remove (tail : List α) :
    (remove : Edit α).remaining tail = closeGap tail := rfl

@[simp] theorem length_remaining (edit : Edit α) (tail : List α) :
    (edit.remaining tail).length = tail.length := by
  cases edit <;> simp

theorem remaining_perm (edit : Edit α) (tail : List α) : (edit.remaining tail).Perm tail := by
  cases edit with
  | keep => exact .refl _
  | replace value => exact .refl _
  | remove => exact closeGap_perm tail

end Edit

/-- The whole pass, with the list it leaves. At a refused element it stops and
leaves the rest as it is. -/
def sweep (step : σ → α → Except ε (Edit α × σ)) : σ → List α → Except ε σ × List α
  | state, [] => (.ok state, [])
  | state, head :: tail =>
      match step state head with
      | .error error => (.error error, head :: tail)
      | .ok (edit, next) =>
          let (result, final) := sweep step next (edit.remaining tail)
          (result, edit.emitted head ++ final)
termination_by _ elements => elements.length
decreasing_by simp

/-- What the list may hold when a pass is cut short: between two edits, or at an
edited element, whose place may then hold anything. -/
inductive Cut (step : σ → α → Except ε (Edit α × σ)) : σ → List α → List α → Prop where
  | here {state : σ} {elements : List α} : Cut step state elements elements
  | torn {state next : σ} {head place : α} {tail : List α} {edit : Edit α} :
      step state head = .ok (edit, next) → edit ≠ .keep →
      Cut step state (head :: tail) (place :: tail)
  | later {state next : σ} {head : α} {tail final : List α} {edit : Edit α} :
      step state head = .ok (edit, next) → Cut step next (edit.remaining tail) final →
      Cut step state (head :: tail) (edit.emitted head ++ final)

section Pass

variable {step : σ → α → Except ε (Edit α × σ)}

@[simp] theorem sweep_nil (state : σ) : sweep step state [] = (.ok state, []) := by
  rw [sweep]

theorem sweep_cons_error {state : σ} {head : α} {error : ε} (refused : step state head = .error error)
    (tail : List α) : sweep step state (head :: tail) = (.error error, head :: tail) := by
  rw [sweep, refused]

theorem sweep_cons_ok {state next : σ} {head : α} {edit : Edit α}
    (accepted : step state head = .ok (edit, next)) (tail : List α) :
    sweep step state (head :: tail) =
      ((sweep step next (edit.remaining tail)).1,
        edit.emitted head ++ (sweep step next (edit.remaining tail)).2) := by
  rw [sweep, accepted]

variable (step) in
/-- Induction along a pass: it ends, is refused, or continues behind one edit. -/
theorem sweep_induction {motive : σ → List α → Prop}
    (ended : ∀ state, motive state [])
    (refused : ∀ state head tail error, step state head = .error error →
      motive state (head :: tail))
    (continued : ∀ state head tail edit next, step state head = .ok (edit, next) →
      motive next (edit.remaining tail) → motive state (head :: tail))
    (state : σ) (elements : List α) : motive state elements := by
  induction count : elements.length generalizing state elements with
  | zero =>
      rw [List.length_eq_zero_iff] at count
      subst count
      exact ended state
  | succ length ih =>
      cases elements with
      | nil => simp at count
      | cons head tail =>
          cases stepped : step state head with
          | error error => exact refused state head tail error stepped
          | ok outcome =>
              obtain ⟨edit, next⟩ := outcome
              refine continued state head tail edit next stepped (ih next _ ?_)
              simpa using count

/-- A kept prefix stays in front, and the pass goes on behind it. -/
theorem sweep_append_of_keep {visit : σ → α → σ} (front rest : List α) (state : σ)
    (kept : ∀ element ∈ front, ∀ state, step state element = .ok (.keep, visit state element)) :
    sweep step state (front ++ rest) =
      ((sweep step (front.foldl visit state) rest).1,
        front ++ (sweep step (front.foldl visit state) rest).2) := by
  induction front generalizing state with
  | nil => rfl
  | cons head tail ih =>
      rw [List.cons_append, sweep_cons_ok (kept head (by simp) state), Edit.remaining_keep,
        ih _ fun element member => kept element (by simp [member])]
      rfl

variable (step) in
theorem length_sweep_le (state : σ) (elements : List α) :
    (sweep step state elements).2.length ≤ elements.length := by
  induction state, elements using sweep_induction step with
  | ended state => simp
  | refused state head tail error refused => simp [sweep_cons_error refused]
  | continued state head tail edit next accepted ih =>
      rw [Edit.length_remaining] at ih
      rw [sweep_cons_ok accepted, List.length_append, List.length_cons]
      have single : (edit.emitted head).length ≤ 1 := by cases edit <;> simp
      omega

/-- A pass that ends has been accepted at every element of the list. -/
theorem accepted_of_sweep_ok {state last : σ} {elements : List α}
    (ended : (sweep step state elements).1 = .ok last) :
    ∀ element ∈ elements, ∃ state outcome, step state element = .ok outcome := by
  induction state, elements using sweep_induction step with
  | ended state => simp
  | refused state head tail error refused =>
      rw [sweep_cons_error refused] at ended
      cases ended
  | continued state head tail edit next accepted ih =>
      rw [sweep_cons_ok accepted] at ended
      rintro element (_ | ⟨_, member⟩)
      · exact ⟨state, _, accepted⟩
      · exact ih ended element ((edit.remaining_perm tail).mem_iff.mpr member)

/-- A refused pass was refused at some element of the list, in some state. -/
theorem refused_of_sweep_error {state : σ} {error : ε} {elements : List α}
    (stopped : (sweep step state elements).1 = .error error) :
    ∃ element ∈ elements, ∃ state, step state element = .error error := by
  induction state, elements using sweep_induction step with
  | ended state => simp at stopped
  | refused state head tail error refused =>
      rw [sweep_cons_error refused] at stopped
      obtain rfl := Except.error.inj stopped
      exact ⟨head, by simp, state, refused⟩
  | continued state head tail edit next accepted ih =>
      rw [sweep_cons_ok accepted] at stopped
      obtain ⟨element, member, refusal⟩ := ih stopped
      have inTail := (edit.remaining_perm tail).mem_iff.mp member
      exact ⟨element, by simp [inTail], refusal⟩

/-- The pass itself is one of its cuts, whether it ends or is refused. -/
theorem cut_sweep (state : σ) (elements : List α) :
    Cut step state elements (sweep step state elements).2 := by
  induction state, elements using sweep_induction step with
  | ended state =>
      rw [sweep_nil]
      exact .here
  | refused state head tail error refused =>
      rw [sweep_cons_error refused]
      exact .here
  | continued state head tail edit next accepted ih =>
      rw [sweep_cons_ok accepted]
      exact .later accepted ih

/-! ### Elements the pass never touches -/

variable {spared : α → Bool}

/-- Untouched elements are kept as a multiset. -/
theorem filter_sweep_perm
    (kept : ∀ state head edit next, step state head = .ok (edit, next) →
      spared head = true → edit = .keep)
    (fresh : ∀ state head value next, step state head = .ok (.replace value, next) →
      spared value = false)
    (state : σ) (elements : List α) :
    ((sweep step state elements).2.filter spared).Perm (elements.filter spared) := by
  induction state, elements using sweep_induction step with
  | ended state => simp
  | refused state head tail error refused => simp [sweep_cons_error refused]
  | continued state head tail edit next accepted ih =>
      have rest := ih.trans ((edit.remaining_perm tail).filter spared)
      rw [sweep_cons_ok accepted, List.filter_append]
      cases spareHead : spared head with
      | true =>
          obtain rfl := kept _ _ _ _ accepted spareHead
          simpa [spareHead] using rest
      | false =>
          have gone : (edit.emitted head).filter spared = [] := by
            cases edit with
            | keep => simp [spareHead]
            | replace value => simp [fresh _ _ _ _ accepted]
            | remove => rfl
          simpa [gone, spareHead] using rest

/-- Untouched elements none of which lies behind the final length keep their order. -/
theorem filter_sweep_eq
    (kept : ∀ state head edit next, step state head = .ok (edit, next) →
      spared head = true → edit = .keep)
    (fresh : ∀ state head value next, step state head = .ok (.replace value, next) →
      spared value = false)
    (state : σ) (elements : List α)
    (front : ∀ element ∈ elements.drop (sweep step state elements).2.length,
      spared element = false) :
    (sweep step state elements).2.filter spared = elements.filter spared := by
  induction state, elements using sweep_induction step with
  | ended state => simp
  | refused state head tail error refused => simp [sweep_cons_error refused]
  | continued state head tail edit next accepted ih =>
      rw [sweep_cons_ok accepted] at front ⊢
      dsimp only at front ⊢
      have edited : edit ≠ .keep → spared head = false := by
        intro changed
        by_contra spare
        exact changed (kept _ _ _ _ accepted (by simpa using spare))
      cases edit with
      | keep =>
          have rest := ih (by simpa using front)
          rw [Edit.remaining_keep] at rest ⊢
          rw [Edit.emitted_keep, List.singleton_append, List.filter_cons, List.filter_cons, rest]
      | replace value =>
          have rest := ih (by simpa using front)
          rw [Edit.remaining_replace] at rest ⊢
          simp [rest, fresh _ _ _ _ accepted, edited (by simp)]
      | remove =>
          rw [Edit.remaining_remove] at ih ⊢
          rw [Edit.emitted_remove, List.nil_append, Edit.remaining_remove] at front
          have short : (sweep step next (closeGap tail)).2.length ≤ tail.length := by
            simpa using length_sweep_le step next (closeGap tail)
          have lastGone : ∀ last ∈ tail.getLast?, spared last = false :=
            fun last found => front last (last_mem_drop short found)
          rw [Edit.emitted_remove, List.nil_append,
            ih fun element member => front element (mem_drop_of_mem_drop_closeGap short member),
            filter_closeGap lastGone, List.filter_cons, if_neg (by simp [edited (by simp)])]

/-- A pass cut short has lost no untouched element. -/
theorem filter_subperm_of_cut
    (kept : ∀ state head edit next, step state head = .ok (edit, next) →
      spared head = true → edit = .keep)
    {state : σ} {elements final : List α} (cut : Cut step state elements final) :
    (elements.filter spared).Subperm (final.filter spared) := by
  induction cut with
  | here => exact .refl _
  | torn accepted changed =>
      rename_i head place tail edit
      have gone : ¬ spared head = true := fun spare => changed (kept _ _ _ _ accepted spare)
      rw [List.filter_cons_of_neg gone]
      exact ((List.sublist_cons_self place tail).filter spared).subperm
  | later accepted _ ih =>
      rename_i head tail final edit _
      have rest := ((edit.remaining_perm tail).filter spared).symm.subperm.trans ih
      cases spareHead : spared head with
      | true =>
          obtain rfl := kept _ _ _ _ accepted spareHead
          simpa [spareHead, List.subperm_cons] using rest
      | false =>
          rw [List.filter_cons_of_neg (by simp [spareHead]), List.filter_append]
          exact rest.trans (List.sublist_append_right _ _).subperm

end Pass

end Sweep

end AzureInit.Foundation
