import Mathlib.Tactic

/-! Maps as lists of entries in the order of their keys. The laws of lookups hold for any
list of entries; the order is what makes equal maps equal lists. -/

set_option autoImplicit false

namespace AzureInit.Foundation.SortedMap

variable {Key Value : Type} [DecidableEq Key]

def get (key : Key) (entries : List (Key × Value)) : Option Value :=
  (entries.find? (·.1 == key)).map (·.2)

def erase (key : Key) (entries : List (Key × Value)) : List (Key × Value) :=
  entries.filter (·.1 != key)

/-- Put a value under a key, in place of the one that is there. -/
def insert [LT Key] [DecidableLT Key] (key : Key) (value : Value) :
    List (Key × Value) → List (Key × Value)
  | [] => [(key, value)]
  | first :: rest =>
      if first.1 = key then (key, value) :: rest
      else if key < first.1 then (key, value) :: first :: rest
      else first :: insert key value rest

theorem get_cons (key : Key) (first : Key × Value) (rest : List (Key × Value)) :
    get key (first :: rest) = if first.1 = key then some first.2 else get key rest := by
  unfold get
  rw [List.find?_cons]
  by_cases same : first.1 = key
  · simp [same]
  · simp [beq_false_of_ne same, same]

theorem get_eq_none_iff {key : Key} {entries : List (Key × Value)} :
    get key entries = none ↔ ∀ entry ∈ entries, entry.1 ≠ key := by
  simp [get]

section Insert

variable [LT Key] [DecidableLT Key]

theorem get_insert (key other : Key) (value : Value) (entries : List (Key × Value)) :
    get other (insert key value entries) =
      if key = other then some value else get other entries := by
  induction entries with
  | nil => simp [insert, get_cons]
  | cons first rest ih =>
      unfold insert
      split
      · rename_i replaced
        simp only [get_cons, replaced]
        split <;> rfl
      · rename_i different
        split
        · rw [get_cons]
        · rw [get_cons, get_cons, ih]
          split
          · rename_i found
            rw [if_neg fun same => different (found.trans same.symm)]
          · rfl

theorem mem_of_mem_insert {key : Key} {value : Value} {entries : List (Key × Value)}
    {entry : Key × Value} (member : entry ∈ insert key value entries) :
    entry = (key, value) ∨ entry ∈ entries := by
  induction entries with
  | nil => exact .inl (List.mem_singleton.mp member)
  | cons first rest ih =>
      unfold insert at member
      split at member
      · rcases List.mem_cons.mp member with same | behind
        · exact .inl same
        · exact .inr (List.mem_cons_of_mem _ behind)
      · split at member
        · exact List.mem_cons.mp member
        · rcases List.mem_cons.mp member with rfl | behind
          · exact .inr (List.mem_cons_self ..)
          · exact (ih behind).imp_right (List.mem_cons_of_mem _)

theorem erase_insert_of_absent {key : Key} (value : Value) {entries : List (Key × Value)}
    (absent : get key entries = none) : erase key (insert key value entries) = entries := by
  rw [get_eq_none_iff] at absent
  induction entries with
  | nil => simp [insert, erase]
  | cons first rest ih =>
      obtain ⟨different, others⟩ := List.forall_mem_cons.mp absent
      have kept : ∀ entry ∈ rest, (entry.1 != key) = true := by
        intro entry member
        simpa using others entry member
      unfold insert
      rw [if_neg different]
      split
      · rw [erase, List.filter_cons_of_neg (by simp), List.filter_cons_of_pos (by simpa using different),
          List.filter_eq_self.mpr kept]
      · rw [erase, List.filter_cons_of_pos (by simpa using different)]
        exact congrArg _ (ih others)

end Insert

/-! ## Many insertions -/

/-- The value that was given last for a key. -/
def last (key : Key) (given : List (Key × Value)) : Option Value := get key given.reverse

theorem last_concat (key : Key) (given : List (Key × Value)) (entry : Key × Value) :
    last key (given ++ [entry]) = if entry.1 = key then some entry.2 else last key given := by
  rw [last, List.reverse_append, List.reverse_singleton, List.singleton_append, get_cons]
  rfl

variable [LT Key] [DecidableLT Key]

def insertAll (given entries : List (Key × Value)) : List (Key × Value) :=
  given.foldl (fun entries entry => insert entry.1 entry.2 entries) entries

theorem insertAll_append (first second entries : List (Key × Value)) :
    insertAll (first ++ second) entries = insertAll second (insertAll first entries) :=
  List.foldl_append

theorem mem_of_mem_insertAll {given entries : List (Key × Value)} {entry : Key × Value}
    (member : entry ∈ insertAll given entries) : entry ∈ given ∨ entry ∈ entries := by
  induction given generalizing entries with
  | nil => exact .inr member
  | cons first given ih =>
      rcases ih member with isGiven | inserted
      · exact .inl (List.mem_cons_of_mem _ isGiven)
      · rcases mem_of_mem_insert inserted with rfl | isEntry
        · exact .inl (List.mem_cons_self ..)
        · exact .inr isEntry

/-- A map holds what was given last for each key. -/
theorem get_insertAll (key : Key) (given entries : List (Key × Value)) :
    get key (insertAll given entries) = (last key given).orElse fun _ => get key entries := by
  induction given using List.reverseRecOn with
  | nil => rfl
  | append_singleton given entry ih =>
      rw [insertAll_append, last_concat]
      change get key (insert entry.1 entry.2 (insertAll given entries)) = _
      rw [get_insert, ih]
      split <;> rfl

/-! ## Order -/

section Sorted

variable [IsStrictTotalOrder Key (· < ·)]

/-- The keys stand in their order, and none stands twice. -/
def Sorted (entries : List (Key × Value)) : Prop :=
  entries.Pairwise fun first second => first.1 < second.1

theorem Sorted.insert {entries : List (Key × Value)} (sorted : Sorted entries) (key : Key)
    (value : Value) : Sorted (insert key value entries) := by
  induction entries with
  | nil => exact List.pairwise_singleton _ _
  | cons first rest ih =>
      obtain ⟨before, others⟩ := List.pairwise_cons.mp sorted
      unfold SortedMap.insert
      split_ifs with same less
      · exact List.pairwise_cons.mpr ⟨same ▸ before, others⟩
      · refine List.pairwise_cons.mpr ⟨List.forall_mem_cons.mpr ⟨less, ?_⟩, sorted⟩
        exact fun entry member => trans_of (· < ·) less (before entry member)
      · refine List.pairwise_cons.mpr ⟨fun entry member => ?_, ih others⟩
        rcases mem_of_mem_insert member with rfl | behind
        · by_contra notLess
          exact same (Std.Trichotomous.trichotomous first.1 key notLess less)
        · exact before entry behind

theorem Sorted.insertAll {entries : List (Key × Value)} (sorted : Sorted entries)
    (given : List (Key × Value)) : Sorted (insertAll given entries) := by
  induction given generalizing entries with
  | nil => exact sorted
  | cons entry given ih => exact ih (sorted.insert entry.1 entry.2)

theorem insert_of_forall_lt {key : Key} (value : Value) {entries : List (Key × Value)}
    (before : ∀ entry ∈ entries, entry.1 < key) :
    insert key value entries = entries ++ [(key, value)] := by
  induction entries with
  | nil => rfl
  | cons first rest ih =>
      obtain ⟨less, others⟩ := List.forall_mem_cons.mp before
      have different : ¬first.1 = key := fun same => irrefl_of (· < ·) key (same ▸ less)
      have notLess : ¬key < first.1 := fun back => irrefl_of (· < ·) key (trans_of (· < ·) back less)
      rw [insert, if_neg different, if_neg notLess, ih others, List.cons_append]

/-- Entries in their order are the map that is made of them. -/
theorem insertAll_of_sorted {given entries : List (Key × Value)}
    (sorted : Sorted (entries ++ given)) : insertAll given entries = entries ++ given := by
  induction given generalizing entries with
  | nil => exact (List.append_nil entries).symm
  | cons entry given ih =>
      have before := (List.pairwise_append.mp sorted).2.2
      have appended := insert_of_forall_lt entry.2 fun other member =>
        before other member entry List.mem_cons_self
      rw [List.append_cons] at sorted ⊢
      rw [← ih sorted, ← appended]
      rfl

end Sorted

end AzureInit.Foundation.SortedMap
