import Mathlib.Tactic
import Mathlib.Data.List.Sort

/-! Lists whose items belong to groups, and the order that positions restore.
Taking the groups one after the other, in whatever order, permutes the list; a
sort by distinct positions then leaves one possible result. -/

set_option autoImplicit false

namespace AzureInit.Foundation.Grouping

variable {ι κ α : Type} [DecidableEq κ] (key : ι → Option κ)

/-- The items of no group, in list order. -/
def ungrouped (items : List ι) : List ι := items.filter fun item => (key item).isNone

/-- The items of a group, in list order. -/
def membersOf (items : List ι) (group : κ) : List ι :=
  items.filter fun item => decide (key item = some group)

@[simp] theorem mem_membersOf {items : List ι} {group : κ} {item : ι} :
    item ∈ membersOf key items group ↔ item ∈ items ∧ key item = some group := by
  simp [membersOf]

omit [DecidableEq κ] in
@[simp] theorem mem_ungrouped {items : List ι} {item : ι} :
    item ∈ ungrouped key items ↔ item ∈ items ∧ key item = none := by
  simp [ungrouped]

theorem membersOf_append (front back : List ι) (group : κ) :
    membersOf key (front ++ back) group =
      membersOf key front group ++ membersOf key back group :=
  List.filter_append ..

theorem membersOf_sublist (items : List ι) (group : κ) :
    (membersOf key items group).Sublist items := List.filter_sublist

theorem membersOf_perm {left right : List ι} (perm : left.Perm right) (group : κ) :
    (membersOf key left group).Perm (membersOf key right group) := perm.filter _

theorem membersOf_eq_nil {items : List ι} {group : κ}
    (absent : ∀ item ∈ items, key item ≠ some group) : membersOf key items group = [] := by
  apply List.filter_eq_nil_iff.mpr
  intro item member
  simpa using absent item member

theorem membersOf_eq_self {items : List ι} {group : κ}
    (members : ∀ item ∈ items, key item = some group) : membersOf key items group = items := by
  apply List.filter_eq_self.mpr
  intro item member
  simpa using members item member

omit [DecidableEq κ] in
/-- Outputs that only items of no group have are those of the items of no group. -/
theorem flatMap_ungrouped {items : List ι} {outputs : ι → List α}
    (silent : ∀ item ∈ items, ∀ group, key item = some group → outputs item = []) :
    items.flatMap outputs = (ungrouped key items).flatMap outputs := by
  unfold ungrouped
  induction items with
  | nil => rfl
  | cons item items ih =>
      obtain ⟨here, later⟩ := List.forall_mem_cons.mp silent
      cases found : key item with
      | none => simp [found, ih later]
      | some group => simp [found, ih later, here group found]

private theorem membersOf_without {items : List ι} {group other : κ}
    (different : other ≠ group) :
    membersOf key (items.filter fun item => !decide (key item = some group)) other =
      membersOf key items other := by
  unfold membersOf
  rw [List.filter_filter]
  apply List.filter_congr
  intro item _
  by_cases found : key item = some other
  · simp [found, different]
  · simp [found]

private theorem ungrouped_without (items : List ι) (group : κ) :
    ungrouped key (items.filter fun item => !decide (key item = some group)) =
      ungrouped key items := by
  unfold ungrouped
  rw [List.filter_filter]
  apply List.filter_congr
  intro item _
  cases key item <;> simp

/-- The items outside every group and then the groups, in any order, are all items. -/
theorem perm_ungrouped_append_members {items : List ι} {groups : List κ}
    (distinct : groups.Nodup)
    (covered : ∀ item ∈ items, ∀ group, key item = some group → group ∈ groups) :
    items.Perm (ungrouped key items ++ groups.flatMap (membersOf key items)) := by
  induction groups generalizing items with
  | nil =>
      have none_grouped : ungrouped key items = items := by
        apply List.filter_eq_self.mpr
        intro item member
        cases found : key item with
        | none => rfl
        | some group => exact absurd (covered item member group found) List.not_mem_nil
      simp [none_grouped]
  | cons group groups ih =>
      obtain ⟨fresh, distinct⟩ := List.nodup_cons.mp distinct
      let others := items.filter fun item => !decide (key item = some group)
      have othersCovered : ∀ item ∈ others, ∀ other, key item = some other →
          other ∈ groups := by
        intro item member other found
        simp only [others, List.mem_filter, Bool.not_eq_true', decide_eq_false_iff_not] at member
        cases List.mem_cons.mp (covered item member.1 other found) with
        | inl same => exact absurd (same ▸ found) member.2
        | inr later => exact later
      have rest := ih distinct othersCovered
      have sameMembers : groups.flatMap (membersOf key others) =
          groups.flatMap (membersOf key items) := by
        apply List.flatMap_congr
        intro other member
        apply membersOf_without
        intro same
        exact fresh (same ▸ member)
      rw [ungrouped_without, sameMembers] at rest
      have split : (membersOf key items group ++ others).Perm items :=
        List.filter_append_perm ..
      have joined := split.symm.trans (rest.append_left _)
      apply joined.trans
      rw [List.flatMap_cons, ← List.append_assoc, ← List.append_assoc]
      exact List.perm_append_comm.append_right _

theorem perm_ungrouped_append_dedup (items : List ι) :
    items.Perm (ungrouped key items ++
      (items.filterMap key).dedup.flatMap (membersOf key items)) := by
  apply perm_ungrouped_append_members key (List.nodup_dedup _)
  intro item member group found
  exact List.mem_dedup.mpr (List.mem_filterMap.mpr ⟨item, member, found⟩)

/-- Outputs agree up to order when they do on single items and on whole groups. -/
theorem flatMap_perm_flatMap {items : List ι} {left right : ι → List α}
    (single : ∀ item ∈ items, key item = none → left item = right item)
    (whole : ∀ group, ((membersOf key items group).flatMap left).Perm
      ((membersOf key items group).flatMap right)) :
    (items.flatMap left).Perm (items.flatMap right) := by
  have regrouped := perm_ungrouped_append_dedup key items
  have sameSingles : (ungrouped key items).flatMap left =
      (ungrouped key items).flatMap right := by
    apply List.flatMap_congr
    intro item member
    obtain ⟨inItems, alone⟩ := (mem_ungrouped key).mp member
    exact single item inItems alone
  have sameGroups : ∀ groups : List κ,
      ((groups.flatMap (membersOf key items)).flatMap left).Perm
        ((groups.flatMap (membersOf key items)).flatMap right) := by
    intro groups
    rw [List.flatMap_assoc, List.flatMap_assoc]
    exact List.Perm.flatMap_left _ fun group _ => whole group
  apply (regrouped.flatMap_right left).trans
  apply List.Perm.trans ?_ (regrouped.flatMap_right right).symm
  rw [List.flatMap_append, List.flatMap_append, sameSingles]
  exact (sameGroups _).append_left _

/-- Sources with names of their own: each one's items are the group of its name. -/
theorem membersOf_flatMap {σ : Type} {name : σ → κ} {itemsOf : σ → List ι}
    {sources : List σ} (distinct : (sources.map name).Nodup)
    (named : ∀ source ∈ sources, ∀ item ∈ itemsOf source, key item = some (name source))
    {source : σ} (member : source ∈ sources) :
    membersOf key (sources.flatMap itemsOf) (name source) = itemsOf source := by
  induction sources with
  | nil => cases member
  | cons first rest ih =>
      obtain ⟨fresh, distinctRest⟩ := List.nodup_cons.mp distinct
      obtain ⟨firstNamed, restNamed⟩ := List.forall_mem_cons.mp named
      rw [List.flatMap_cons, membersOf_append]
      cases List.mem_cons.mp member with
      | inl same =>
          subst same
          have noOthers : membersOf key (rest.flatMap itemsOf) (name source) = [] := by
            apply membersOf_eq_nil
            intro item inRest
            obtain ⟨other, otherMember, inOther⟩ := List.mem_flatMap.mp inRest
            rw [restNamed other otherMember item inOther]
            intro sameName
            apply fresh
            rw [← Option.some.inj sameName]
            exact List.mem_map_of_mem otherMember
          rw [membersOf_eq_self key firstNamed, noOthers, List.append_nil]
      | inr later =>
          have notFirst : membersOf key (itemsOf first) (name source) = [] := by
            apply membersOf_eq_nil
            intro item inFirst
            rw [firstNamed item inFirst]
            intro sameName
            apply fresh
            rw [Option.some.inj sameName]
            exact List.mem_map_of_mem later
          rw [notFirst, List.nil_append, ih distinctRest restNamed later]

/-! ## Positions -/

theorem position_injOn {position : ι → Nat} {items : List ι}
    (increasing : items.Pairwise (position · < position ·)) {left right : ι}
    (leftMember : left ∈ items) (rightMember : right ∈ items)
    (same : position left = position right) : left = right := by
  have distinct : (items.map position).Nodup := by
    rw [List.Nodup, List.pairwise_map]
    exact increasing.imp Nat.ne_of_lt
  exact List.inj_on_of_nodup_map distinct leftMember rightMember same

/-- Distinct positions leave one order. -/
theorem eq_of_perm_of_increasing (position : ι → Nat) {ordered increasing : List ι}
    (perm : ordered.Perm increasing) (inOrder : ordered.Pairwise (position · ≤ position ·))
    (strictly : increasing.Pairwise (position · < position ·)) : ordered = increasing := by
  apply List.Perm.eq_of_pairwise ?antisymm inOrder (strictly.imp Nat.le_of_lt) perm
  intro left right leftMember rightMember below above
  exact position_injOn strictly (perm.mem_iff.mp leftMember) rightMember
    (Nat.le_antisymm below above)

/-- Sorting by distinct positions has one result, whatever the order before. -/
theorem insertionSort_eq_of_perm (position : ι → Nat) {values sorted : List ι}
    (perm : values.Perm sorted)
    (increasing : sorted.Pairwise (position · < position ·)) :
    values.insertionSort (position · ≤ position ·) = sorted := by
  have permSorted := (List.perm_insertionSort (position · ≤ position ·) values).trans perm
  have : Std.Total (α := ι) (position · ≤ position ·) := ⟨fun _ _ => Nat.le_total _ _⟩
  have : IsTrans ι (position · ≤ position ·) := ⟨fun _ _ _ => Nat.le_trans⟩
  have ordered := List.pairwise_insertionSort (position · ≤ position ·) values
  exact eq_of_perm_of_increasing position permSorted ordered increasing

/-- Among ordered items, a position that repeats is next to itself. -/
theorem adjacent_any_eq_false_iff (position : ι → Nat) {items : List ι}
    (ordered : items.Pairwise (position · ≤ position ·)) :
    ((items.zip items.tail).any fun pair => position pair.1 == position pair.2) = false ↔
      items.Pairwise (position · < position ·) := by
  induction items with
  | nil => simp
  | cons item items ih =>
      obtain ⟨below, ordered⟩ := List.pairwise_cons.mp ordered
      cases items with
      | nil => simp
      | cons next items =>
          have nextBelow := below next List.mem_cons_self
          have later := (List.pairwise_cons.mp ordered).1
          have inner := ih ordered
          simp only [List.tail_cons, List.zip_cons_cons, List.any_cons, Bool.or_eq_false_iff,
            beq_eq_false_iff_ne] at inner ⊢
          rw [inner, List.pairwise_cons (a := item)]
          constructor
          · intro apart
            refine ⟨fun other member => ?_, apart.2⟩
            have nextFirst : position item < position next :=
              Nat.lt_of_le_of_ne nextBelow apart.1
            cases List.mem_cons.mp member with
            | inl same => exact same ▸ nextFirst
            | inr behind => exact Nat.lt_of_lt_of_le nextFirst (later other behind)
          · intro strict
            exact ⟨Nat.ne_of_lt (strict.1 next List.mem_cons_self), strict.2⟩

theorem pairwise_lt_of_nodup (position : ι → Nat) {items : List ι}
    (ordered : items.Pairwise (position · ≤ position ·))
    (distinct : (items.map position).Nodup) :
    items.Pairwise (position · < position ·) := by
  rw [List.Nodup, List.pairwise_map] at distinct
  exact (ordered.and distinct).imp fun both => Nat.lt_of_le_of_ne both.1 both.2

/-- Output at the position of the head alone, where positions are distinct. -/
theorem flatMap_at_head (position : ι → Nat) {items : List ι} {first : Nat}
    (increasing : items.Pairwise (position · < position ·))
    (head : items.head?.map position = some first) (output : List α) :
    (items.flatMap fun item => if first = position item then output else []) = output := by
  cases items with
  | nil => cases head
  | cons item items =>
      have samePosition : position item = first := by simpa using head
      have later : ∀ other ∈ items, ¬ first = position other := by
        intro other member
        rw [← samePosition]
        exact Nat.ne_of_lt ((List.pairwise_cons.mp increasing).1 other member)
      rw [List.flatMap_cons, if_pos samePosition.symm,
        List.flatMap_eq_nil_iff.mpr fun other member => if_neg (later other member),
        List.append_nil]

/-- Items that each give output at their own position, in increasing positions. -/
theorem flatMap_pairwise_position {items : List ι} (position : ι → Nat)
    (outputs : ι → List (Nat × α))
    (increasing : items.Pairwise (position · < position ·))
    (own : ∀ item ∈ items, ∀ output ∈ outputs item, output.1 = position item)
    (short : ∀ item ∈ items, (outputs item).length ≤ 1) :
    (items.flatMap outputs).Pairwise (·.1 < ·.1) := by
  rw [List.pairwise_flatMap]
  constructor
  · intro item member
    have atMostOne := short item member
    cases found : outputs item with
    | nil => exact List.Pairwise.nil
    | cons first rest =>
        rw [found, List.length_cons, Nat.succ_le_succ_iff, Nat.le_zero,
          List.length_eq_zero_iff] at atMostOne
        rw [atMostOne]
        exact List.pairwise_singleton ..
  · apply List.Pairwise.imp_of_mem ?_ increasing
    intro left right leftMember rightMember less first firstMember second secondMember
    rw [own left leftMember first firstMember, own right rightMember second secondMember]
    exact less

end AzureInit.Foundation.Grouping
