import AzureInit.Diagnostics.RoundTrip

/-! A pool in which several writers' records are mixed: what the reader makes of
each diagnostic does not depend on the records around its own. -/

set_option autoImplicit false

namespace AzureInit.Diagnostics

open Foundation

/-- A record that the reader has nothing to do with. -/
structure Unrelated (record : Text × Text) : Prop where
  notDiag : Delimited.firstField '|' record.1 ≠ diagnosticVersionId
  notCloudInit : Delimited.firstField '|' record.1 ≠ CloudInit.keyPrefix
  notLaterVersion : ¬ "DIAG_V".toList <+: Delimited.firstField '|' record.1
  notReport : record.1 ≠ provisioningReportKey

theorem Unrelated.placeRecord_eq {record : Text × Text} (unrelated : Unrelated record)
    (crates : Crates) :
    placeRecord crates record =
      .entry (.raw { key := record.1, value := record.2, error := none }) := by
  have notDiag := beq_eq_false_iff_ne.mpr unrelated.notDiag
  have notCloudInit := beq_eq_false_iff_ne.mpr unrelated.notCloudInit
  have notReport := beq_eq_false_iff_ne.mpr unrelated.notReport
  have notLaterVersion :
      "DIAG_V".toList.isPrefixOf (Delimited.firstField '|' record.1) = false := by
    rw [← Bool.not_eq_true, List.isPrefixOf_iff_prefix]
    exact unrelated.notLaterVersion
  unfold placeRecord
  simp only [notDiag, notCloudInit, notReport, notLaterVersion, Bool.and_false,
    Bool.false_eq_true, ↓reduceIte]

theorem Unrelated.recordGroup_eq {record : Text × Text} (unrelated : Unrelated record)
    (crates : Crates) : recordGroup crates record = none := by
  simp [recordGroup, unrelated.placeRecord_eq crates]

/-- Where the first of some records stands in the pool. -/
def FirstPosition (pool records : List (Text × Text)) (position : Nat) : Prop :=
  (∃ record ∈ records, pool[position]? = some record) ∧
    ∀ (later : Nat) (record : Text × Text),
      pool[later]? = some record → record ∈ records → position ≤ later

/-- The output has one diagnostic for each member of the family, the one that the
member's records have by themselves, and each unrelated record as it is, all in the
order of their first records and whatever the order of the hash map. -/
def Demultiplexed (crates : Crates) (family : List (Emission crates))
    (unrelated pool : List (Text × Text)) : Prop :=
  ∃ (decoded : Emission crates → Diagnostic) (first : Emission crates → Nat)
    (kept : List Numbered) (placed : List (Nat × Entry)),
    (∀ member ∈ family, ∀ order : HashOrder,
      decodeEntries crates order member.records = [.diagnostic (decoded member)]) ∧
    (∀ member ∈ family, FirstPosition pool member.records (first member)) ∧
    (kept.map Prod.fst).Perm unrelated ∧
    (∀ record ∈ kept, pool[record.2]? = some record.1) ∧
    placed.Perm (family.map (fun member => (first member, .diagnostic (decoded member))) ++
      kept.map fun record => (record.2, .raw record.raw)) ∧
    placed.Pairwise (fun earlier later => earlier.1 < later.1) ∧
    ∀ order : HashOrder, decodeEntries crates order pool = placed.map Prod.snd

section

variable {crates : Crates}

/-- The year of a member whose own records are read back. -/
theorem Demultiplexed.fourDigitYear (rfc3339 : crates.Rfc3339)
    {family : List (Emission crates)} {unrelated pool : List (Text × Text)}
    (demultiplexed : Demultiplexed crates family unrelated pool)
    {member : Emission crates} (inFamily : member ∈ family) :
    member.diagnostic.key.timestamp.FourDigitYear := by
  obtain ⟨decoded, -, -, -, alone, -⟩ := demultiplexed
  have output := alone member inFamily ⟨id, fun _ => .rfl⟩
  rw [member.decodeEntries_of_all _ (.refl _)] at output
  cases outcome : member.decoded with
  | ok diagnostic => exact Emission.fourDigitYear_of_decoded rfc3339 outcome
  | error error =>
      rw [outcome] at output
      cases records : member.records with
      | nil => exact absurd records member.records_ne_nil
      | cons record rest => simp [records] at output

/-! ## Members in the pool -/

variable {family : List (Emission crates)} {unrelated pool : List (Text × Text)}

/-- Of the mixed records, those in the group of a member's base key are its own. -/
theorem membersOf_mixed (distinct : (family.map Emission.baseKey).Nodup)
    (outside : ∀ record ∈ unrelated, Unrelated record)
    (mixed : pool.Perm (family.flatMap Emission.records ++ unrelated))
    {member : Emission crates} (inFamily : member ∈ family) :
    (Grouping.membersOf (recordGroup crates) pool member.baseKey).Perm member.records := by
  have noOthers :
      Grouping.membersOf (recordGroup crates) unrelated member.baseKey = [] := by
    apply Grouping.membersOf_eq_nil
    intro record inUnrelated
    simp [(outside record inUnrelated).recordGroup_eq crates]
  have own := Grouping.membersOf_flatMap (recordGroup crates) distinct
    (fun source _ record => Emission.recordGroup_of_mem) inFamily
  have regrouped := Grouping.membersOf_perm (recordGroup crates) mixed member.baseKey
  rw [Grouping.membersOf_append, own, noOthers, List.append_nil] at regrouped
  exact regrouped

theorem ungrouped_mixed (outside : ∀ record ∈ unrelated, Unrelated record)
    (mixed : pool.Perm (family.flatMap Emission.records ++ unrelated)) :
    (Grouping.ungrouped (recordGroup crates) pool).Perm unrelated := by
  have noMembers :
      Grouping.ungrouped (recordGroup crates) (family.flatMap Emission.records) = [] := by
    apply List.filter_eq_nil_iff.mpr
    intro record inFamily
    obtain ⟨member, -, own⟩ := List.mem_flatMap.mp inFamily
    simp [Emission.recordGroup_of_mem own]
  have allOthers : Grouping.ungrouped (recordGroup crates) unrelated = unrelated := by
    apply List.filter_eq_self.mpr
    intro record inUnrelated
    simp [(outside record inUnrelated).recordGroup_eq crates]
  have regrouped := mixed.filter fun record => (recordGroup crates record).isNone
  rw [List.filter_append] at regrouped
  unfold Grouping.ungrouped at noMembers allOthers ⊢
  rw [noMembers, allOthers] at regrouped
  exact regrouped

/-- The position that the reader keeps for a group is that of its first record. -/
theorem firstPosition_of_head {base : Text} {records : List (Text × Text)} {position : Nat}
    (own : (Grouping.membersOf (recordGroup crates) pool base).Perm records)
    (first : (chunksOf crates pool.zipIdx base).head?.map Chunk.position = some position) :
    FirstPosition pool records position := by
  rw [head_position_eq] at first
  have increasing :
      (Grouping.membersOf (groupKey crates) pool.zipIdx base).Pairwise (·.2 < ·.2) :=
    members_increasing (zipIdx_increasing pool) base
  cases members : Grouping.membersOf (groupKey crates) pool.zipIdx base with
  | nil => simp [members] at first
  | cons head tail =>
      rw [members] at increasing
      have samePosition : head.2 = position := by simpa [members] using first
      have headMember : head ∈ Grouping.membersOf (groupKey crates) pool.zipIdx base := by
        simp [members]
      obtain ⟨headInPool, headGroup⟩ := (Grouping.mem_membersOf _).mp headMember
      have headStored := List.mem_zipIdx_iff_getElem?.mp headInPool
      constructor
      · refine ⟨head.1, own.mem_iff.mp ?_, samePosition ▸ headStored⟩
        exact (Grouping.mem_membersOf _).mpr ⟨List.mem_of_getElem? headStored, headGroup⟩
      · intro later record stored inRecords
        have grouped := ((Grouping.mem_membersOf _).mp (own.mem_iff.mpr inRecords)).2
        have laterMember :
            (record, later) ∈ Grouping.membersOf (groupKey crates) pool.zipIdx base :=
          (Grouping.mem_membersOf _).mpr
            ⟨List.mem_zipIdx_iff_getElem?.mpr stored, grouped⟩
        rw [members] at laterMember
        cases List.mem_cons.mp laterMember with
        | inl same => exact Nat.le_of_eq (samePosition ▸ congrArg Prod.snd same.symm)
        | inr behind =>
            rw [← samePosition]
            exact Nat.le_of_lt ((List.pairwise_cons.mp increasing).1 _ behind)

theorem chunksOf_head_isSome {emission : Emission crates}
    (own : (Grouping.membersOf (recordGroup crates) pool emission.baseKey).Perm
      emission.records) :
    ∃ position,
      (chunksOf crates pool.zipIdx emission.baseKey).head?.map Chunk.position =
        some position := by
  cases chunks : chunksOf crates pool.zipIdx emission.baseKey with
  | nil =>
      rw [← chunksOf_records, chunks] at own
      exact absurd own.symm.eq_nil emission.records_ne_nil
  | cons first rest => exact ⟨first.position, rfl⟩

theorem contribution_of_unrelated {numbered : List Numbered} {record : Numbered}
    (other : Unrelated record.1) :
    contribution crates numbered record = [(record.2, .raw record.raw)] := by
  unfold contribution
  rw [other.placeRecord_eq crates]
  rfl

theorem map_fst_ungrouped (pool : List (Text × Text)) :
    (Grouping.ungrouped (groupKey crates) pool.zipIdx).map Prod.fst =
      Grouping.ungrouped (recordGroup crates) pool := by
  unfold Grouping.ungrouped
  conv_rhs => rw [← List.zipIdx_map_fst 0 pool, List.filter_map]
  rfl

/-- A record of the pool is a member's, in the group of its base key, or is unrelated. -/
theorem member_or_unrelated (outside : ∀ record ∈ unrelated, Unrelated record)
    (mixed : pool.Perm (family.flatMap Emission.records ++ unrelated)) {record : Numbered}
    (inPool : record ∈ pool.zipIdx) :
    (∃ member ∈ family, groupKey crates record = some member.baseKey) ∨ Unrelated record.1 := by
  have inMixed := mixed.mem_iff.mp (List.fst_mem_of_mem_zipIdx inPool)
  cases List.mem_append.mp inMixed with
  | inl inMembers =>
      obtain ⟨member, inFamily, ownRecord⟩ := List.mem_flatMap.mp inMembers
      exact .inl ⟨member, inFamily, Emission.recordGroup_of_mem ownRecord⟩
  | inr inUnrelated => exact .inr (outside _ inUnrelated)

theorem mem_baseKeys_of_groupKey (outside : ∀ record ∈ unrelated, Unrelated record)
    (mixed : pool.Perm (family.flatMap Emission.records ++ unrelated)) {record : Numbered}
    (inPool : record ∈ pool.zipIdx) {base : Text}
    (grouped : groupKey crates record = some base) : base ∈ family.map Emission.baseKey := by
  cases member_or_unrelated outside mixed inPool with
  | inl owned =>
      obtain ⟨member, inFamily, own⟩ := owned
      have sameGroup := Option.some.inj (own.symm.trans grouped)
      exact sameGroup ▸ List.mem_map_of_mem inFamily
  | inr alone =>
      have ungrouped := alone.recordGroup_eq crates
      exact absurd (ungrouped.symm.trans grouped) (by simp)

theorem unrelated_of_ungrouped (outside : ∀ record ∈ unrelated, Unrelated record)
    (mixed : pool.Perm (family.flatMap Emission.records ++ unrelated)) {record : Numbered}
    (ungrouped : record ∈ Grouping.ungrouped (groupKey crates) pool.zipIdx) :
    Unrelated record.1 := by
  obtain ⟨inPool, alone⟩ := (Grouping.mem_ungrouped _).mp ungrouped
  cases member_or_unrelated outside mixed inPool with
  | inl owned =>
      obtain ⟨member, -, own⟩ := owned
      exact absurd (own.symm.trans alone) (by simp)
  | inr unrelatedRecord => exact unrelatedRecord

/-- The records contribute one diagnostic for each member and every unrelated record. -/
theorem contributions_perm {decoded : Emission crates → Diagnostic}
    {first : Emission crates → Nat} (distinct : (family.map Emission.baseKey).Nodup)
    (outside : ∀ record ∈ unrelated, Unrelated record)
    (mixed : pool.Perm (family.flatMap Emission.records ++ unrelated))
    (decodes : ∀ member ∈ family, member.decoded = .ok (decoded member))
    (head : ∀ member ∈ family,
      (chunksOf crates pool.zipIdx member.baseKey).head?.map Chunk.position =
        some (first member)) :
    (pool.zipIdx.flatMap (contribution crates pool.zipIdx)).Perm
      (family.map (fun member => (first member, .diagnostic (decoded member))) ++
        (Grouping.ungrouped (groupKey crates) pool.zipIdx).map
          fun record => (record.2, .raw record.raw)) := by
  have regrouped := Grouping.perm_ungrouped_append_members (groupKey crates) distinct
    fun record inPool base => mem_baseKeys_of_groupKey outside mixed inPool
  apply (regrouped.flatMap_right _).trans
  rw [List.flatMap_append]
  apply List.perm_append_comm.trans
  apply List.Perm.of_eq
  congr 1
  · rw [List.flatMap_map, List.flatMap_assoc, List.map_eq_flatMap]
    apply List.flatMap_congr
    intro member inFamily
    apply flatMap_contribution_of_decoded (zipIdx_increasing pool) _ (head member inFamily)
    rw [member.groupResult_of_all (membersOf_mixed distinct outside mixed inFamily),
      decodes member inFamily]
  · rw [List.map_eq_flatMap]
    apply List.flatMap_congr
    intro record ungrouped
    exact contribution_of_unrelated (unrelated_of_ungrouped outside mixed ungrouped)

/-- Whatever is mixed into the pool, each decodable member has its own diagnostic at
its own place. -/
theorem demultiplexed_of_decoded {decoded : Emission crates → Diagnostic}
    (distinct : (family.map Emission.baseKey).Nodup)
    (outside : ∀ record ∈ unrelated, Unrelated record)
    (mixed : pool.Perm (family.flatMap Emission.records ++ unrelated))
    (decodes : ∀ member ∈ family, member.decoded = .ok (decoded member)) :
    Demultiplexed crates family unrelated pool := by
  have own : ∀ member ∈ family,
      (Grouping.membersOf (recordGroup crates) pool member.baseKey).Perm member.records :=
    fun member inFamily => membersOf_mixed distinct outside mixed inFamily
  let first : Emission crates → Nat := fun member =>
    ((chunksOf crates pool.zipIdx member.baseKey).head?.map Chunk.position).getD 0
  have head : ∀ member ∈ family,
      (chunksOf crates pool.zipIdx member.baseKey).head?.map Chunk.position =
        some (first member) := by
    intro member inFamily
    obtain ⟨position, found⟩ := chunksOf_head_isSome (own member inFamily)
    simp only [first, found, Option.getD_some]
  refine ⟨decoded, first, Grouping.ungrouped (groupKey crates) pool.zipIdx,
    pool.zipIdx.flatMap (contribution crates pool.zipIdx), ?_, ?_, ?_, ?_, ?_, ?_, ?_⟩
  · intro member inFamily order
    rw [member.decodeEntries_of_all order (.refl _), decodes member inFamily]
  · intro member inFamily
    exact firstPosition_of_head (own member inFamily) (head member inFamily)
  · rw [map_fst_ungrouped]
    exact ungrouped_mixed outside mixed
  · intro record member
    exact List.mem_zipIdx_iff_getElem?.mp ((Grouping.mem_ungrouped _).mp member).1
  · exact contributions_perm distinct outside mixed decodes head
  · exact Grouping.flatMap_pairwise_position Prod.snd _ (zipIdx_increasing pool)
      (fun record _ => (contribution_own crates pool.zipIdx record).2)
      (fun record _ => (contribution_own crates pool.zipIdx record).1)
  · exact fun order => decodeEntries_eq crates order pool

end

/-- Mixed diagnostics are told apart exactly when all their timestamps have years of
four digits. -/
theorem mixed_diagnostics_are_demultiplexed_iff (crates : Crates) (rfc3339 : crates.Rfc3339)
    (codecs : crates.Codecs) (family : List (Emission crates))
    (unrelated pool : List (Text × Text))
    (distinct : (family.map Emission.baseKey).Nodup)
    (outside : ∀ record ∈ unrelated, Unrelated record)
    (mixed : pool.Perm (family.flatMap Emission.records ++ unrelated)) :
    Demultiplexed crates family unrelated pool ↔
      ∀ member ∈ family, member.diagnostic.key.timestamp.FourDigitYear := by
  constructor
  · intro demultiplexed member inFamily
    exact demultiplexed.fourDigitYear rfc3339 inFamily
  · intro fourDigits
    have decodes : ∀ member : Emission crates, ∃ diagnostic,
        member ∈ family → member.decoded = .ok diagnostic := by
      intro member
      by_cases inFamily : member ∈ family
      · obtain ⟨diagnostic, decoded⟩ :=
          Emission.decoded_of_fourDigitYear rfc3339 codecs (fourDigits member inFamily)
        exact ⟨diagnostic, fun _ => decoded⟩
      · exact ⟨member.diagnostic, fun inFamily' => absurd inFamily' inFamily⟩
    obtain ⟨decoded, decodes⟩ := Classical.axiomOfChoice decodes
    exact demultiplexed_of_decoded distinct outside mixed decodes

/-! ## Two writers and another program's record -/

def startEmission : Emission ReferenceCrates.reference where
  diagnostic := startDiagnostic
  timestampPrecision := .millis
  durationPrecision := .micros
  maxNameBytes := defaultMaxNameBytes
  records := startRecords
  prepared := prepareRecords_startDiagnostic

def otherKey : DiagnosticKey :=
  { startKey with eventId := "11111111-2222-3333-4444-555555555555".toList }

def otherRecords : List (Text × Text) :=
  [("DIAG|azure-init/0.1.1|3f2504e0-4f89-41d3-9a0c-0305e82c3301|event|provision:run|11111111-2222-3333-4444-555555555555|2026-08-31T12:34:56.789Z|none|||0".toList,
    "running".toList)]

def otherEmission : Emission ReferenceCrates.reference where
  diagnostic := .event
    { key := otherKey, payload := .text "running".toList, result := none, duration := none }
  timestampPrecision := .millis
  durationPrecision := .micros
  maxNameBytes := defaultMaxNameBytes
  records := otherRecords
  prepared := by decide +kernel

def hostRecord : Text × Text := ("HostName".toList, "node".toList)

theorem hostRecord_unrelated : Unrelated hostRecord where
  notDiag := by decide
  notCloudInit := by decide
  notLaterVersion := by decide
  notReport := by decide

theorem twoWriters_mixed :
    (otherRecords ++ hostRecord :: startRecords).Perm
      ([startEmission, otherEmission].flatMap Emission.records ++ [hostRecord]) := by
  have turned := @List.perm_append_comm _ (otherRecords ++ [hostRecord]) startRecords
  simpa [startEmission, otherEmission] using turned

theorem mixed_diagnostics_are_demultiplexed_iff_twoWriters :
    Demultiplexed ReferenceCrates.reference [startEmission, otherEmission] [hostRecord]
        (otherRecords ++ hostRecord :: startRecords) ↔
      ∀ member ∈ [startEmission, otherEmission],
        member.diagnostic.key.timestamp.FourDigitYear :=
  mixed_diagnostics_are_demultiplexed_iff ReferenceCrates.reference
    ReferenceCrates.reference_rfc3339 ReferenceCrates.reference_codecs
    [startEmission, otherEmission] [hostRecord] (otherRecords ++ hostRecord :: startRecords)
    (by decide +kernel) (by simpa using hostRecord_unrelated) twoWriters_mixed

/-! ## A timestamp that is written and not read -/

def expandedTime : DateTime where
  year := 10000
  month := 1
  day := 1
  hour := 0
  minute := 0
  second := 0
  nanosecond := 0
  validMonth := by decide
  validDay := by decide
  validTime := by decide
  validNanosecond := by decide

def expandedRecords : List (Text × Text) :=
  [("DIAG|azure-init/0.1.1|3f2504e0-4f89-41d3-9a0c-0305e82c3301|start|provision:run|8f3e9c4a-1b2c-4d5e-9f01-234567890abc|+10000-01-01T00:00:00.000Z|none|||0".toList,
    "starting".toList)]

def expandedEmission : Emission ReferenceCrates.reference where
  diagnostic := .start
    { key := { startKey with timestamp := expandedTime }
      payload := .text "starting".toList }
  timestampPrecision := .millis
  durationPrecision := .micros
  maxNameBytes := defaultMaxNameBytes
  records := expandedRecords
  prepared := by decide +kernel

theorem expandedEmission_not_fourDigitYear :
    ¬ expandedEmission.diagnostic.key.timestamp.FourDigitYear := by
  rintro ⟨-, atMost⟩
  exact absurd atMost (by decide)

theorem expandedEmission_is_not_demultiplexed :
    ([expandedEmission].map Emission.baseKey).Nodup ∧
      expandedRecords.Perm ([expandedEmission].flatMap Emission.records ++ []) ∧
      ¬ Demultiplexed ReferenceCrates.reference [expandedEmission] [] expandedRecords := by
  refine ⟨List.nodup_singleton _, .refl _, ?_⟩
  intro demultiplexed
  exact expandedEmission_not_fourDigitYear
    (demultiplexed.fourDigitYear ReferenceCrates.reference_rfc3339 List.mem_cons_self)

end AzureInit.Diagnostics
