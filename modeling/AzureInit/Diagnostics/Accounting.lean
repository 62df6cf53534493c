import AzureInit.Diagnostics.ReaderProperties

/-! The reader loses no record and invents none: every entry of its output accounts
for certain records of the pool, and every record is accounted for once. -/

set_option autoImplicit false

namespace AzureInit.Diagnostics

open Foundation

/-- An entry of the output with the positions of the records it was made from. -/
inductive Account where
  | raw (position : Nat) (record : RawKeyValue)
  | report (position : Nat) (report : ProvisioningReport)
  | single (position : Nat) (diagnostic : Diagnostic)
  | group (base : Text) (firstPosition : Nat) (laterPositions : List Nat)
      (diagnostic : Diagnostic)

namespace Account

def entry : Account → Entry
  | .raw _ kept => .raw kept
  | .report _ parsed => .report parsed
  | .single _ decoded => .diagnostic decoded
  | .group _ _ _ decoded => .diagnostic decoded

/-- The position that orders the entry. -/
def position : Account → Nat
  | .raw own _ => own
  | .report own _ => own
  | .single own _ => own
  | .group _ first _ _ => first

def positions : Account → List Nat
  | .raw own _ => [own]
  | .report own _ => [own]
  | .single own _ => [own]
  | .group _ first later _ => first :: later

end Account

/-- The positions of the records that belong to the group of a base key. -/
def positionsOf (crates : Crates) (records : List (Text × Text)) (base : Text) : List Nat :=
  (chunksOf crates records.zipIdx base).map Chunk.position

/-- The entry is what the records at its positions say. -/
def Account.Justified (crates : Crates) (records : List (Text × Text)) : Account → Prop
  | .raw own kept => records[own]? = some (kept.key, kept.value)
  | .report own parsed =>
      ∃ value, records[own]? = some (provisioningReportKey, value) ∧
        ProvisioningReport.fromStr crates value = .ok parsed
  | .single own decoded =>
      ∃ key value base, records[own]? = some (key, value) ∧
        Delimited.firstField '|' key = CloudInit.keyPrefix ∧
        CloudInit.splitKey crates key = .ok (base, none) ∧
        CloudInit.decodeSingle crates base value = .ok decoded
  | .group base first later decoded =>
      first :: later = positionsOf crates records base ∧
        groupResult crates records.zipIdx base = .ok decoded

/-- The account of a record outside every group. -/
def Account.ofEntry (own : Nat) : Entry → Account
  | .raw kept => .raw own kept
  | .report parsed => .report own parsed
  | .diagnostic decoded => .single own decoded

/-- The account that stands at a record's own position. -/
def accountsAt (crates : Crates) (records : List (Text × Text)) (record : Numbered) :
    List Account :=
  match placeRecord crates record.1 with
  | .entry entry => [Account.ofEntry record.2 entry]
  | .chunk base _ =>
      match groupResult crates records.zipIdx base with
      | .ok diagnostic =>
          if (chunksOf crates records.zipIdx base).head?.map Chunk.position =
              some record.2 then
            [.group base record.2 (positionsOf crates records base).tail diagnostic]
          else []
      | .error error => [.raw record.2 (record.raw.withError error)]

theorem contribution_eq_map_accountsAt (crates : Crates) (records : List (Text × Text))
    (record : Numbered) :
    contribution crates records.zipIdx record =
      (accountsAt crates records record).map fun account =>
        (account.position, account.entry) := by
  unfold contribution accountsAt
  cases placeRecord crates record.1 with
  | entry entry => cases entry <;> rfl
  | chunk base index =>
      dsimp only
      cases groupResult crates records.zipIdx base with
      | ok diagnostic =>
          dsimp only
          split <;> rfl
      | error error => rfl

theorem placeParsed_eq_entry {crates : Crates} {raw : RawKeyValue}
    {parsed : Except DecodeError (Text × Option UInt64)} {entry : Entry}
    (placed : placeParsed crates raw parsed = .entry entry) :
    (∃ error, entry = .raw (raw.withError error)) ∨
      ∃ base diagnostic, entry = .diagnostic diagnostic ∧ parsed = .ok (base, none) ∧
        CloudInit.decodeSingle crates base raw.value = .ok diagnostic := by
  unfold placeParsed at placed
  split at placed
  · cases placed
  · rename_i base
    split at placed
    · rename_i diagnostic decoded
      cases placed
      exact .inr ⟨base, diagnostic, rfl, rfl, decoded⟩
    · rename_i error _
      cases placed
      exact .inl ⟨error, rfl⟩
  · rename_i error
    cases placed
    exact .inl ⟨error, rfl⟩

/-- A record outside every group is kept as it is or decoded by itself. -/
theorem justified_ofEntry {crates : Crates} {records : List (Text × Text)}
    {record : Text × Text} {position : Nat} {entry : Entry}
    (stored : records[position]? = some record)
    (placed : placeRecord crates record = .entry entry) :
    (Account.ofEntry position entry).Justified crates records := by
  obtain ⟨key, value⟩ := record
  have kept : ∀ error, (Account.ofEntry position
      (.raw ⟨key, value, error⟩)).Justified crates records := fun _ => stored
  have keptOr : ∀ {parsed}, placeParsed crates ⟨key, value, none⟩ parsed = .entry entry →
      (∀ base diagnostic, entry = .diagnostic diagnostic → parsed = .ok (base, none) →
        CloudInit.decodeSingle crates base value = .ok diagnostic →
        (Account.ofEntry position entry).Justified crates records) →
      (Account.ofEntry position entry).Justified crates records := by
    intro parsed placed single
    rcases placeParsed_eq_entry placed with ⟨error, rfl⟩ | ⟨base, diagnostic, same, found, decoded⟩
    · exact kept _
    · exact single base diagnostic same found decoded
  unfold placeRecord at placed
  dsimp only at placed
  split at placed
  · apply keptOr placed
    intro base diagnostic _ parsed _
    cases split : splitChunkKey key with
    | error error =>
        rw [split] at parsed
        cases parsed
    | ok parts =>
        rw [split] at parsed
        cases parsed
  · split at placed
    · rename_i fromCloudInit
      apply keptOr placed
      rintro base diagnostic rfl parsed decoded
      exact ⟨key, value, base, stored, beq_iff_eq.mp fromCloudInit, parsed, decoded⟩
    · split at placed
      · rename_i isReport
        split at placed
        · rename_i report parsed
          cases placed
          rw [Bool.and_eq_true, beq_iff_eq, beq_iff_eq] at isReport
          exact ⟨value, by rw [stored, isReport.2], parsed⟩
        · cases placed
          exact kept _
      · split at placed
        · apply keptOr placed
          intro base diagnostic _ parsed _
          cases parsed
        · cases placed
          exact kept _

theorem accountsAt_justified {crates : Crates} {records : List (Text × Text)}
    {record : Numbered} (member : record ∈ records.zipIdx) {account : Account}
    (made : account ∈ accountsAt crates records record) :
    account.Justified crates records := by
  have stored : records[record.2]? = some record.1 :=
    List.mem_zipIdx_iff_getElem?.mp member
  unfold accountsAt at made
  split at made
  · rename_i entry placed
    cases List.mem_singleton.mp made
    exact justified_ofEntry stored placed
  · rename_i base index placed
    split at made
    · rename_i diagnostic decoded
      split at made
      · rename_i first
        cases List.mem_singleton.mp made
        refine ⟨?_, decoded⟩
        unfold positionsOf
        cases chunks : chunksOf crates records.zipIdx base with
        | nil => simp [chunks] at first
        | cons head rest =>
            simp only [chunks, List.head?_cons, Option.map_some, Option.some.injEq] at first
            simp [first]
      · cases made
    · cases List.mem_singleton.mp made
      exact stored

theorem accountsAt_of_grouped {crates : Crates} {records : List (Text × Text)}
    {record : Numbered} {base : Text} (grouped : groupKey crates record = some base) :
    accountsAt crates records record =
      match groupResult crates records.zipIdx base with
      | .ok diagnostic =>
          if (chunksOf crates records.zipIdx base).head?.map Chunk.position =
              some record.2 then
            [.group base record.2 (positionsOf crates records base).tail diagnostic]
          else []
      | .error error => [.raw record.2 (record.raw.withError error)] := by
  obtain ⟨index, placed⟩ := groupKey_eq_some grouped
  simp [accountsAt, placed]

theorem positions_of_ungrouped {crates : Crates} {records : List (Text × Text)}
    {record : Numbered} (ungrouped : groupKey crates record = none) :
    (accountsAt crates records record).flatMap Account.positions = [record.2] := by
  unfold groupKey recordGroup at ungrouped
  unfold accountsAt
  cases placed : placeRecord crates record.1 with
  | entry entry => cases entry <;> rfl
  | chunk base index => simp [placed] at ungrouped

/-- The members of a group are accounted for by its entries, each once. -/
theorem positions_of_members (crates : Crates) (records : List (Text × Text))
    (base : Text) :
    ((Grouping.membersOf (groupKey crates) records.zipIdx base).flatMap fun record =>
        (accountsAt crates records record).flatMap Account.positions) =
      (Grouping.membersOf (groupKey crates) records.zipIdx base).map Prod.snd := by
  have grouped : ∀ record ∈ Grouping.membersOf (groupKey crates) records.zipIdx base,
      groupKey crates record = some base := fun record member =>
    ((Grouping.mem_membersOf _).mp member).2
  have samePositions : positionsOf crates records base =
      (Grouping.membersOf (groupKey crates) records.zipIdx base).map Prod.snd := by
    unfold positionsOf chunksOf
    rw [List.map_map]
    rfl
  cases outcome : groupResult crates records.zipIdx base with
  | error error =>
      rw [List.map_eq_flatMap]
      apply List.flatMap_congr
      intro record member
      rw [accountsAt_of_grouped (grouped record member), outcome]
      rfl
  | ok diagnostic =>
      cases first : (Grouping.membersOf (groupKey crates) records.zipIdx base).head?.map
          Prod.snd with
      | none =>
          have empty : Grouping.membersOf (groupKey crates) records.zipIdx base = [] := by
            simpa using first
          rw [empty]
          rfl
      | some position =>
          rw [← Grouping.flatMap_at_head Prod.snd
            (members_increasing (zipIdx_increasing records) base) first
            ((Grouping.membersOf (groupKey crates) records.zipIdx base).map Prod.snd)]
          apply List.flatMap_congr
          intro record member
          rw [accountsAt_of_grouped (grouped record member), outcome, head_position_eq, first]
          simp only [Option.some.injEq]
          split
          · rename_i samePosition
            have headed : positionsOf crates records base =
                record.2 :: (positionsOf crates records base).tail := by
              rw [samePositions, ← samePosition]
              apply List.eq_cons_of_mem_head?
              rw [List.head?_map, first]
              rfl
            simp only [List.flatMap_cons, List.flatMap_nil, List.append_nil,
              Account.positions]
            rw [← headed, samePositions]
          · rfl

/-- Every record is accounted for exactly once, in one possible order of entries. -/
theorem decodeEntries_accounts_for_every_record (crates : Crates)
    (records : List (Text × Text)) :
    ∃ accounts : List Account,
      (∀ order : HashOrder, decodeEntries crates order records = accounts.map Account.entry) ∧
      (∀ account ∈ accounts, account.Justified crates records) ∧
      (accounts.flatMap Account.positions).Perm (List.range records.length) ∧
      accounts.Pairwise (fun earlier later => earlier.position < later.position) ∧
      ∀ (base : Text) (error : DecodeError),
        groupResult crates records.zipIdx base = .error error →
          ∀ position ∈ positionsOf crates records base, ∃ key value,
            records[position]? = some (key, value) ∧
              .raw position { key, value, error := some error } ∈ accounts := by
  refine ⟨records.zipIdx.flatMap (accountsAt crates records), ?_, ?_, ?_, ?_, ?_⟩
  · intro order
    rw [decodeEntries_eq]
    simp only [contribution_eq_map_accountsAt, List.map_flatMap, List.map_map]
    rfl
  · intro account member
    obtain ⟨record, inPool, made⟩ := List.mem_flatMap.mp member
    exact accountsAt_justified inPool made
  · rw [List.flatMap_assoc, List.range_eq_range', ← List.zipIdx_map_snd 0 records,
      List.map_eq_flatMap]
    apply Grouping.flatMap_perm_flatMap (groupKey crates)
    · exact fun record _ ungrouped => positions_of_ungrouped ungrouped
    · intro base
      rw [positions_of_members, List.map_eq_flatMap]
  · have ordered := Grouping.flatMap_pairwise_position Prod.snd
      (contribution crates records.zipIdx) (zipIdx_increasing records)
      (fun record _ => (contribution_own crates records.zipIdx record).2)
      (fun record _ => (contribution_own crates records.zipIdx record).1)
    have sameOutput : contribution crates records.zipIdx = fun record =>
        (accountsAt crates records record).map fun account =>
          (account.position, account.entry) :=
      funext (contribution_eq_map_accountsAt crates records)
    rw [sameOutput, ← List.map_flatMap, List.pairwise_map] at ordered
    exact ordered
  · intro base error failed position member
    unfold positionsOf chunksOf at member
    rw [List.map_map, List.mem_map] at member
    obtain ⟨record, inGroup, rfl⟩ := member
    obtain ⟨inPool, grouped⟩ := (Grouping.mem_membersOf _).mp inGroup
    refine ⟨record.1.1, record.1.2, List.mem_zipIdx_iff_getElem?.mp inPool, ?_⟩
    apply List.mem_flatMap.mpr
    refine ⟨record, inPool, ?_⟩
    rw [accountsAt_of_grouped grouped, failed]
    exact List.mem_singleton.mpr rfl

end AzureInit.Diagnostics
