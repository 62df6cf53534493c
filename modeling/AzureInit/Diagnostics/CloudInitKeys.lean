import AzureInit.Diagnostics.CloudInitReassembly
import AzureInit.Foundation.FallibleState

/-! The keys of cloud-init. Four layouts are told apart: a key has a VM identity or not,
and a chunk index or not. -/

set_option autoImplicit false

namespace AzureInit.Diagnostics

open Foundation
open Foundation.Fallible

/-! ## UUIDs -/

/-- The 36 characters of a UUID with hyphens. -/
def IsHyphenated (text : Text) : Prop :=
  ∃ fields : List Text, fields.map List.length = [8, 4, 4, 4, 12] ∧
    (∀ field ∈ fields, field.all ReferenceCrates.isHexDigit = true) ∧
    text = ['-'].intercalate fields

inductive IsUuidText : Text → Prop where
  | simple {text : Text} : text.length = 32 → text.all ReferenceCrates.isHexDigit = true →
      IsUuidText text
  | hyphenated {text : Text} : IsHyphenated text → IsUuidText text
  | braced {text : Text} : IsHyphenated text → IsUuidText ('\x7b' :: text ++ ['\x7d'])
  | urn {text : Text} : IsHyphenated text → IsUuidText ("urn:uuid:".toList ++ text)

/-- Exactly these forms are parsed. -/
structure Crates.UuidForms (crates : Crates) : Prop where
  parseUuid_iff : ∀ text : Text, crates.parseUuid text = true ↔ IsUuidText text

theorem IsHyphenated.length {text : Text} (hyphenated : IsHyphenated text) :
    32 ≤ text.length := by
  obtain ⟨fields, lengths, -, rfl⟩ := hyphenated
  have total := Delimited.sum_length_le_intercalate '-' fields
  rw [lengths] at total
  exact total

theorem IsHyphenated.absent {text : Text} (hyphenated : IsHyphenated text) {c : Char}
    (notHex : ReferenceCrates.isHexDigit c = false) (notHyphen : c ≠ '-') : c ∉ text := by
  obtain ⟨fields, -, hex, rfl⟩ := hyphenated
  apply Delimited.not_mem_intercalate notHyphen
  intro field member inField
  rw [List.all_eq_true.mp (hex field member) c inField] at notHex
  cases notHex

theorem IsUuidText.length {text : Text} (isUuid : IsUuidText text) : 32 ≤ text.length := by
  cases isUuid with
  | simple length _ => omega
  | hyphenated hyphenated => exact hyphenated.length
  | braced hyphenated =>
      have inside := hyphenated.length
      simp only [List.length_append, List.length_cons]
      omega
  | urn hyphenated =>
      have inside := hyphenated.length
      simp only [List.length_append]
      omega

theorem IsUuidText.ne_nil {text : Text} (isUuid : IsUuidText text) : text ≠ [] := by
  intro empty
  have length := isUuid.length
  rw [empty, List.length_nil] at length
  omega

theorem IsUuidText.absent {text : Text} (isUuid : IsUuidText text) {c : Char}
    (other : c = '|' ∨ c = '\x00') : c ∉ text := by
  have notHex : ReferenceCrates.isHexDigit c = false := by
    cases other with
    | inl bar => rw [bar]; decide
    | inr nul => rw [nul]; decide
  have notSpecial : c ≠ '-' ∧ c ∉ ['\x7b', '\x7d'] ∧ c ∉ "urn:uuid:".toList := by
    cases other with
    | inl bar => rw [bar]; decide
    | inr nul => rw [nul]; decide
  cases isUuid with
  | simple _ hex =>
      intro member
      rw [List.all_eq_true.mp hex c member] at notHex
      cases notHex
  | hyphenated hyphenated => exact hyphenated.absent notHex notSpecial.1
  | braced hyphenated =>
      have inside := hyphenated.absent notHex notSpecial.1
      have braces := notSpecial.2.1
      simp only [List.mem_cons, List.not_mem_nil, or_false, not_or] at braces
      simp [inside, braces]
  | urn hyphenated =>
      have inside := hyphenated.absent notHex notSpecial.1
      rw [List.mem_append, not_or]
      exact ⟨notSpecial.2.2, inside⟩

namespace CloudInit

/-! ## Rendered keys -/

/-- What a key is rendered from. -/
structure IsKey (crates : Crates) (incarnation : Text) (key : CloudInitKey) : Prop where
  incarnation : Decimal.isDigits incarnation = true
  kindGiven : key.kind ≠ []
  kindPlain : '|' ∉ key.kind ∧ '\x00' ∉ key.kind
  nameGiven : key.name ≠ []
  namePlain : '|' ∉ key.name ∧ '\x00' ∉ key.name
  vmId : ∀ vmId ∈ key.vmId, crates.parseUuid vmId = true
  eventId : crates.parseUuid key.eventId = true

def keyFields (incarnation : Text) (key : CloudInitKey) : List Text :=
  [keyPrefix, incarnation, key.kind, key.name] ++ key.vmId.toList ++ [key.eventId]

/-- The key without a chunk index. -/
def renderBase (incarnation : Text) (key : CloudInitKey) : Text :=
  ['|'].intercalate (keyFields incarnation key)

/-- The key with its chunk index, if there is one. -/
def renderKey (base : Text) : Option UInt64 → Text
  | none => base
  | some index => base ++ '|' :: Decimal.digits index.toNat

section Keys

variable {crates : Crates} (uuids : crates.UuidForms)

include uuids in
theorem IsKey.absent {incarnation : Text} {key : CloudInitKey}
    (isKey : IsKey crates incarnation key) {c : Char} (other : c = '|' ∨ c = '\x00') :
    ∀ field ∈ keyFields incarnation key, c ∉ field := by
  have notDigit : c.isDigit = false := by
    cases other with
    | inl bar => rw [bar]; decide
    | inr nul => rw [nul]; decide
  have uuid : ∀ text, crates.parseUuid text = true → c ∉ text := fun text parsed =>
    ((uuids.parseUuid_iff text).mp parsed).absent other
  intro field member
  simp only [keyFields, List.mem_append, List.mem_cons, List.not_mem_nil, or_false,
    Option.mem_toList] at member
  rcases member with ((rfl | rfl | rfl | rfl) | isVmId) | rfl
  · cases other with
    | inl bar => rw [bar]; decide
    | inr nul => rw [nul]; decide
  · exact Decimal.not_mem_of_isDigits isKey.incarnation notDigit
  · cases other with
    | inl bar => rw [bar]; exact isKey.kindPlain.1
    | inr nul => rw [nul]; exact isKey.kindPlain.2
  · cases other with
    | inl bar => rw [bar]; exact isKey.namePlain.1
    | inr nul => rw [nul]; exact isKey.namePlain.2
  · exact uuid field (isKey.vmId field isVmId)
  · exact uuid _ isKey.eventId

include uuids in
theorem IsKey.splitOn {incarnation : Text} {key : CloudInitKey}
    (isKey : IsKey crates incarnation key) :
    (renderBase incarnation key).splitOn '|' = keyFields incarnation key :=
  List.splitOn_intercalate '|' (isKey.absent uuids (.inl rfl)) (by simp [keyFields])

include uuids in
theorem IsKey.given {incarnation : Text} {key : CloudInitKey}
    (isKey : IsKey crates incarnation key) : ∀ field ∈ keyFields incarnation key, field ≠ [] := by
  have uuid : ∀ text, crates.parseUuid text = true → text ≠ [] := fun text parsed =>
    ((uuids.parseUuid_iff text).mp parsed).ne_nil
  intro field member
  simp only [keyFields, List.mem_append, List.mem_cons, List.not_mem_nil, or_false,
    Option.mem_toList] at member
  rcases member with ((rfl | rfl | rfl | rfl) | isVmId) | rfl
  · decide
  · exact (Decimal.isDigits_iff.mp isKey.incarnation).1
  · exact isKey.kindGiven
  · exact isKey.nameGiven
  · exact uuid field (isKey.vmId field isVmId)
  · exact uuid _ isKey.eventId

include uuids in
/-- A rendered key is parsed as what it was rendered from. -/
theorem IsKey.parseKey {incarnation : Text} {key : CloudInitKey}
    (isKey : IsKey crates incarnation key) :
    parseKey crates (renderBase incarnation key) = .ok key := by
  have noNul : (renderBase incarnation key).contains '\x00' = false := by
    rw [List.contains_eq_mem, decide_eq_false_iff_not]
    exact Delimited.not_mem_intercalate (by decide) (isKey.absent uuids (.inr rfl))
  have noneEmpty : (keyFields incarnation key).any List.isEmpty = false := by
    rw [List.any_eq_false]
    intro field member
    simpa using isKey.given uuids field member
  have digits := Decimal.isDigits_iff.mp isKey.incarnation
  have split := isKey.splitOn uuids
  have vmId := isKey.vmId
  have eventId := isKey.eventId
  unfold CloudInit.parseKey
  dsimp only
  rw [split, noNul, noneEmpty]
  obtain ⟨kind, name, identity, event⟩ := key
  cases identity with
  | none => simp [keyFields, bind, Except.bind, pure, Except.pure, digits.2, eventId]
  | some identity =>
      have parsed := vmId identity rfl
      simp [keyFields, bind, Except.bind, pure, Except.pure, digits.2, eventId, parsed]

omit uuids in
/-- A base whose fields pass the parser's checks is rendered from them. -/
theorem isKey_of_fields {base incarnation : Text} {key : CloudInitKey}
    (fields : base.splitOn '|' = keyFields incarnation key)
    (noNul : base.contains '\x00' = false)
    (given : (keyFields incarnation key).any List.isEmpty = false)
    (digits : incarnation.all Char.isDigit = true)
    (vmId : ∀ vmId ∈ key.vmId, crates.parseUuid vmId = true)
    (eventId : crates.parseUuid key.eventId = true) :
    IsKey crates incarnation key ∧ base = renderBase incarnation key := by
  have whole : renderBase incarnation key = base := by
    rw [renderBase, ← fields, List.intercalate_splitOn]
  have nonempty : ∀ field ∈ keyFields incarnation key, field ≠ [] := by
    intro field member
    simpa using List.any_eq_false.mp given field member
  have plain : ∀ field ∈ keyFields incarnation key, '|' ∉ field ∧ '\x00' ∉ field := by
    intro field member
    constructor
    · rw [← fields] at member
      exact Delimited.not_mem_of_mem_splitOn member
    · intro nul
      have inBase : '\x00' ∈ renderBase incarnation key := Delimited.mem_intercalate member nul
      rw [whole] at inBase
      rw [List.contains_eq_mem, decide_eq_false_iff_not] at noNul
      exact noNul inBase
  have incarnationIn : incarnation ∈ keyFields incarnation key := by simp [keyFields]
  have kindIn : key.kind ∈ keyFields incarnation key := by simp [keyFields]
  have nameIn : key.name ∈ keyFields incarnation key := by simp [keyFields]
  refine ⟨⟨?_, nonempty _ kindIn, plain _ kindIn, nonempty _ nameIn, plain _ nameIn, vmId,
    eventId⟩, whole.symm⟩
  exact Decimal.isDigits_iff.mpr ⟨nonempty _ incarnationIn, digits⟩

omit uuids in
/-- What is parsed is rendered from its parts. -/
theorem exists_of_parseKey {base : Text} {key : CloudInitKey}
    (parsed : CloudInit.parseKey crates base = .ok key) :
    ∃ incarnation, IsKey crates incarnation key ∧ base = renderBase incarnation key := by
  unfold CloudInit.parseKey at parsed
  dsimp only at parsed
  split at parsed
  · rename_i opening incarnation kind name eventId fields
    simp only [bind, Except.bind, pure, Except.pure, Option.any_none, Bool.false_eq_true,
      if_false] at parsed
    obtain ⟨accepted, parsed⟩ := ite_throw_ok parsed
    obtain ⟨isUuid, parsed⟩ := ite_throw_ok parsed
    cases parsed
    simp only [Bool.or_eq_true, bne_iff_ne, not_or, not_not, Bool.not_eq_true] at accepted
    obtain ⟨⟨⟨rfl, noNul⟩, given⟩, digits⟩ := accepted
    rw [fields] at given
    exact ⟨incarnation, isKey_of_fields fields noNul given (by simpa using digits) (by simp)
      (by simpa using isUuid)⟩
  · rename_i opening incarnation kind name vmId eventId fields
    simp only [bind, Except.bind, pure, Except.pure] at parsed
    obtain ⟨accepted, parsed⟩ := ite_throw_ok parsed
    obtain ⟨vmIdParsed, parsed⟩ := ite_throw_ok parsed
    obtain ⟨isUuid, parsed⟩ := ite_throw_ok parsed
    cases parsed
    simp only [Bool.or_eq_true, bne_iff_ne, not_or, not_not, Bool.not_eq_true] at accepted
    obtain ⟨⟨⟨rfl, noNul⟩, given⟩, digits⟩ := accepted
    rw [fields] at given
    exact ⟨incarnation, isKey_of_fields fields noNul given (by simpa using digits)
      (by simpa using vmIdParsed) (by simpa using isUuid)⟩
  · cases parsed

omit uuids in
theorem parseKey_error {base : Text} {error : DecodeError}
    (failed : CloudInit.parseKey crates base = .error error) : error = .malformed := by
  unfold CloudInit.parseKey at failed
  dsimp only at failed
  split at failed
  all_goals
    simp only [bind, Except.bind, pure, Except.pure] at failed
    first
    | cases failed
      rfl
    | split_ifs at failed <;> cases failed <;> rfl

/-- The texts of an index. Zeros may stand in front. -/
def IsIndex (text : Text) : Prop :=
  Decimal.isDigits text = true ∧ Decimal.digitsValue text < UInt64.size

/-- Whether a key with some fields ends with an index. -/
private def isIndexed? (crates : Crates) (fields : List Text) : Option Bool :=
  match fields.length with
  | 5 => some false
  | 6 => some (!crates.parseUuid (fields.getD 5 []))
  | 7 => some true
  | _ => none

private def checkBase (crates : Crates) (base : Text) (index : Option UInt64) :
    Except DecodeError (Text × Option UInt64) := do
  let _ ← CloudInit.parseKey crates base
  return (base, index)

private def cutIndex (crates : Crates) (key : Text) :
    Except DecodeError (Text × Option UInt64) := do
  let (base, index) ← okOr (Delimited.rsplitOnce? ['|'] key) .malformed
  let index ← parseUnsigned index
  checkBase crates base (some index)

omit uuids in
private theorem splitKey_eq (key : Text) :
    splitKey crates key =
      okOr (isIndexed? crates (key.splitOn '|')) DecodeError.malformed >>= fun indexed =>
        if indexed then cutIndex crates key else checkBase crates key none := by
  unfold splitKey isIndexed?
  dsimp only
  generalize crates.parseUuid ((key.splitOn '|').getD 5 []) = isUuid
  generalize (key.splitOn '|').length = count
  rcases count with _ | _ | _ | _ | _ | _ | _ | _ | count <;> cases isUuid <;> rfl

omit uuids in
private theorem checkBase_eq_ok {base front : Text} {index given : Option UInt64}
    (checked : checkBase crates front given = .ok (base, index)) :
    front = base ∧ given = index ∧ ∃ parsed, CloudInit.parseKey crates base = .ok parsed := by
  obtain ⟨parsed, accepted, built⟩ := bind_eq_ok_iff.mp checked
  cases built
  exact ⟨rfl, rfl, parsed, accepted⟩

omit uuids in
theorem exists_of_splitKey {key base : Text} {index : Option UInt64}
    (split : splitKey crates key = .ok (base, index)) :
    (∃ parsed, CloudInit.parseKey crates base = .ok parsed) ∧
      ((key = base ∧ index = none) ∨ ∃ text, key = base ++ '|' :: text ∧ IsIndex text ∧
        index = some (UInt64.ofNat (Decimal.digitsValue text))) := by
  rw [splitKey_eq] at split
  obtain ⟨indexed, -, split⟩ := bind_eq_ok_iff.mp split
  split at split
  · obtain ⟨⟨front, text⟩, cut, split⟩ := bind_eq_ok_iff.mp split
    obtain ⟨number, read, split⟩ := bind_eq_ok_iff.mp split
    obtain ⟨rfl, rfl, accepted⟩ := checkBase_eq_ok split
    rw [okOr_eq_ok_iff, Delimited.rsplitOnce?_singleton_eq_some_iff] at cut
    refine ⟨accepted, .inr ⟨text, cut.1, ?_⟩⟩
    obtain ⟨digits, value⟩ := parseUnsigned_eq_ok_iff.mp read
    rw [← value, UInt64.ofNat_toNat]
    exact ⟨⟨digits, value ▸ number.toNat_lt_size⟩, rfl⟩
  · obtain ⟨rfl, rfl, accepted⟩ := checkBase_eq_ok split
    exact ⟨accepted, .inl ⟨rfl, rfl⟩⟩

omit uuids in
theorem parseUnsigned_error {text : Text} {error : DecodeError}
    (failed : parseUnsigned text = .error error) : error = .malformed := by
  unfold parseUnsigned at failed
  split_ifs at failed <;> cases failed <;> rfl

theorem okOr_error {α : Type} {option : Option α} {error other : DecodeError}
    (failed : okOr option error = .error other) : other = error := by
  cases option with
  | none =>
      cases failed
      rfl
  | some value => cases failed

omit uuids in
private theorem checkBase_error {base : Text} {index : Option UInt64} {error : DecodeError}
    (failed : checkBase crates base index = .error error) : error = .malformed := by
  cases bind_eq_error_iff.mp failed with
  | inl parsed => exact parseKey_error parsed
  | inr built =>
      obtain ⟨_, -, built⟩ := built
      cases built

omit uuids in
/-- A key is split, or it is malformed. -/
theorem splitKey_error {key : Text} {error : DecodeError}
    (failed : splitKey crates key = .error error) : error = .malformed := by
  rw [splitKey_eq] at failed
  cases bind_eq_error_iff.mp failed with
  | inl layout => exact okOr_error layout
  | inr failed =>
      obtain ⟨indexed, -, failed⟩ := failed
      split at failed
      · cases bind_eq_error_iff.mp failed with
        | inl cut => exact okOr_error cut
        | inr failed =>
            obtain ⟨_, -, failed⟩ := failed
            cases bind_eq_error_iff.mp failed with
            | inl read => exact parseUnsigned_error read
            | inr failed =>
                obtain ⟨_, -, failed⟩ := failed
                exact checkBase_error failed
      · exact checkBase_error failed

/-- Why a key with some fields cannot be a rendered one. -/
def IsRefused (crates : Crates) (fields : List Text) : Prop :=
  fields.length ∉ [5, 6, 7] ∨
  [] ∈ fields ∨
  (fields.getD 1 []).all Char.isDigit = false ∨
  crates.parseUuid (fields.getD 4 []) = false ∨
  (fields.length = 7 ∧ crates.parseUuid (fields.getD 5 []) = false) ∨
  (fields.length = 6 ∧ crates.parseUuid (fields.getD 5 []) = false ∧
    (fields.getD 5 []).all Char.isDigit = false) ∨
  (fields.length = 7 ∧ (fields.getD 6 []).all Char.isDigit = false)

omit uuids in
theorem IsIndex.splitOn {text : Text} (isIndex : IsIndex text) (base : Text) :
    (base ++ '|' :: text).splitOn '|' = base.splitOn '|' ++ [text] := by
  have noBar : '|' ∉ text := Decimal.not_mem_of_isDigits isIndex.1 (by decide)
  rw [List.splitOn_append_cons_self, List.splitOn_eq_singleton noBar]

include uuids in
theorem IsKey.not_isRefused {incarnation : Text} {key : CloudInitKey}
    (isKey : IsKey crates incarnation key) : ¬ IsRefused crates (keyFields incarnation key) := by
  have given := isKey.given uuids
  have digits := Decimal.isDigits_iff.mp isKey.incarnation
  have vmId := isKey.vmId
  have eventId := isKey.eventId
  obtain ⟨kind, name, identity, event⟩ := key
  have noneEmpty : [] ∉ keyFields incarnation ⟨kind, name, identity, event⟩ := fun member =>
    given [] member rfl
  cases identity with
  | none => simp_all [IsRefused, keyFields]
  | some identity => simp_all [IsRefused, keyFields]

include uuids in
theorem IsKey.not_isRefused_index {incarnation text : Text} {key : CloudInitKey}
    (isKey : IsKey crates incarnation key) (isIndex : IsIndex text) :
    ¬ IsRefused crates (keyFields incarnation key ++ [text]) := by
  have given := isKey.given uuids
  have digits := Decimal.isDigits_iff.mp isKey.incarnation
  have indexDigits := Decimal.isDigits_iff.mp isIndex.1
  have vmId := isKey.vmId
  have eventId := isKey.eventId
  obtain ⟨kind, name, identity, event⟩ := key
  have noneEmpty : [] ∉ keyFields incarnation ⟨kind, name, identity, event⟩ := fun member =>
    given [] member rfl
  cases identity with
  | none => simp_all [IsRefused, keyFields]
  | some identity => simp_all [IsRefused, keyFields]

omit uuids in
/-- Any text that is not malformed is a rendered key, with an index or without one. -/
theorem malformed_or_rendered (text : Text) :
    splitKey crates text = .error .malformed ∨
      ∃ incarnation key, IsKey crates incarnation key ∧
        (text = renderBase incarnation key ∨
          ∃ number, IsIndex number ∧ text = renderBase incarnation key ++ '|' :: number) := by
  cases split : splitKey crates text with
  | error error =>
      rw [splitKey_error split]
      exact .inl rfl
  | ok parts =>
      obtain ⟨base, index⟩ := parts
      obtain ⟨⟨key, parsed⟩, shape⟩ := exists_of_splitKey split
      obtain ⟨incarnation, isKey, rfl⟩ := exists_of_parseKey parsed
      refine .inr ⟨incarnation, key, isKey, ?_⟩
      cases shape with
      | inl plain => exact .inl plain.1
      | inr indexed =>
          obtain ⟨number, rfl, isIndex, -⟩ := indexed
          exact .inr ⟨number, isIndex, rfl⟩

include uuids in
theorem IsKey.splitKey_renderKey {incarnation : Text} {key : CloudInitKey}
    (isKey : IsKey crates incarnation key) (index : Option UInt64) :
    splitKey crates (renderKey (renderBase incarnation key) index) =
      .ok (renderBase incarnation key, index) := by
  have parsed := isKey.parseKey uuids
  cases index with
  | none => exact splitKey_base parsed
  | some index =>
      exact splitKey_chunkKey (fun text isUuid => ((uuids.parseUuid_iff text).mp isUuid).length)
        parsed index

end Keys

/-- Rendered keys give back what they were rendered from, so that no two of them are the
same, and any other key is malformed. -/
theorem key_layouts_are_unambiguous {crates : Crates} (uuids : crates.UuidForms) :
    (∀ (incarnation : Text) (key : CloudInitKey) (index : Option UInt64),
      IsKey crates incarnation key →
        splitKey crates (renderKey (renderBase incarnation key) index) =
          .ok (renderBase incarnation key, index) ∧
        parseKey crates (renderBase incarnation key) = .ok key) ∧
    (∀ (incarnation other : Text) (key otherKey : CloudInitKey) (index otherIndex : Option UInt64),
      IsKey crates incarnation key → IsKey crates other otherKey →
        renderKey (renderBase incarnation key) index = renderKey (renderBase other otherKey) otherIndex →
          incarnation = other ∧ key = otherKey ∧ index = otherIndex) ∧
    (∀ text : Text, IsRefused crates (text.splitOn '|') →
      splitKey crates text = .error .malformed) ∧
    ∀ text : Text, splitKey crates text = .error .malformed ∨
      ∃ incarnation key, IsKey crates incarnation key ∧
        (text = renderBase incarnation key ∨
          ∃ number, IsIndex number ∧ text = renderBase incarnation key ++ '|' :: number) := by
  refine ⟨?_, ?_, ?_, malformed_or_rendered⟩
  · intro incarnation key index isKey
    exact ⟨isKey.splitKey_renderKey uuids index, isKey.parseKey uuids⟩
  · intro incarnation other key otherKey index otherIndex isKey isOther same
    have split := isKey.splitKey_renderKey uuids index
    rw [same, isOther.splitKey_renderKey uuids otherIndex] at split
    obtain ⟨sameBase, sameIndex⟩ := Prod.mk.inj (Except.ok.inj split)
    have parsed := isKey.parseKey uuids
    rw [← sameBase, isOther.parseKey uuids] at parsed
    have fields := isKey.splitOn uuids
    rw [← sameBase, isOther.splitOn uuids] at fields
    simp only [keyFields, List.cons_append, List.cons.injEq] at fields
    exact ⟨fields.2.1.symm, (Except.ok.inj parsed).symm, sameIndex.symm⟩
  · intro text refused
    cases @malformed_or_rendered crates text with
    | inl malformed => exact malformed
    | inr rendered =>
        obtain ⟨incarnation, key, isKey, shape⟩ := rendered
        cases shape with
        | inl plain =>
            rw [plain, isKey.splitOn uuids] at refused
            exact absurd refused (isKey.not_isRefused uuids)
        | inr indexed =>
            obtain ⟨number, isIndex, rfl⟩ := indexed
            rw [isIndex.splitOn, isKey.splitOn uuids] at refused
            exact absurd refused (isKey.not_isRefused_index uuids isIndex)

end CloudInit

/-! ## A parser for every form -/

namespace ReferenceCrates

def isUuidText (text : Text) : Bool :=
  (text.length == 32 && text.all isHexDigit) || isUuid text ||
    ((text.dropPrefix? ['\x7b']).bind (·.dropSuffix? ['\x7d'])).any isUuid ||
    (text.dropPrefix? "urn:uuid:".toList).any isUuid

/-- The reference functions with every form of a UUID. -/
def withUuids : Crates := { reference with parseUuid := isUuidText }

theorem isUuid_iff {text : Text} : isUuid text = true ↔ IsHyphenated text := by
  simp only [isUuid, Bool.and_eq_true, beq_iff_eq, List.all_eq_true]
  constructor
  · intro fields
    exact ⟨text.splitOn '-', fields.1, fun field member => List.all_eq_true.mpr (fields.2 field member),
      (List.intercalate_splitOn '-').symm⟩
  · intro hyphenated
    obtain ⟨fields, lengths, hex, rfl⟩ := hyphenated
    have given : fields ≠ [] := by
      intro none
      rw [none] at lengths
      cases lengths
    have noHyphen : ∀ field ∈ fields, '-' ∉ field := by
      intro field member hyphen
      cases List.all_eq_true.mp (hex field member) '-' hyphen
    rw [List.splitOn_intercalate '-' noHyphen given]
    exact ⟨lengths, fun field member => List.all_eq_true.mp (hex field member)⟩

theorem withUuids_uuidForms : withUuids.UuidForms where
  parseUuid_iff text := by
    have tests : withUuids.parseUuid text = isUuidText text := rfl
    rw [tests]
    simp only [isUuidText, Bool.or_eq_true, Bool.and_eq_true, beq_iff_eq, Option.any_eq_true,
      Option.bind_eq_some_iff, List.dropPrefix?_eq_some_iff, List.dropSuffix?_eq_some_iff,
      isUuid_iff]
    constructor
    · intro accepted
      rcases accepted with ((simple | hyphenated) | braced) | urn
      · exact .simple simple.1 simple.2
      · exact .hyphenated hyphenated
      · obtain ⟨inside, ⟨behind, ⟨opening, rfl, opened⟩, closing, rfl, closed⟩, hyphenated⟩ := braced
        rw [opened, closed]
        exact .braced hyphenated
      · obtain ⟨inside, ⟨opening, rfl, opened⟩, hyphenated⟩ := urn
        rw [opened]
        exact .urn hyphenated
    · intro form
      cases form with
      | simple length hex => exact .inl (.inl (.inl ⟨length, hex⟩))
      | hyphenated hyphenated => exact .inl (.inl (.inr hyphenated))
      | @braced inside hyphenated =>
          exact .inl (.inr ⟨inside, ⟨inside ++ ['\x7d'], ⟨['\x7b'], rfl, rfl⟩, ['\x7d'], rfl, rfl⟩,
            hyphenated⟩)
      | @urn inside hyphenated =>
          exact .inr ⟨inside, ⟨"urn:uuid:".toList, rfl, rfl⟩, hyphenated⟩

end ReferenceCrates

namespace CloudInit

def legacyKey : CloudInitKey :=
  { kind := "event".toList, name := "test".toList, vmId := none
    eventId := "8f3e9c4a1b2c4d5e9f01234567890abc".toList }

/-- Six fields without a VM identity, because the last one is an index. -/
theorem key_layouts_are_unambiguous_legacy :
    splitKey ReferenceCrates.withUuids
        "CLOUD_INIT|1|event|test|8f3e9c4a1b2c4d5e9f01234567890abc|18446744073709551615".toList =
      .ok ("CLOUD_INIT|1|event|test|8f3e9c4a1b2c4d5e9f01234567890abc".toList,
        some 18446744073709551615) := by
  have isKey : IsKey ReferenceCrates.withUuids "1".toList legacyKey :=
    ⟨by decide, by decide, ⟨by decide, by decide⟩, by decide, ⟨by decide, by decide⟩, by decide,
      by decide⟩
  exact ((key_layouts_are_unambiguous ReferenceCrates.withUuids_uuidForms).1 "1".toList legacyKey
    (some 18446744073709551615) isKey).1

end CloudInit

end AzureInit.Diagnostics
