import AzureInit.Diagnostics.ReportFields

/-! The `--supporting-data` argument: `key=value` pairs between commas, whose values may
stand in quotes. -/

set_option autoImplicit false

namespace AzureInit.Cli

open Foundation
open Foundation.Fallible
open Diagnostics (IsFieldName okOr okOr_eq_ok_iff)

def isQuote (c : Char) : Bool := c == '\'' || c == '"'

def isKeyEnd (c : Char) : Bool := c == '=' || c == ','

/-- Why a field cannot be told from the next one. -/
inductive FieldError where
  | unterminatedQuote
  | charactersAfterQuote
  deriving DecidableEq, Repr

/-- The value of the first field, and the rest from the comma behind it. -/
def scanValue : Text → Except FieldError (Text × Text)
  | [] => .ok ([], [])
  | first :: text =>
      if isQuote first then
        match text.dropWhile (· != first) with
        | [] => .error .unterminatedQuote
        | closing :: rest =>
            if rest.head?.any (· != ',') then .error .charactersAfterQuote
            else .ok (first :: (text.takeWhile (· != first) ++ [closing]), rest)
      else
        .ok ((first :: text).takeWhile (· != ','), (first :: text).dropWhile (· != ','))

/-- The first field, and the rest from the comma behind it. -/
def scanField (text : Text) : Except FieldError (Text × Text) :=
  match text.dropWhile (!isKeyEnd ·) with
  | '=' :: rest =>
      (scanValue rest).map fun (value, rest) =>
        (text.takeWhile (!isKeyEnd ·) ++ '=' :: value, rest)
  | rest => .ok (text.takeWhile (!isKeyEnd ·), rest)

theorem scanValue_append {text value rest : Text} (scanned : scanValue text = .ok (value, rest)) :
    value ++ rest = text := by
  unfold scanValue at scanned
  split at scanned
  · cases scanned
    rfl
  · rename_i first text
    split at scanned
    · split at scanned
      · cases scanned
      · rename_i closing rest behind
        split at scanned
        · cases scanned
        · cases scanned
          rw [List.cons_append, List.append_assoc, List.singleton_append, ← behind,
            List.takeWhile_append_dropWhile]
    · cases scanned
      exact List.takeWhile_append_dropWhile

theorem scanField_append {text field rest : Text} (scanned : scanField text = .ok (field, rest)) :
    field ++ rest = text := by
  unfold scanField at scanned
  split at scanned
  · rename_i behind found
    obtain ⟨⟨value, last⟩, value_scanned, same⟩ := map_eq_ok_iff.mp scanned
    cases same
    rw [List.append_assoc, List.cons_append, scanValue_append value_scanned, ← found,
      List.takeWhile_append_dropWhile]
  · cases scanned
    exact List.takeWhile_append_dropWhile

def splitFields (text : Text) : Except FieldError (List Text) :=
  match _scanned : scanField text with
  | .error error => .error error
  | .ok (field, []) => .ok [field]
  | .ok (field, _ :: rest) => (splitFields rest).map (field :: ·)
termination_by text.length
decreasing_by
  have joined := congrArg List.length (scanField_append _scanned)
  simp only [List.length_append, List.length_cons] at joined
  omega

def FieldError.describe (raw : Text) : FieldError → Text
  | .unterminatedQuote =>
      "supporting data '".toList ++ raw ++ "' has an unterminated quote".toList
  | .charactersAfterQuote =>
      "supporting data '".toList ++ raw ++
        "' has unexpected characters after a quoted value".toList

/-- Split an argument into its `key=value` fields. -/
def splitSupportingDataFields (raw : Text) : Except Text (List Text) :=
  (splitFields raw).mapError (·.describe raw)

/-- Strip one layer of matching quotes. -/
def unquote (value : Text) : Text :=
  if value.length ≥ 2 && value.head?.any fun first => isQuote first && value.getLast? == some first
  then (value.drop 1).dropLast
  else value

def parseKeyValuePair (raw : Text) : Except Text (Text × Text) :=
  match Delimited.splitOnce? '=' raw with
  | none =>
      .error ("supporting data '".toList ++ raw ++ "' must be in key=value format".toList)
  | some (key, value) =>
      if key.isEmpty then
        .error ("supporting data '".toList ++ raw ++ "' has an empty key".toList)
      else .ok (key, unquote value)

/-- The pairs of one argument. -/
structure SupportingData where
  pairs : List (Text × Text)
  deriving DecidableEq, Repr

def parseSupportingData (raw : Text) : Except Text SupportingData := do
  let fields ← splitSupportingDataFields raw
  let pairs ← (fields.filter (!·.isEmpty)).mapM parseKeyValuePair
  return { pairs }

/-! ## What is accepted -/

theorem isFieldName_of_parseKeyValuePair {raw : Text} {pair : Text × Text}
    (parsed : parseKeyValuePair raw = .ok pair) : IsFieldName pair.1 := by
  unfold parseKeyValuePair at parsed
  split at parsed
  · cases parsed
  · rename_i key value divided
    split at parsed
    · cases parsed
    · rename_i given
      cases parsed
      exact ⟨by simpa using given, (Delimited.splitOnce?_eq_some_iff.mp divided).2⟩

/-- The keys of accepted pairs are field names. -/
theorem isFieldName_of_parseSupportingData {raw : Text} {data : SupportingData}
    (parsed : parseSupportingData raw = .ok data) : ∀ pair ∈ data.pairs, IsFieldName pair.1 := by
  obtain ⟨fields, -, rest⟩ := bind_eq_ok_iff.mp parsed
  obtain ⟨pairs, mapped, built⟩ := bind_eq_ok_iff.mp rest
  cases built
  have each := mapM_eq_ok_iff.mp mapped
  clear mapped parsed rest
  generalize fields.filter (!·.isEmpty) = given at each
  induction each with
  | nil => simp
  | cons first _ ih =>
      exact List.forall_mem_cons.mpr ⟨isFieldName_of_parseKeyValuePair first, ih⟩

/-- A scanned field ends before a comma or at the end. -/
theorem scanField_behind {text field rest : Text} (scanned : scanField text = .ok (field, rest)) :
    ∀ c ∈ rest.head?, c = ',' := by
  have stops : ∀ text : Text, ∀ c ∈ (text.dropWhile (· != ',')).head?, c = ',' := by
    intro text c first
    have ended := List.head?_dropWhile_not (· != ',') text
    rw [Option.mem_def.mp first] at ended
    simpa using ended
  unfold scanField at scanned
  split at scanned
  · obtain ⟨⟨value, last⟩, value_scanned, same⟩ := map_eq_ok_iff.mp scanned
    cases same
    unfold scanValue at value_scanned
    split at value_scanned
    · cases value_scanned
      simp
    · split at value_scanned
      · split at value_scanned
        · cases value_scanned
        · split at value_scanned
          · cases value_scanned
          · rename_i follows
            cases value_scanned
            intro c first
            simpa [Option.mem_def.mp first] using follows
      · cases value_scanned
        exact stops _
  · rename_i not_equals
    cases scanned
    intro c first
    have ended := List.head?_dropWhile_not (!isKeyEnd ·) text
    rw [Option.mem_def.mp first] at ended
    cases behind : text.dropWhile (!isKeyEnd ·) with
    | nil =>
      rw [behind] at first
      cases first
    | cons head tail =>
      rw [behind] at first
      cases first
      have not_key : c ≠ '=' := fun same => not_equals tail (by rw [behind, same])
      simpa [isKeyEnd, not_key] using ended

theorem splitFields_error {text : Text} {error : FieldError}
    (failed : scanField text = .error error) : splitFields text = .error error := by
  unfold splitFields
  grind

theorem splitFields_last {text field : Text} (scanned : scanField text = .ok (field, [])) :
    splitFields text = .ok [field] := by
  unfold splitFields
  grind

theorem splitFields_cons {text field rest : Text} {separator : Char}
    (scanned : scanField text = .ok (field, separator :: rest)) :
    splitFields text = (splitFields rest).map (field :: ·) := by
  conv => lhs; unfold splitFields
  grind

/-- Splitting loses nothing of the argument. -/
theorem intercalate_splitFields {text : Text} {fields : List Text}
    (split : splitFields text = .ok fields) : fields ≠ [] ∧ [','].intercalate fields = text := by
  induction text using splitFields.induct generalizing fields with
  | case1 text error failed =>
      rw [splitFields_error failed] at split
      cases split
  | case2 text field scanned =>
      rw [splitFields_last scanned] at split
      cases split
      exact ⟨by simp, by simpa [List.intercalate] using scanField_append scanned⟩
  | case3 text field separator rest scanned ih =>
      rw [splitFields_cons scanned] at split
      obtain ⟨fields, rest_split, rfl⟩ := map_eq_ok_iff.mp split
      obtain ⟨nonempty, joined⟩ := ih rest_split
      have comma : separator = ',' := scanField_behind scanned separator rfl
      have whole := scanField_append scanned
      cases fields with
      | nil => contradiction
      | cons head tail =>
        refine ⟨by simp, ?_⟩
        simp only [List.intercalate_cons_cons, joined, ← whole, comma, List.append_assoc,
          List.singleton_append]

end AzureInit.Cli
