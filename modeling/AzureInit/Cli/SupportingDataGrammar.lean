import AzureInit.Cli.SupportingDataBytes

/-! The grammar of the `--supporting-data` argument. -/

set_option autoImplicit false

namespace AzureInit.Cli

open Foundation
open Foundation.Fallible

/-- A text in front of the first `=` or `,`. -/
structure IsKeyText (key : Text) : Prop where
  noEquals : '=' ∉ key
  noComma : ',' ∉ key

/-- Fields that can be told from what stands behind them. -/
inductive IsField : Text → Prop where
  | keyOnly {key : Text} : IsKeyText key → IsField key
  | bare {key value : Text} : IsKeyText key → ',' ∉ value →
      (∀ c ∈ value.head?, isQuote c = false) → IsField (key ++ '=' :: value)
  | quoted {key body : Text} {quote : Char} : IsKeyText key → isQuote quote = true →
      quote ∉ body → IsField (key ++ '=' :: quote :: (body ++ [quote]))

/-- A quote in front of the value that is missing behind it, or is not followed by a comma. -/
def IsBroken (text : Text) : Prop :=
  ∃ key quote behind, IsKeyText key ∧ isQuote quote = true ∧
    text = key ++ '=' :: quote :: behind ∧
    (quote ∉ behind ∨
      ∃ body c more, behind = body ++ quote :: c :: more ∧ quote ∉ body ∧ c ≠ ',')

/-- Some whole fields with a broken one behind them. -/
def HasBrokenField (text : Text) : Prop :=
  ∃ (fields : List Text) (rest : Text), (∀ field ∈ fields, IsField field) ∧ IsBroken rest ∧
    text = fields.flatMap (· ++ [',']) ++ rest

/-! ## One field -/

theorem IsKeyText.inside {key : Text} (isKey : IsKeyText key) :
    ∀ c ∈ key, (!isKeyEnd c) = true := by
  intro c member
  have notEquals : c ≠ '=' := fun same => isKey.noEquals (same ▸ member)
  have notComma : c ≠ ',' := fun same => isKey.noComma (same ▸ member)
  simp [isKeyEnd, notEquals, notComma]

theorem scanField_equals {key : Text} (isKey : IsKeyText key) (rest : Text) :
    scanField (key ++ '=' :: rest) =
      (scanValue rest).map fun scanned => (key ++ '=' :: scanned.1, scanned.2) := by
  unfold scanField
  rw [List.dropWhile_append_of_pos isKey.inside, List.takeWhile_append_of_pos isKey.inside]
  simp [isKeyEnd]

theorem scanField_key {key rest : Text} (isKey : IsKeyText key)
    (ended : ∀ c ∈ rest.head?, c = ',') : scanField (key ++ rest) = .ok (key, rest) := by
  unfold scanField
  rw [List.dropWhile_append_of_pos isKey.inside, List.takeWhile_append_of_pos isKey.inside]
  cases rest with
  | nil => simp
  | cons c rest =>
      rw [ended c rfl]
      simp [isKeyEnd]

theorem scanValue_bare {value rest : Text} (noComma : ',' ∉ value)
    (notQuoted : ∀ c ∈ value.head?, isQuote c = false) (ended : ∀ c ∈ rest.head?, c = ',') :
    scanValue (value ++ rest) = .ok (value, rest) := by
  have whole : (value ++ rest).takeWhile (· != ',') = value ∧
      (value ++ rest).dropWhile (· != ',') = rest := by
    cases rest with
    | nil =>
        have nothing := Delimited.dropWhile_of_not_mem noComma
        have divided : value.takeWhile (· != ',') ++ value.dropWhile (· != ',') = value :=
          List.takeWhile_append_dropWhile
        rw [nothing, List.append_nil] at divided
        rw [List.append_nil]
        exact ⟨divided, nothing⟩
    | cons c rest =>
        rw [ended c rfl]
        exact ⟨Delimited.takeWhile_append_cons _ noComma, Delimited.dropWhile_append_cons _ noComma⟩
  cases value with
  | nil =>
      cases rest with
      | nil => rfl
      | cons c rest =>
          rw [ended c rfl]
          simp [scanValue, isQuote]
  | cons first value =>
      have notQuote := notQuoted first rfl
      unfold scanValue
      simp only [List.cons_append, notQuote, Bool.false_eq_true, ↓reduceIte] at whole ⊢
      rw [whole.1, whole.2]

theorem scanValue_quoted {body rest : Text} {quote : Char} (isQuoted : isQuote quote = true)
    (absent : quote ∉ body) (ended : ∀ c ∈ rest.head?, c = ',') :
    scanValue (quote :: (body ++ quote :: rest)) = .ok (quote :: (body ++ [quote]), rest) := by
  have follows : rest.head?.any (· != ',') = false := by
    cases rest with
    | nil => rfl
    | cons c rest => simp [ended c rfl]
  unfold scanValue
  simp only [isQuoted, ↓reduceIte, Delimited.dropWhile_append_cons rest absent,
    Delimited.takeWhile_append_cons rest absent, follows, Bool.false_eq_true]

/-- A field is scanned up to the comma behind it. -/
theorem IsField.scanField {field rest : Text} (isField : IsField field)
    (ended : ∀ c ∈ rest.head?, c = ',') : scanField (field ++ rest) = .ok (field, rest) := by
  cases isField with
  | keyOnly isKey => exact scanField_key isKey ended
  | bare isKey noComma notQuoted =>
      rw [List.append_assoc, List.cons_append, scanField_equals isKey,
        scanValue_bare noComma notQuoted ended]
      rfl
  | @quoted key body quote isKey isQuoted absent =>
      have joined : key ++ '=' :: quote :: (body ++ [quote]) ++ rest =
          key ++ '=' :: (quote :: (body ++ quote :: rest)) := by simp
      rw [joined, scanField_equals isKey, scanValue_quoted isQuoted absent ended]
      rfl

theorem IsBroken.scanField {text : Text} (broken : IsBroken text) :
    ∃ error, scanField text = .error error := by
  obtain ⟨key, quote, behind, isKey, isQuoted, rfl, failure⟩ := broken
  rw [scanField_equals isKey]
  unfold scanValue
  simp only [isQuoted, ↓reduceIte]
  cases failure with
  | inl absent =>
      rw [Delimited.dropWhile_of_not_mem absent]
      exact ⟨_, rfl⟩
  | inr follows =>
      obtain ⟨body, c, more, rfl, absent, notComma⟩ := follows
      rw [Delimited.dropWhile_append_cons _ absent]
      simp only [List.head?_cons, Option.any_some, bne_iff_ne, ne_eq, notComma, not_false_eq_true,
        ↓reduceIte]
      exact ⟨_, rfl⟩

theorem exists_key (text : Text) :
    ∃ key rest, text = key ++ rest ∧ IsKeyText key ∧ ∀ c ∈ rest.head?, c = '=' ∨ c = ',' := by
  obtain ⟨key, rest, rfl, inside, ended⟩ := Delimited.exists_scanned isKeyEnd text
  refine ⟨key, rest, rfl, ⟨?_, ?_⟩, ?_⟩
  · intro member
    cases inside '=' member
  · intro member
    cases inside ',' member
  · intro c first
    simpa [isKeyEnd] using ended c first

/-- A text is broken, or begins with a field. -/
theorem field_or_broken (text : Text) :
    IsBroken text ∨ ∃ field rest, text = field ++ rest ∧ IsField field ∧
      ∀ c ∈ rest.head?, c = ',' := by
  obtain ⟨key, rest, rfl, isKey, ended⟩ := exists_key text
  cases rest with
  | nil => exact .inr ⟨key, [], rfl, .keyOnly isKey, by simp⟩
  | cons c rest =>
      cases ended c rfl with
      | inr comma => exact .inr ⟨key, c :: rest, rfl, .keyOnly isKey, by simpa using comma⟩
      | inl equals =>
          subst equals
          by_cases quoted : ∃ quote behind, rest = quote :: behind ∧ isQuote quote = true
          · obtain ⟨quote, behind, rfl, isQuoted⟩ := quoted
            by_cases present : quote ∈ behind
            · obtain ⟨body, more, rfl, absent⟩ := List.eq_append_cons_of_mem present
              by_cases follows : ∀ c ∈ more.head?, c = ','
              · exact .inr ⟨key ++ '=' :: quote :: (body ++ [quote]), more, by simp,
                  .quoted isKey isQuoted absent, follows⟩
              · cases more with
                | nil => exact absurd (by simp) follows
                | cons c more =>
                    have notComma : c ≠ ',' := by simpa using follows
                    exact .inl ⟨key, quote, _, isKey, isQuoted, rfl,
                      .inr ⟨body, c, more, rfl, absent, notComma⟩⟩
            · exact .inl ⟨key, quote, behind, isKey, isQuoted, rfl, .inl present⟩
          · obtain ⟨value, behind, rfl, inside, ended⟩ := Delimited.exists_scanned (· == ',') rest
            have noComma : ',' ∉ value := fun member => by cases inside ',' member
            have notQuoted : ∀ c ∈ value.head?, isQuote c = false := by
              intro c first
              cases value with
              | nil => cases first
              | cons head value =>
                  cases first
                  by_contra isQuoted
                  exact quoted ⟨c, value ++ behind, rfl, by simpa using isQuoted⟩
            exact .inr ⟨key ++ '=' :: value, behind, by simp, .bare isKey noComma notQuoted,
              fun c first => by simpa using ended c first⟩

theorem scanField_error_iff {text : Text} :
    (∃ error, scanField text = .error error) ↔ IsBroken text := by
  constructor
  · intro failed
    cases field_or_broken text with
    | inl broken => exact broken
    | inr begins =>
        obtain ⟨field, rest, rfl, isField, ended⟩ := begins
        obtain ⟨error, failed⟩ := failed
        rw [isField.scanField ended] at failed
        cases failed
  · exact IsBroken.scanField

theorem isField_of_scanField {text field rest : Text}
    (scanned : scanField text = .ok (field, rest)) : IsField field := by
  cases field_or_broken text with
  | inl broken =>
      obtain ⟨error, failed⟩ := broken.scanField
      rw [scanned] at failed
      cases failed
  | inr begins =>
      obtain ⟨first, behind, rfl, isField, ended⟩ := begins
      rw [isField.scanField ended] at scanned
      cases scanned
      exact isField

/-! ## All fields -/

/-- The fields are those texts between commas that can be told apart. -/
theorem splitFields_eq_ok_iff {text : Text} {fields : List Text} :
    splitFields text = .ok fields ↔
      fields ≠ [] ∧ (∀ field ∈ fields, IsField field) ∧ [','].intercalate fields = text := by
  constructor
  · intro split
    obtain ⟨given, joined⟩ := intercalate_splitFields split
    refine ⟨given, ?_, joined⟩
    clear given joined
    induction text using splitFields.induct generalizing fields with
    | case1 text error failed =>
        rw [splitFields_error failed] at split
        cases split
    | case2 text field scanned =>
        rw [splitFields_last scanned] at split
        cases split
        exact List.forall_mem_singleton.mpr (isField_of_scanField scanned)
    | case3 text field separator rest scanned ih =>
        rw [splitFields_cons scanned] at split
        obtain ⟨others, rest_split, rfl⟩ := map_eq_ok_iff.mp split
        exact List.forall_mem_cons.mpr ⟨isField_of_scanField scanned, ih rest_split⟩
  · intro divided
    obtain ⟨given, isField, rfl⟩ := divided
    induction fields with
    | nil => exact absurd rfl given
    | cons field fields ih =>
        obtain ⟨first, others⟩ := List.forall_mem_cons.mp isField
        cases fields with
        | nil =>
            have scanned : scanField (field ++ []) = .ok (field, []) := first.scanField (by simp)
            rw [List.append_nil] at scanned
            rw [List.intercalate_singleton]
            exact splitFields_last scanned
        | cons next fields =>
            have scanned : scanField (field ++ ',' :: [','].intercalate (next :: fields)) =
                .ok (field, ',' :: [','].intercalate (next :: fields)) :=
              first.scanField (by simp)
            rw [List.intercalate_cons_cons, List.append_assoc, List.singleton_append,
              splitFields_cons scanned, ih (by simp) others]
            rfl

theorem splitFields_error_iff {text : Text} :
    (∃ error, splitFields text = .error error) ↔ HasBrokenField text := by
  constructor
  · intro failed
    induction text using splitFields.induct with
    | case1 text error scanned =>
        exact ⟨[], text, by simp, scanField_error_iff.mp ⟨error, scanned⟩, rfl⟩
    | case2 text field scanned =>
        obtain ⟨error, failed⟩ := failed
        rw [splitFields_last scanned] at failed
        cases failed
    | case3 text field separator rest scanned ih =>
        have comma : separator = ',' := scanField_behind scanned separator rfl
        have whole := scanField_append scanned
        obtain ⟨error, failed⟩ := failed
        rw [splitFields_cons scanned] at failed
        have restFailed : ∃ error, splitFields rest = .error error := by
          cases split : splitFields rest with
          | ok fields =>
              rw [split] at failed
              cases failed
          | error error => exact ⟨error, rfl⟩
        obtain ⟨fields, last, isField, broken, rfl⟩ := ih restFailed
        refine ⟨field :: fields, last,
          List.forall_mem_cons.mpr ⟨isField_of_scanField scanned, isField⟩, broken, ?_⟩
        rw [← whole, comma]
        simp
  · intro hasBroken
    obtain ⟨fields, rest, isField, broken, rfl⟩ := hasBroken
    induction fields with
    | nil =>
        obtain ⟨error, failed⟩ := broken.scanField
        exact ⟨error, splitFields_error failed⟩
    | cons field fields ih =>
        obtain ⟨first, others⟩ := List.forall_mem_cons.mp isField
        obtain ⟨error, failed⟩ := ih others
        have joined : (field :: fields).flatMap (· ++ [',']) ++ rest =
            field ++ ',' :: (fields.flatMap (· ++ [',']) ++ rest) := by simp
        have scanned : scanField (field ++ ',' :: (fields.flatMap (· ++ [',']) ++ rest)) =
            .ok (field, ',' :: (fields.flatMap (· ++ [',']) ++ rest)) :=
          first.scanField (by simp)
        rw [joined, splitFields_cons scanned, failed]
        exact ⟨error, rfl⟩

/-! ## Rendered pairs -/

/-- The texts of a pair: the value stands bare, or in quotes that it does not have. -/
inductive Renders : Text × Text → Text → Prop where
  | bare {key value : Text} : key ≠ [] → IsKeyText key → ',' ∉ value →
      (∀ c ∈ value.head?, isQuote c = false) → Renders (key, value) (key ++ '=' :: value)
  | quoted {key value : Text} {quote : Char} : key ≠ [] → IsKeyText key →
      isQuote quote = true → quote ∉ value →
      Renders (key, value) (key ++ '=' :: quote :: (value ++ [quote]))

/-- Fields that render some pairs in their order, with empty fields anywhere. -/
def RendersAll (pairs : List (Text × Text)) (fields : List Text) : Prop :=
  List.Forall₂ Renders pairs (fields.filter (!·.isEmpty))

theorem Renders.isField {pair : Text × Text} {text : Text} (renders : Renders pair text) :
    IsField text := by
  cases renders with
  | bare _ isKey noComma notQuoted => exact .bare isKey noComma notQuoted
  | quoted _ isKey isQuoted absent => exact .quoted isKey isQuoted absent

theorem unquote_bare {value : Text} (notQuoted : ∀ c ∈ value.head?, isQuote c = false) :
    unquote value = value := by
  unfold unquote
  cases value with
  | nil => rfl
  | cons first value =>
      have notQuote := notQuoted first rfl
      simp [notQuote]

theorem unquote_quoted {quote : Char} (isQuoted : isQuote quote = true) (value : Text) :
    unquote (quote :: (value ++ [quote])) = value := by
  have last : (quote :: (value ++ [quote])).getLast? = some quote := by
    rw [← List.cons_append, List.getLast?_concat]
  unfold unquote
  rw [if_pos (by simp [isQuoted, last])]
  simp

theorem parseKeyValuePair_equals {key : Text} (given : key ≠ []) (isKey : IsKeyText key)
    (value : Text) : parseKeyValuePair (key ++ '=' :: value) = .ok (key, unquote value) := by
  have divided : Delimited.splitOnce? '=' (key ++ '=' :: value) = some (key, value) :=
    Delimited.splitOnce?_eq_some_iff.mpr ⟨rfl, isKey.noEquals⟩
  unfold parseKeyValuePair
  rw [divided]
  simp [given]

theorem Renders.parseKeyValuePair {pair : Text × Text} {text : Text}
    (renders : Renders pair text) : parseKeyValuePair text = .ok pair := by
  cases renders with
  | bare given isKey noComma notQuoted =>
      rw [parseKeyValuePair_equals given isKey, unquote_bare notQuoted]
  | quoted given isKey isQuoted absent =>
      rw [parseKeyValuePair_equals given isKey, unquote_quoted isQuoted]

theorem RendersAll.isField {pairs : List (Text × Text)} {fields : List Text}
    (renders : RendersAll pairs fields) : ∀ field ∈ fields, IsField field := by
  intro field member
  cases field with
  | nil => exact .keyOnly ⟨by simp, by simp⟩
  | cons c field =>
      have kept : c :: field ∈ fields.filter (!·.isEmpty) := by simp [member]
      unfold RendersAll at renders
      generalize fields.filter (!·.isEmpty) = texts at renders kept
      induction renders with
      | nil => cases kept
      | cons first _ ih =>
          cases List.mem_cons.mp kept with
          | inl same =>
              rw [same]
              exact first.isField
          | inr later => exact ih later

/-- An argument is parsed as the pairs that its fields render. -/
theorem RendersAll.parseSupportingData {pairs : List (Text × Text)} {fields : List Text}
    (renders : RendersAll pairs fields) :
    parseSupportingData ([','].intercalate fields) = .ok { pairs } := by
  -- no field at all and one empty field are the same argument
  have whole : ∃ split, splitFields ([','].intercalate fields) = .ok split ∧
      RendersAll pairs split := by
    cases fields with
    | nil =>
        refine ⟨[[]], splitFields_eq_ok_iff.mpr ⟨by simp, ?_, rfl⟩, renders⟩
        exact List.forall_mem_singleton.mpr (.keyOnly ⟨by simp, by simp⟩)
    | cons field fields =>
        exact ⟨_, splitFields_eq_ok_iff.mpr ⟨by simp, renders.isField, rfl⟩, renders⟩
  obtain ⟨split, fields_split, renders⟩ := whole
  have parsed : (split.filter (!·.isEmpty)).mapM Cli.parseKeyValuePair = .ok pairs := by
    rw [mapM_eq_ok_iff]
    exact List.Forall₂.flip (renders.imp fun _ _ first => first.parseKeyValuePair)
  unfold Cli.parseSupportingData splitSupportingDataFields
  rw [fields_split]
  exact bind_eq_ok_iff.mpr ⟨split, rfl, bind_eq_ok_iff.mpr ⟨pairs, parsed, rfl⟩⟩

theorem splitSupportingDataFields_eq_ok_iff {raw : Text} {fields : List Text} :
    splitSupportingDataFields raw = .ok fields ↔ splitFields raw = .ok fields := by
  unfold splitSupportingDataFields
  cases splitFields raw <;> simp [Except.mapError]

theorem splitSupportingDataFields_error_iff {raw : Text} :
    (∃ error, splitSupportingDataFields raw = .error error) ↔
      ∃ error, splitFields raw = .error error := by
  unfold splitSupportingDataFields
  cases splitFields raw <;> simp [Except.mapError]

/-- Rendered pairs are parsed back. The scan of any argument ends, cuts no character,
loses nothing, and refuses exactly the arguments with a broken quoted value. -/
theorem supporting_data_grammar :
    (∀ (pairs : List (Text × Text)) (fields : List Text), RendersAll pairs fields →
      parseSupportingData ([','].intercalate fields) = .ok { pairs }) ∧
    ∀ raw : Text,
      splitSupportingDataBytes raw = some (splitSupportingDataFields raw) ∧
      (∀ fields, splitSupportingDataFields raw = .ok fields →
        [','].intercalate fields = raw ∧ ∀ field ∈ fields, IsField field) ∧
      ((∃ error, splitSupportingDataFields raw = .error error) ↔ HasBrokenField raw) := by
  refine ⟨fun pairs fields renders => renders.parseSupportingData, ?_⟩
  intro raw
  refine ⟨splitSupportingDataBytes_eq raw, ?_, ?_⟩
  · intro fields split
    obtain ⟨-, isField, joined⟩ :=
      splitFields_eq_ok_iff.mp (splitSupportingDataFields_eq_ok_iff.mp split)
    exact ⟨joined, isField⟩
  · exact splitSupportingDataFields_error_iff.trans splitFields_error_iff

/-- A value with a comma and an apostrophe, an empty field and a value with an equals sign. -/
theorem supporting_data_grammar_quoted :
    parseSupportingData "k=\"a,b'\",,\u00e9=='".toList =
      .ok { pairs := [("k".toList, "a,b'".toList), ("\u00e9".toList, "='".toList)] } := by
  have unquoted : '"' ∉ ['a', ',', 'b', '\''] := by simp
  have isQuoted : Renders (['k'], ['a', ',', 'b', '\'']) "k=\"a,b'\"".toList :=
    .quoted (by simp) ⟨by simp, by simp⟩ (by decide) unquoted
  have isBare : Renders (['\u00e9'], ['=', '\'']) "\u00e9=='".toList :=
    .bare (by simp) ⟨by simp, by simp⟩ (by simp) (by simp [isQuote])
  refine supporting_data_grammar.1 _ ["k=\"a,b'\"".toList, [], "\u00e9=='".toList] ?_
  exact .cons isQuoted (.cons isBare .nil)

end AzureInit.Cli
