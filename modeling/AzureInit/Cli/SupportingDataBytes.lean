import AzureInit.Cli.SupportingData
import AzureInit.Foundation.ByteScan

/-! The scan of the `--supporting-data` argument over the bytes of the argument, with its
index and its slices. It never cuts a character, and finds the fields of the text. -/

set_option autoImplicit false

namespace AzureInit.Cli

open Foundation
open Foundation.ByteScan

def equalsByte : UInt8 := 0x3d
def commaByte : UInt8 := 0x2c
def singleQuoteByte : UInt8 := 0x27
def doubleQuoteByte : UInt8 := 0x22

def isQuoteByte (byte : UInt8) : Bool := byte == singleQuoteByte || byte == doubleQuoteByte

/-- The index behind the value that begins at an index. -/
def valueEnd (bytes : List UInt8) (idx : Nat) : Except FieldError Nat :=
  match bytes[idx]? with
  | none => .ok idx
  | some first =>
      if isQuoteByte first then
        let (closed, idx) := findBehind first bytes (idx + 1)
        if !closed then .error .unterminatedQuote
        else if bytes[idx]?.any (· != commaByte) then .error .charactersAfterQuote
        else .ok idx
      else .ok (skipWhile (· != commaByte) bytes idx)

/-- The index behind the field that begins at an index. -/
def fieldEnd (bytes : List UInt8) (fieldStart : Nat) : Except FieldError Nat :=
  let idx := skipWhile (fun byte => byte != equalsByte && byte != commaByte) bytes fieldStart
  if bytes[idx]? == some equalsByte then valueEnd bytes (idx + 1) else .ok idx

theorem le_valueEnd {bytes : List UInt8} {idx stop : Nat}
    (ended : valueEnd bytes idx = .ok stop) : idx ≤ stop := by
  unfold valueEnd at ended
  split at ended
  · cases ended
    exact Nat.le_refl idx
  · rename_i first _
    have behind := le_findBehind first bytes (idx + 1)
    split at ended
    · simp only at ended
      split_ifs at ended
      cases ended
      omega
    · cases ended
      exact le_skipWhile _ _ _

theorem le_fieldEnd {bytes : List UInt8} {fieldStart stop : Nat}
    (ended : fieldEnd bytes fieldStart = .ok stop) : fieldStart ≤ stop := by
  have skipped := le_skipWhile (fun byte => byte != equalsByte && byte != commaByte) bytes
    fieldStart
  unfold fieldEnd at ended
  simp only at ended
  split_ifs at ended
  · have value := le_valueEnd ended
    omega
  · cases ended
    exact skipped

/-- The loop over the fields; `none` where a slice would cut a character. -/
def splitFieldsFrom (raw : Text) (fields : List Text) (idx : Nat) :
    Option (Except FieldError (List Text)) :=
  match _ended : fieldEnd (Utf8.encode raw) idx with
  | .error error => some (.error error)
  | .ok stop =>
      (slice? raw idx stop).bind fun field =>
        if stop < Utf8.byteLength raw then splitFieldsFrom raw (fields ++ [field]) (stop + 1)
        else some (.ok (fields ++ [field]))
termination_by Utf8.byteLength raw - idx
decreasing_by
  have progress := le_fieldEnd _ended
  omega

/-- The fields of an argument, found in its bytes. -/
def splitSupportingDataBytes (raw : Text) : Option (Except Text (List Text)) :=
  (splitFieldsFrom raw [] 0).map (Except.mapError (·.describe raw))

/-! ## Bytes and characters -/

theorem isQuoteByte_of_mem {c : Char} {byte : UInt8} (member : byte ∈ String.utf8EncodeChar c) :
    isQuoteByte byte = isQuote c := by
  have single : (byte == singleQuoteByte) = (c == '\'') :=
    beq_ascii_of_mem '\'' (by decide) member
  have double : (byte == doubleQuoteByte) = (c == '"') :=
    beq_ascii_of_mem '"' (by decide) member
  rw [isQuoteByte, isQuote, single, double]

theorem notComma_of_mem (c : Char) (byte : UInt8) (member : byte ∈ String.utf8EncodeChar c) :
    (byte != commaByte) = (c != ',') := by
  have same : (byte == commaByte) = (c == ',') :=
    beq_ascii_of_mem ',' (by decide) member
  rw [bne, bne, same]

theorem notKeyEnd_of_mem (c : Char) (byte : UInt8) (member : byte ∈ String.utf8EncodeChar c) :
    (byte != equalsByte && byte != commaByte) = !isKeyEnd c := by
  have equals : (byte == equalsByte) = (c == '=') :=
    beq_ascii_of_mem '=' (by decide) member
  rw [notComma_of_mem c byte member, isKeyEnd, bne, bne, equals, Bool.not_or]

theorem isAscii_of_isQuote {c : Char} (isQuoted : isQuote c = true) : c.toNat < 128 := by
  simp only [isQuote, Bool.or_eq_true, beq_iff_eq] at isQuoted
  cases isQuoted with
  | inl single =>
      rw [single]
      decide
  | inr double =>
      rw [double]
      decide

/-- The byte behind a quoted value tells whether a comma follows. -/
theorem any_notComma (front rest : Text) :
    (Utf8.encode (front ++ rest))[Utf8.byteLength front]?.any (· != commaByte) =
      rest.head?.any (· != ',') := by
  cases rest with
  | nil =>
      rw [List.append_nil, getElem?_encode_nil]
      rfl
  | cons c rest =>
      obtain ⟨byte, member, found⟩ := exists_getElem?_encode front c rest
      rw [found]
      exact notComma_of_mem c byte member

theorem valueEnd_encode (front text : Text) :
    valueEnd (Utf8.encode (front ++ text)) (Utf8.byteLength front) =
      (scanValue text).map fun scanned => Utf8.byteLength (front ++ scanned.1) := by
  cases text with
  | nil =>
      unfold valueEnd
      rw [List.append_nil, getElem?_encode_nil]
      simp [scanValue, Except.map]
  | cons first text =>
      obtain ⟨byte, member, found⟩ := exists_getElem?_encode front first text
      unfold valueEnd scanValue
      rw [found]
      simp only [isQuoteByte_of_mem member]
      cases quoted : isQuote first with
      | false =>
          simp only [Bool.false_eq_true, ↓reduceIte, skipWhile_encode notComma_of_mem, Except.map]
      | true =>
          have isAscii := isAscii_of_isQuote quoted
          rw [Utf8.encodeChar_ascii isAscii, List.mem_singleton] at member
          have oneByte := congrArg List.length (Utf8.encodeChar_ascii isAscii)
          rw [String.length_utf8EncodeChar, List.length_singleton] at oneByte
          have behind : Utf8.byteLength front + 1 = Utf8.byteLength (front ++ [first]) := by
            simp [oneByte]
          simp only [↓reduceIte, member, behind]
          rw [List.append_cons]
          by_cases present : first ∈ text
          · obtain ⟨left, right, rfl, absent⟩ := List.eq_append_cons_of_mem present
            rw [findBehind_encode isAscii _ _ absent, Delimited.dropWhile_append_cons _ absent,
              Delimited.takeWhile_append_cons _ absent]
            have joined : front ++ [first] ++ (left ++ first :: right) =
                front ++ [first] ++ (left ++ [first]) ++ right := by simp
            simp only [Bool.not_true, Bool.false_eq_true, ↓reduceIte, joined, any_notComma]
            split
            · rfl
            · simp [Except.map]
          · rw [findBehind_encode_of_not_mem isAscii _ present,
              Delimited.dropWhile_of_not_mem present]
            rfl

theorem fieldEnd_encode (front text : Text) :
    fieldEnd (Utf8.encode (front ++ text)) (Utf8.byteLength front) =
      (scanField text).map fun scanned => Utf8.byteLength (front ++ scanned.1) := by
  unfold fieldEnd scanField
  simp only [skipWhile_encode notKeyEnd_of_mem]
  have joined : front ++ text = front ++ text.takeWhile (!isKeyEnd ·) ++
      text.dropWhile (!isKeyEnd ·) := by
    rw [List.append_assoc, List.takeWhile_append_dropWhile]
  rw [joined]
  generalize text.takeWhile (!isKeyEnd ·) = key
  cases behind : text.dropWhile (!isKeyEnd ·) with
  | nil =>
      rw [List.append_nil, getElem?_encode_nil]
      rfl
  | cons first rest =>
      obtain ⟨byte, member, found⟩ := exists_getElem?_encode (front ++ key) first rest
      have isEquals : (byte == equalsByte) = (first == '=') :=
        beq_ascii_of_mem '=' (by decide) member
      by_cases equals : first = '='
      · subst equals
        have sameByte : byte = equalsByte := by simpa using isEquals
        have value := valueEnd_encode (front ++ key ++ ['=']) rest
        rw [List.append_assoc _ ['='], List.singleton_append] at value
        rw [found, sameByte]
        simp only [beq_self_eq_true, ↓reduceIte]
        have behindEquals : Utf8.byteLength (front ++ key) + 1 =
            Utf8.byteLength (front ++ key ++ ['=']) := by
          simp [show '='.utf8Size = 1 from rfl, Nat.add_assoc]
        rw [behindEquals, value]
        cases scanValue rest with
        | error error => rfl
        | ok scanned => simp [Except.map]
      · have otherByte : (some byte == some equalsByte) = false := by
          simpa [equals] using isEquals
        rw [found, otherByte]
        have others : ∀ text, first :: rest = '=' :: text → False := by
          intro text same
          exact equals (List.cons.inj same).1
        split
        · contradiction
        · split
          · rename_i same
            exact absurd same (others _)
          · rfl

theorem splitFieldsFrom_error {raw : Text} {fields : List Text} {idx : Nat} {error : FieldError}
    (failed : fieldEnd (Utf8.encode raw) idx = .error error) :
    splitFieldsFrom raw fields idx = some (.error error) := by
  unfold splitFieldsFrom
  split
  · rename_i other found
    rw [failed] at found
    cases found
    rfl
  · rename_i stop found
    rw [failed] at found
    cases found

theorem splitFieldsFrom_ok {raw : Text} {fields : List Text} {idx stop : Nat}
    (ended : fieldEnd (Utf8.encode raw) idx = .ok stop) :
    splitFieldsFrom raw fields idx = (slice? raw idx stop).bind fun field =>
      if stop < Utf8.byteLength raw then splitFieldsFrom raw (fields ++ [field]) (stop + 1)
      else some (.ok (fields ++ [field])) := by
  conv => lhs; unfold splitFieldsFrom
  split
  · rename_i error found
    rw [ended] at found
    cases found
  · rename_i other found
    rw [ended] at found
    cases found
    rfl

/-- The loop over the bytes is the split of the text behind them. -/
theorem splitFieldsFrom_eq (raw front text : Text) (fields : List Text)
    (whole : raw = front ++ text) :
    splitFieldsFrom raw fields (Utf8.byteLength front) =
      some ((splitFields text).map (fields ++ ·)) := by
  have ended := fieldEnd_encode front text
  rw [← whole] at ended
  induction text using splitFields.induct generalizing front fields with
  | case1 text error failed =>
      rw [failed] at ended
      rw [splitFields_error failed, splitFieldsFrom_error ended]
      rfl
  | case2 text field scanned =>
      have fieldEnds := scanField_append scanned
      rw [List.append_nil] at fieldEnds
      have slice := slice?_append front field []
      rw [List.append_nil, fieldEnds, ← whole] at slice
      have stops : fieldEnd (Utf8.encode raw) (Utf8.byteLength front) =
          .ok (Utf8.byteLength raw) := by
        rw [ended, scanned, fieldEnds, whole]
        rfl
      rw [splitFields_last scanned, splitFieldsFrom_ok stops, slice, Option.bind_some,
        if_neg (Nat.lt_irrefl _), fieldEnds]
      rfl
  | case3 text field separator rest scanned ih =>
      have fieldEnds := scanField_append scanned
      have comma : separator = ',' := scanField_behind scanned separator rfl
      have slice := slice?_append front field (separator :: rest)
      rw [List.append_assoc, fieldEnds, ← whole] at slice
      have position : Utf8.byteLength (front ++ field) + 1 =
          Utf8.byteLength (front ++ field ++ [separator]) := by
        simp [comma, show ','.utf8Size = 1 from rfl, Nat.add_assoc]
      have joined : raw = front ++ field ++ [separator] ++ rest := by
        rw [whole, ← fieldEnds]
        simp
      have before : Utf8.byteLength (front ++ field) < Utf8.byteLength raw := by
        rw [joined, Utf8.byteLength_append _ rest, ← position]
        omega
      have next := fieldEnd_encode (front ++ field ++ [separator]) rest
      rw [← joined] at next
      have stops : fieldEnd (Utf8.encode raw) (Utf8.byteLength front) =
          .ok (Utf8.byteLength (front ++ field)) := by
        rw [ended, scanned]
        rfl
      rw [splitFields_cons scanned, splitFieldsFrom_ok stops, slice, Option.bind_some,
        if_pos before, position, ih _ (fields ++ [field]) joined next]
      cases splitFields rest with
      | error error => rfl
      | ok others => simp [Except.map]

/-- The scan ends without a slice that cuts a character, and finds the fields. -/
theorem splitSupportingDataBytes_eq (raw : Text) :
    splitSupportingDataBytes raw = some (splitSupportingDataFields raw) := by
  unfold splitSupportingDataBytes splitSupportingDataFields
  have loop := splitFieldsFrom_eq raw [] raw [] rfl
  rw [Utf8.byteLength_nil] at loop
  rw [loop]
  cases splitFields raw <;> rfl

end AzureInit.Cli
