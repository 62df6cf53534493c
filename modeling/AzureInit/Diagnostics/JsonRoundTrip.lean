import AzureInit.Diagnostics.JsonTextProperties

/-! Printed JSON text is read as the value that was printed. -/

set_option autoImplicit false

namespace AzureInit.Diagnostics.Json

open Foundation
open Foundation.Reader

/-! ## Strings -/

/-- How a character is printed between quotes. -/
def escapeChar (c : Char) : Text :=
  if c = '"' ∨ c = '\\' then ['\\', c]
  else if c = '\n' then "\\n".toList
  else if c = '\r' then "\\r".toList
  else if c = '\t' then "\\t".toList
  else if c = '\x08' then "\\b".toList
  else if c = '\x0c' then "\\f".toList
  else if c < ' ' then
    "\\u00".toList ++ (Nat.toDigits 16 c.toNat).leftpad 2 '0'
  else [c]

theorem printString_eq (text : Text) :
    printString text = '"' :: (text.flatMap escapeChar ++ ['"']) := rfl

/-- The three ways to print a character. -/
inductive IsEscape (c : Char) : Text → Prop where
  | plain : c ≠ '"' → c ≠ '\\' → ' ' ≤ c → IsEscape c [c]
  | short {escape : Char} : escape ≠ 'u' → simpleEscape? escape = some c →
      IsEscape c ['\\', escape]
  | unit {high low : Char} {highValue lowValue : Nat} : hexDigit? high = some highValue →
      hexDigit? low = some lowValue → c.toNat = highValue * 16 + lowValue →
      c.toNat < 32 → IsEscape c ['\\', 'u', '0', '0', high, low]

theorem hexDigits_of_lt : ∀ code < 32, ∃ high low highValue lowValue,
    (Nat.toDigits 16 code).leftpad 2 '0' = [high, low] ∧ hexDigit? high = some highValue ∧
      hexDigit? low = some lowValue ∧ code = highValue * 16 + lowValue := by
  intro code few
  interval_cases code <;> exact ⟨_, _, _, _, rfl, rfl, rfl, rfl⟩

theorem isEscape_escapeChar (c : Char) : IsEscape c (escapeChar c) := by
  unfold escapeChar
  split_ifs with quoted newline carriage tab backspace feed control
  · rcases quoted with rfl | rfl
    · exact .short (by decide) rfl
    · exact .short (by decide) rfl
  · subst newline
    exact .short (by decide) rfl
  · subst carriage
    exact .short (by decide) rfl
  · subst tab
    exact .short (by decide) rfl
  · subst backspace
    exact .short (by decide) rfl
  · subst feed
    exact .short (by decide) rfl
  · have few : c.toNat < 32 := control
    obtain ⟨high, low, highValue, lowValue, digits, isHigh, isLow, same⟩ :=
      hexDigits_of_lt c.toNat few
    rw [digits]
    exact .unit isHigh isLow same few
  · rw [not_or] at quoted
    exact .plain quoted.1 quoted.2 (Char.not_lt.mp control)

theorem pieces_short {escape c : Char} (notUnit : escape ≠ 'u')
    (short : simpleEscape? escape = some c) (rest : Text) :
    pieces ('\\' :: escape :: rest) = (pieces rest).map (.char c :: ·) := by
  rw [pieces.eq_def]
  simp only [if_pos]
  split
  · rename_i same
    cases same
    exact absurd rfl notUnit
  · rename_i same
    cases same
    rw [short]
    cases pieces rest <;> rfl
  · rename_i same
    cases same

theorem hexDigit?_zero : hexDigit? '0' = some 0 := rfl

theorem pieces_unit {high low : Char} {highValue lowValue : Nat}
    (isHigh : hexDigit? high = some highValue) (isLow : hexDigit? low = some lowValue)
    (rest : Text) :
    pieces ('\\' :: 'u' :: '0' :: '0' :: high :: low :: rest) =
      (pieces rest).map (.unit (highValue * 16 + lowValue) :: ·) := by
  have digits : ['0', '0', high, low].foldlM (fun value digit =>
      (hexDigit? digit).map (value * 16 + ·)) 0 = some (highValue * 16 + lowValue) := by
    simp [hexDigit?_zero, isHigh, isLow]
  rw [pieces.eq_def]
  simp only [if_pos, digits]
  cases pieces rest <;> rfl

theorem joinPieces_unit {code : Nat} (noSurrogate : code < 0xd800) (rest : List Piece) :
    joinPieces (.unit code :: rest) = (joinPieces rest).map (Char.ofNat code :: ·) := by
  have notHigh : ¬(0xd800 ≤ code ∧ code < 0xdc00) := by omega
  have notLow : ¬(0xdc00 ≤ code ∧ code < 0xe000) := by omega
  rw [joinPieces.eq_def]
  simp only [if_neg notHigh, if_neg notLow]

/-- What is printed for a character is read as this character, and what is behind it stays. -/
theorem unescape_append {c : Char} {escaped : Text} (isEscape : IsEscape c escaped) (rest : Text) :
    unescape (escaped ++ rest) = (unescape rest).map (c :: ·) := by
  unfold unescape
  cases isEscape with
  | plain notQuote notEscape printable =>
      have visible : ¬(c = '"' ∨ c < ' ') := not_or.mpr ⟨notQuote, Char.not_lt.mpr printable⟩
      rw [List.singleton_append, pieces.eq_def]
      simp only [if_neg notEscape, if_neg visible]
      cases pieces rest <;> rfl
  | @short escape notUnit short =>
      rw [List.cons_append, List.singleton_append, pieces_short notUnit short]
      cases pieces rest <;> rfl
  | @unit high low highValue lowValue isHigh isLow same few =>
      simp only [List.cons_append, List.nil_append]
      rw [pieces_unit isHigh isLow, ← same]
      cases pieces rest with
      | none => rfl
      | some others =>
          rw [Option.map_some, Option.bind_some, Option.bind_some, joinPieces_unit (by omega),
            Char.ofNat_toNat]

theorem unescape_flatMap (text : Text) : unescape (text.flatMap escapeChar) = some text := by
  induction text with
  | nil => rfl
  | cons c text ih =>
      rw [List.flatMap_cons, unescape_append (isEscape_escapeChar c), ih]
      rfl

theorem isBody_append {c : Char} {escaped rest : Text} (isEscape : IsEscape c escaped)
    (isBody : IsBody rest) : IsBody (escaped ++ rest) := by
  cases isEscape with
  | plain notQuote notEscape printable => exact .char notQuote notEscape printable isBody
  | short _ short => exact .escape (by rw [short]; rfl) isBody
  | unit isHigh isLow _ _ =>
      refine .unit ?_ isBody
      simp [hexDigit?_zero, isHigh, isLow]

theorem isBody_flatMap (text : Text) : IsBody (text.flatMap escapeChar) := by
  induction text with
  | nil => exact .nil
  | cons c text ih =>
      rw [List.flatMap_cons]
      exact isBody_append (isEscape_escapeChar c) ih

theorem string_printed (text rest : Text) :
    string (text.flatMap escapeChar ++ '"' :: rest) = some (text, rest) := by
  rw [string_of_isBody (isBody_flatMap text), unescape_flatMap]
  rfl

/-! ## Values -/

section Values

variable (numberOf : Text → Option Number) (printFloat : Float → Text)

/-- The number is read as it is printed. -/
structure ReadsNumber (number : Number) (first : Char) (rest : Text) : Prop where
  printed : printNumber printFloat number = first :: rest
  starts : first = '-' ∨ first.isDigit = true
  inNumber : ∀ c ∈ rest, isNumberChar c = true
  read : numberOf (first :: rest) = some number

/-- The values, nested no deeper than a bound, that are read as they are printed. -/
inductive Legible : Nat → Value → Prop where
  | null {depth : Nat} : Legible depth .null
  | bool {depth : Nat} (value : Bool) : Legible depth (.bool value)
  | number {depth : Nat} {number : Number} {first : Char} {rest : Text} :
      ReadsNumber numberOf printFloat number first rest → Legible depth (.number number)
  | string {depth : Nat} (text : Text) : Legible depth (.string text)
  | array {depth : Nat} {elements : List Value} :
      (∀ element ∈ elements, Legible depth element) → Legible (depth + 1) (.array elements)
  | object {depth : Nat} {members : List (Text × Value)} : SortedMap.Sorted members →
      (∀ member ∈ members, Legible depth member.2) → Legible (depth + 1) (.object members)

instance : IsStrictTotalOrder Text (· < ·) where
  trichotomous := (List.Lex.trichotomous (· < ·)).trichotomous
  irrefl := List.lt_irrefl
  trans _ _ _ := List.lt_trans

theorem printElements_eq_map (elements : List Value) :
    printElements printFloat elements = elements.map (printCompact printFloat) := by
  induction elements with
  | nil => rfl
  | cons element elements ih => rw [printElements, ih, List.map_cons]

def printMember (member : Text × Value) : Text :=
  printString member.1 ++ ':' :: printCompact printFloat member.2

theorem printMembers_eq_map (members : List (Text × Value)) :
    printMembers printFloat members = members.map (printMember printFloat) := by
  induction members with
  | nil => rfl
  | cons member members ih => rw [printMembers, ih, List.map_cons, printMember]

/-- The text of a value begins like none of the closing characters, and is read wherever no
number goes on behind it. -/
def ReadsBack (depth : Nat) (printed : Value) : Prop :=
  ∃ first tail, printCompact printFloat printed = first :: tail ∧ isSpace first = false ∧
    first ≠ ']' ∧ first ≠ '\x7d' ∧
    ∀ fuel, tail.length ≤ fuel → ∀ rest, (∀ c ∈ rest.head?, isNumberChar c = false) →
      value numberOf fuel depth first (tail ++ rest) = some (printed, rest)

variable {numberOf printFloat}

theorem readsBack_string (depth : Nat) (text : Text) :
    ReadsBack numberOf printFloat depth (.string text) := by
  refine ⟨'"', text.flatMap escapeChar ++ ['"'], rfl, by decide, by decide, by decide, ?_⟩
  intro fuel _ rest _
  rw [value_scalar (by decide) (by decide), List.append_assoc, List.singleton_append,
    scalar_string (isBody_flatMap text), unescape_flatMap]
  rfl

theorem readsBack_word {depth : Nat} {printed : Value} {first : Char} {tail : Text}
    (text : printCompact printFloat printed = first :: tail)
    (known : first = 't' ∨ first = 'f' ∨ first = 'n')
    (read : ∀ rest, scalar numberOf first (tail ++ rest) = some (printed, rest)) :
    ReadsBack numberOf printFloat depth printed := by
  have others : isSpace first = false ∧ first ≠ ']' ∧ first ≠ '\x7d' ∧ first ≠ '[' ∧
      first ≠ '\x7b' := by
    rcases known with rfl | rfl | rfl <;> decide
  obtain ⟨notSpace, notBracket, notBrace, notArray, notObject⟩ := others
  refine ⟨first, tail, text, notSpace, notBracket, notBrace, fun fuel _ rest _ => ?_⟩
  rw [value_scalar notArray notObject]
  exact read rest

theorem readsBack_number {depth : Nat} {number : Number} {first : Char} {digits : Text}
    (reads : ReadsNumber numberOf printFloat number first digits) :
    ReadsBack numberOf printFloat depth (.number number) := by
  have other : ∀ c : Char, c ≠ '-' → c.isDigit = false → first ≠ c := by
    intro c notMinus notDigit same
    rcases reads.starts with minus | digit
    · exact notMinus (same ▸ minus)
    · rw [same, notDigit] at digit
      cases digit
  have notSpace : isSpace first = false := by
    simp [isSpace, other ' ' (by decide) (by decide), other '\t' (by decide) (by decide),
      other '\n' (by decide) (by decide), other '\r' (by decide) (by decide)]
  refine ⟨first, digits, reads.printed, notSpace, other _ (by decide) (by decide),
    other _ (by decide) (by decide), fun fuel _ rest ends => ?_⟩
  have stops : rest.takeWhile isNumberChar = [] ∧ rest.dropWhile isNumberChar = rest := by
    cases rest with
    | nil => exact ⟨rfl, rfl⟩
    | cons c rest => simp [ends c rfl]
  have read : run isNumberChar (digits ++ rest) = some (digits, rest) := by
    rw [run, List.takeWhile_append_of_pos reads.inNumber,
      List.dropWhile_append_of_pos reads.inNumber, stops.1, stops.2, List.append_nil]
  rw [value_scalar (other _ (by decide) (by decide)) (other _ (by decide) (by decide)), scalar,
    if_neg (other _ (by decide) (by decide)), if_neg (other _ (by decide) (by decide)),
    if_neg (other _ (by decide) (by decide)), if_neg (other _ (by decide) (by decide)),
    if_pos reads.starts, bind_apply, read, Option.bind_some, bind_apply, ofOption, reads.read]
  rfl

theorem ReadsBack.shows {depth fuel : Nat} {printed : Value} {close : Char}
    (reads : ReadsBack numberOf printFloat depth printed) (closes : close = ']' ∨ close = '\x7d')
    (enough : (printCompact printFloat printed).length ≤ fuel + 1) :
    Shows isSpace ',' close (value numberOf fuel depth) (printCompact printFloat printed)
      printed := by
  obtain ⟨first, tail, text, notSpace, notBracket, notBrace, read⟩ := reads
  rw [text, List.length_cons] at enough
  refine ⟨first, tail, text, notSpace, ?_, fun c behind rest => ?_⟩
  · rcases closes with rfl | rfl
    · exact notBracket
    · exact notBrace
  · refine read fuel (Nat.le_of_succ_le_succ enough) (c :: rest) fun head same => ?_
    cases same
    rcases behind with rfl | rfl
    · decide
    · rcases closes with rfl | rfl <;> decide

/-- A member is read as its name and its value. -/
theorem shows_member {depth fuel : Nat} {printed : Text × Value}
    (reads : ReadsBack numberOf printFloat depth printed.2)
    (enough : (printMember printFloat printed).length ≤ fuel + 1) :
    Shows isSpace ',' '\x7d' (member (value numberOf fuel depth)) (printMember printFloat printed)
      printed := by
  refine ⟨'"', _, rfl, by decide, by decide, fun c behind rest => ?_⟩
  obtain ⟨first, tail, text, notSpace, -, -, read⟩ := reads
  rw [printMember, printString_eq, text] at enough
  simp only [List.length_append, List.length_cons] at enough
  have shape : (printString printed.1).tail ++ ':' :: printCompact printFloat printed.2 ++
      c :: rest = printed.1.flatMap escapeChar ++ '"' :: (':' :: first :: (tail ++ c :: rest)) := by
    rw [printString_eq, text]
    simp
  have ends : ∀ head ∈ (c :: rest).head?, isNumberChar head = false := by
    intro head same
    cases same
    rcases behind with rfl | rfl <;> decide
  show member _ '"' ((printString printed.1).tail ++ ':' :: printCompact printFloat printed.2 ++
    c :: rest) = _
  rw [shape, member, if_pos rfl, bind_apply, string_printed, Option.bind_some, bind_apply,
    token_cons (by decide), Option.bind_some]
  dsimp only
  rw [if_pos rfl, bind_apply, token_cons notSpace, Option.bind_some, bind_apply,
    read fuel (by omega) _ ends]
  rfl

theorem length_le_of_intercalate {α : Type} {print : α → Text} {values : List α} {value : α}
    (member : value ∈ values) :
    (print value).length ≤ ([','].intercalate (values.map print)).length := by
  have isSummand : (print value).length ∈ (values.map print).map List.length :=
    List.mem_map_of_mem (List.mem_map_of_mem member)
  exact (List.le_sum_of_mem isSummand).trans (Delimited.sum_length_le_intercalate ',' _)

theorem readsBack_array {depth : Nat} {elements : List Value}
    (reads : ∀ element ∈ elements, ReadsBack numberOf printFloat depth element) :
    ReadsBack numberOf printFloat (depth + 1) (.array elements) := by
  refine ⟨'[', [','].intercalate (elements.map (printCompact printFloat)) ++ [']'], ?_, by decide,
    by decide, by decide, fun fuel enough rest _ => ?_⟩
  · rw [printCompact, printElements_eq_map]
  · rw [List.length_append, List.length_singleton] at enough
    rw [value, if_pos rfl, List.append_assoc, List.singleton_append]
    refine closed_intercalate Value.array (fun element member => ?_) (by decide) (by decide)
      (by decide) (Nat.le_of_succ_le enough) rest
    have fits := @length_le_of_intercalate _ (printCompact printFloat) _ _ member
    exact (reads element member).shows (.inl rfl) (by omega)

theorem readsBack_object {depth : Nat} {members : List (Text × Value)}
    (sorted : SortedMap.Sorted members)
    (reads : ∀ member ∈ members, ReadsBack numberOf printFloat depth member.2) :
    ReadsBack numberOf printFloat (depth + 1) (.object members) := by
  refine ⟨'\x7b', [','].intercalate (members.map (printMember printFloat)) ++ ['\x7d'], ?_,
    by decide, by decide, by decide, fun fuel enough rest _ => ?_⟩
  · rw [printCompact, printMembers_eq_map]
  · rw [List.length_append, List.length_singleton] at enough
    have map : SortedMap.insertAll members [] = members := SortedMap.insertAll_of_sorted sorted
    rw [value, if_neg (by decide), if_pos rfl, List.append_assoc, List.singleton_append]
    have shows : ∀ printed ∈ members, Shows isSpace ',' '\x7d'
        (member (value numberOf fuel depth)) (printMember printFloat printed) printed := by
      intro printed inMembers
      have fits := @length_le_of_intercalate _ (printMember printFloat) _ _ inMembers
      exact shows_member (reads printed inMembers) (by omega)
    have read := closed_intercalate (fun members => Value.object (SortedMap.insertAll members []))
      shows (by decide) (by decide) (by decide) (Nat.le_of_succ_le enough) rest
    rwa [map] at read

/-- A value is read from its text, whatever is behind it but the rest of a number. -/
theorem Legible.readsBack {depth : Nat} {printed : Value}
    (legible : Legible numberOf printFloat depth printed) :
    ReadsBack numberOf printFloat depth printed := by
  induction legible with
  | null => exact readsBack_word rfl (.inr (.inr rfl)) fun rest => rfl
  | bool value =>
      cases value with
      | true => exact readsBack_word rfl (.inl rfl) fun rest => rfl
      | false => exact readsBack_word rfl (.inr (.inl rfl)) fun rest => rfl
  | number reads => exact readsBack_number reads
  | string text => exact readsBack_string _ text
  | array _ ih => exact readsBack_array ih
  | object sorted _ ih => exact readsBack_object sorted ih

/-- Printing and reading a value. -/
theorem fromStr_printCompact {printed : Value}
    (legible : Legible numberOf printFloat maxDepth printed) :
    fromStr numberOf (printCompact printFloat printed) = some printed := by
  obtain ⟨first, tail, text, notSpace, -, -, read⟩ := legible.readsBack
  have readValue := read (first :: tail).length (Nat.le_succ _) [] nofun
  rw [List.append_nil] at readValue
  rw [fromStr, text, bind_apply, token_cons notSpace, Option.bind_some, readValue]
  rfl

end Values

end AzureInit.Diagnostics.Json
