import AzureInit.Foundation.Utf8Text

/-! One record of separated values. A field is written plainly or between double
quotes; quotes inside it are doubled. -/

set_option autoImplicit false

namespace AzureInit.Foundation.Csv

/-- Characters that a field holds between quotes only. -/
def isSpecial (delimiter c : Char) : Bool :=
  c == delimiter || c == '"' || c == '\r' || c == '\n'

def escapeChar (c : Char) : Text := if c == '"' then ['"', '"'] else [c]

def quoted (field : Text) : Text := '"' :: (field.flatMap escapeChar ++ ['"'])

/-- A field with quotes around it only where it needs them. -/
def writeField (delimiter : Char) (field : Text) : Text :=
  if field.any (isSpecial delimiter) then quoted field else field

/-- The text of a record without its line end. -/
def line (delimiter : Char) (fields : List Text) : Text :=
  [delimiter].intercalate (fields.map (writeField delimiter))

/-- The texts in which a field can be written. -/
inductive Form (delimiter : Char) : Text → Text → Prop where
  | plain {field : Text} : (∀ c ∈ field, isSpecial delimiter c = false) →
      Form delimiter field field
  | quoted {field : Text} : Form delimiter field (quoted field)

theorem writeField_form (delimiter : Char) (field : Text) :
    Form delimiter field (writeField delimiter field) := by
  unfold writeField
  split
  · exact .quoted
  · rename_i noSpecial
    apply Form.plain
    simpa using noSpecial

theorem line_forms (delimiter : Char) (fields : List Text) :
    List.Forall₂ (Form delimiter) fields (fields.map (writeField delimiter)) := by
  induction fields with
  | nil => exact .nil
  | cons field fields ih => exact .cons (writeField_form delimiter field) ih

theorem writeField_ne_nil {delimiter : Char} {field : Text} (given : field ≠ []) :
    writeField delimiter field ≠ [] := by
  unfold writeField
  split
  · exact List.cons_ne_nil _ _
  · exact given

theorem mem_flatMap_escapeChar {field : Text} {c : Char} :
    c ∈ field.flatMap escapeChar ↔ c ∈ field := by
  have kept : ∀ other : Char, c ∈ escapeChar other ↔ c = other := by
    intro other
    unfold escapeChar
    split
    · rename_i isQuote
      simp [beq_iff_eq.mp isQuote]
    · simp
  simp [List.mem_flatMap, kept]

/-- Writing a field adds nothing to it but quotes. -/
theorem mem_form {delimiter c : Char} {field text : Text} (form : Form delimiter field text)
    (notQuote : c ≠ '"') : c ∈ text ↔ c ∈ field := by
  cases form with
  | plain _ => rfl
  | quoted => simp only [quoted, List.mem_cons, List.mem_append, mem_flatMap_escapeChar,
      notQuote, List.not_mem_nil, or_false, false_or]

theorem mem_forms {delimiter c : Char} {fields texts : List Text}
    (forms : List.Forall₂ (Form delimiter) fields texts) (notQuote : c ≠ '"') {field : Text}
    (isField : field ∈ fields) (member : c ∈ field) : c ∈ [delimiter].intercalate texts := by
  induction forms with
  | nil => cases isField
  | cons form forms ih =>
      cases forms with
      | nil =>
          rw [List.mem_singleton.mp isField] at member
          rw [List.intercalate_singleton]
          exact (mem_form form notQuote).mpr member
      | cons next others =>
          rw [List.intercalate_cons_cons, List.mem_append]
          cases List.mem_cons.mp isField with
          | inl first =>
              rw [first] at member
              exact .inl (List.mem_append_left _ ((mem_form form notQuote).mpr member))
          | inr later => exact .inr (ih later)

theorem getLast?_form {delimiter : Char} {field text : Text} (form : Form delimiter field text) :
    text.getLast? ≠ some '\n' := by
  intro last
  cases form with
  | plain plain =>
      have noSpecial := plain '\n' (List.mem_of_getLast? last)
      simp [isSpecial] at noSpecial
  | quoted =>
      rw [quoted, ← List.cons_append, List.getLast?_concat] at last
      cases last

/-- Only the delimiter can put a line feed at the end of a record. -/
theorem getLast?_forms {delimiter : Char} (notLineFeed : delimiter ≠ '\n')
    {fields texts : List Text} (forms : List.Forall₂ (Form delimiter) fields texts) :
    ([delimiter].intercalate texts).getLast? ≠ some '\n' := by
  induction forms with
  | nil => simp
  | cons form forms ih =>
      cases forms with
      | nil =>
          rw [List.intercalate_singleton]
          exact getLast?_form form
      | cons next others =>
          rw [List.intercalate_cons_cons, List.getLast?_append]
          cases last : ([delimiter].intercalate _).getLast? with
          | none => simpa using notLineFeed
          | some c =>
              rw [last] at ih
              exact ih

/-! ## Cut records -/

private theorem front_append {front left right : Text} (isFront : front <+: left ++ right) :
    front <+: left ∨ ∃ behind, front = left ++ behind ∧ behind <+: right := by
  rcases List.prefix_or_prefix_of_prefix isFront (List.prefix_append left right) with inside | beyond
  · exact .inl inside
  · obtain ⟨behind, rfl⟩ := beyond
    exact .inr ⟨behind, rfl, (List.prefix_append_right_inj left).mp isFront⟩

/-- A front of a record is some whole fields and a front of the next one. -/
theorem front_intercalate {delimiter : Char} {texts : List Text} {front : Text}
    (given : texts ≠ []) (isFront : front <+: [delimiter].intercalate texts) :
    ∃ whole text rest cut, texts = whole ++ text :: rest ∧ cut <+: text ∧
      front = [delimiter].intercalate (whole ++ [cut]) := by
  induction texts generalizing front with
  | nil => exact absurd rfl given
  | cons text texts ih =>
      cases texts with
      | nil =>
          rw [List.intercalate_singleton] at isFront
          exact ⟨[], text, [], front, rfl, isFront, by simp⟩
      | cons next texts =>
          rw [List.intercalate_cons_cons, List.append_assoc] at isFront
          rcases front_append isFront with inside | beyond
          · exact ⟨[], text, next :: texts, front, rfl, inside, by simp⟩
          · obtain ⟨behind, rfl, isRest⟩ := beyond
            cases behind with
            | nil => exact ⟨[], text, next :: texts, text, rfl, List.prefix_rfl, by simp⟩
            | cons first behind =>
                rw [List.singleton_append, List.cons_prefix_cons] at isRest
                obtain ⟨rfl, isRest⟩ := isRest
                obtain ⟨whole, last, rest, cut, split, isCut, rfl⟩ := ih (by simp) isRest
                refine ⟨text :: whole, last, rest, cut, by rw [split]; rfl, isCut, ?_⟩
                cases whole with
                | nil => simp [List.intercalate_cons_cons]
                | cons one others => simp [List.intercalate_cons_cons]

theorem intercalate_concat {delimiter : Char} {texts : List Text} (given : texts ≠ [])
    (text : Text) :
    [delimiter].intercalate (texts ++ [text]) =
      [delimiter].intercalate texts ++ delimiter :: text := by
  induction texts with
  | nil => exact absurd rfl given
  | cons first texts ih =>
      cases texts with
      | nil => simp [List.intercalate_cons_cons]
      | cons next texts =>
          have rest := ih (by simp)
          simp only [List.cons_append, List.intercalate_cons_cons] at rest ⊢
          rw [rest]
          simp

/-- The only front of a written field that is a text of the field is the whole. -/
theorem eq_writeField_of_form {delimiter : Char} {field text : Text}
    (form : Form delimiter field text) (isFront : text <+: writeField delimiter field) :
    text = writeField delimiter field := by
  unfold writeField at isFront ⊢
  split at isFront
  · rename_i special
    cases form with
    | plain plain =>
        obtain ⟨c, member, isSpecial⟩ := List.any_eq_true.mp special
        rw [plain c member] at isSpecial
        cases isSpecial
    | quoted => rw [if_pos special]
  · rename_i noSpecial
    rw [if_neg noSpecial]
    cases form with
    | plain plain => rfl
    | quoted =>
        have quote : '"' ∈ field := isFront.subset (List.mem_cons_self)
        apply absurd _ noSpecial
        rw [List.any_eq_true]
        exact ⟨'"', quote, by simp [isSpecial]⟩

/-! ## Reading -/

inductive ReadState where
  | start
  | unquoted
  | quoted
  | closed
  deriving DecidableEq, Repr

def isLineEnd (c : Char) : Bool := c == '\r' || c == '\n'

/-- The fields up to the first line end outside quotes, the first of them begun already. -/
def readFields (delimiter : Char) : ReadState → Text → Text → List Text
  | _, field, [] => [field]
  | .quoted, field, c :: rest =>
      if c == '"' then readFields delimiter .closed field rest
      else readFields delimiter .quoted (field ++ [c]) rest
  | state, field, c :: rest =>
      if c == '"' && state == .start then readFields delimiter .quoted field rest
      else if c == '"' && state == .closed then
        readFields delimiter .quoted (field ++ ['"']) rest
      else if c == delimiter then field :: readFields delimiter .start [] rest
      else if isLineEnd c then [field]
      else readFields delimiter .unquoted (field ++ [c]) rest

/-- The first record, blank lines in front of it skipped. -/
def readRecord? (delimiter : Char) (text : Text) : Option (List Text) :=
  match text.dropWhile isLineEnd with
  | [] => none
  | c :: rest => some (readFields delimiter .start [] (c :: rest))

/-- The fields of `readFields` and what stands from the line end behind them on. -/
def scanFields (delimiter : Char) : ReadState → Text → Text → List Text × Text
  | _, field, [] => ([field], [])
  | .quoted, field, c :: rest =>
      if c == '"' then scanFields delimiter .closed field rest
      else scanFields delimiter .quoted (field ++ [c]) rest
  | state, field, c :: rest =>
      if c == '"' && state == .start then scanFields delimiter .quoted field rest
      else if c == '"' && state == .closed then
        scanFields delimiter .quoted (field ++ ['"']) rest
      else if c == delimiter then
        let (fields, behind) := scanFields delimiter .start [] rest
        (field :: fields, behind)
      else if isLineEnd c then ([field], c :: rest)
      else scanFields delimiter .unquoted (field ++ [c]) rest

/-- The first record and what is left of the text behind it. -/
def scanRecord? (delimiter : Char) (text : Text) : Option (List Text × Text) :=
  match text.dropWhile isLineEnd with
  | [] => none
  | c :: rest => some (scanFields delimiter .start [] (c :: rest))

section Reading

variable {delimiter : Char}

theorem readFields_plain {state : ReadState} {field text : Text} (rest : Text)
    (outside : state = .start ∨ state = .unquoted)
    (plain : ∀ c ∈ text, isSpecial delimiter c = false) :
    ∃ after, (after = .start ∨ after = .unquoted) ∧
      readFields delimiter state field (text ++ rest) =
        readFields delimiter after (field ++ text) rest := by
  induction text generalizing state field with
  | nil => exact ⟨state, outside, by simp⟩
  | cons c text ih =>
      obtain ⟨here, later⟩ := List.forall_mem_cons.mp plain
      obtain ⟨after, still, read⟩ := @ih .unquoted (field ++ [c]) (.inr rfl) later
      refine ⟨after, still, ?_⟩
      simp only [isSpecial, Bool.or_eq_false_iff] at here
      obtain ⟨⟨⟨notDelimiter, notQuote⟩, notReturn⟩, notFeed⟩ := here
      rw [List.append_cons field c text, ← read]
      rcases outside with rfl | rfl <;>
        simp [readFields, notDelimiter, notQuote, isLineEnd, notReturn, notFeed]

theorem readFields_escaped (field body rest : Text) :
    readFields delimiter .quoted field (body.flatMap escapeChar ++ rest) =
      readFields delimiter .quoted (field ++ body) rest := by
  induction body generalizing field with
  | nil => simp
  | cons c body ih =>
      rw [List.flatMap_cons, List.append_assoc, List.append_cons field c body, ← ih]
      unfold escapeChar
      split
      · rename_i isQuote
        simp [readFields, beq_iff_eq.mp isQuote]
      · rename_i notQuote
        simp [readFields, notQuote]

theorem readFields_form {field text : Text} (form : Form delimiter field text) (rest : Text) :
    ∃ after, after ≠ .quoted ∧
      (rest = [] ∨ (∃ behind, rest = delimiter :: behind) →
        readFields delimiter .start [] (text ++ rest) =
          readFields delimiter after field rest) := by
  cases form with
  | plain plain =>
      obtain ⟨after, outside, read⟩ := @readFields_plain delimiter .start [] field rest
        (.inl rfl) plain
      refine ⟨after, ?_, fun _ => read⟩
      rcases outside with rfl | rfl <;> decide
  | quoted =>
      refine ⟨.closed, by decide, fun _ => ?_⟩
      have opened : readFields delimiter .start [] (Csv.quoted field ++ rest) =
          readFields delimiter .quoted [] (field.flatMap escapeChar ++ ('"' :: rest)) := by
        simp [Csv.quoted, readFields]
      rw [opened, readFields_escaped]
      simp [readFields]

theorem readFields_delimiter {state : ReadState} {field rest : Text}
    (outside : state ≠ .quoted) (notQuote : delimiter ≠ '"') :
    readFields delimiter state field (delimiter :: rest) =
      field :: readFields delimiter .start [] rest := by
  cases state with
  | quoted => exact absurd rfl outside
  | start => simp [readFields, notQuote]
  | unquoted => simp [readFields, notQuote]
  | closed => simp [readFields, notQuote]

/-- Every text of a record is read as its fields. -/
theorem readFields_forms {fields texts : List Text} (notQuote : delimiter ≠ '"')
    (given : fields ≠ []) (forms : List.Forall₂ (Form delimiter) fields texts) :
    readFields delimiter .start [] ([delimiter].intercalate texts) = fields := by
  induction forms with
  | nil => exact absurd rfl given
  | @cons field text fields texts form forms ih =>
      cases forms with
      | nil =>
          obtain ⟨after, -, read⟩ := readFields_form form []
          have whole := read (.inl rfl)
          rw [List.append_nil] at whole
          rw [List.intercalate_singleton, whole]
          cases after <;> rfl
      | cons next others =>
          obtain ⟨after, outside, read⟩ := readFields_form form _
          rw [List.intercalate_cons_cons, List.append_assoc, List.singleton_append,
            read (.inr ⟨_, rfl⟩), readFields_delimiter outside notQuote,
            ih (List.cons_ne_nil _ _)]

theorem head_form {field text : Text} {c : Char} (form : Form delimiter field text)
    (first : text.head? = some c) : isLineEnd c = false := by
  cases form with
  | plain plain =>
      have noSpecial := plain c (List.mem_of_mem_head? first)
      simp only [isSpecial, Bool.or_eq_false_iff] at noSpecial
      simp [isLineEnd, noSpecial.1.2, noSpecial.2]
  | quoted =>
      obtain rfl : '"' = c := Option.some.inj first
      rfl

/-- A record of more than one empty field is read from each of its texts. -/
theorem readRecord?_forms {fields texts : List Text} (notQuote : delimiter ≠ '"')
    (notLineEnd : isLineEnd delimiter = false) (given : fields ≠ [])
    (notBlank : texts ≠ [[]]) (forms : List.Forall₂ (Form delimiter) fields texts) :
    readRecord? delimiter ([delimiter].intercalate texts) = some fields := by
  have read := readFields_forms notQuote given forms
  have first : ∃ c rest, [delimiter].intercalate texts = c :: rest ∧ isLineEnd c = false := by
    cases forms with
    | nil => exact absurd rfl given
    | @cons field text fields texts form forms =>
        cases text with
        | cons c text =>
            have noLineEnd := head_form form rfl
            cases texts with
            | nil => exact ⟨c, text, by simp, noLineEnd⟩
            | cons next texts =>
                exact ⟨c, text ++ [delimiter] ++ [delimiter].intercalate (next :: texts),
                  by simp [List.intercalate_cons_cons], noLineEnd⟩
        | nil =>
            cases texts with
            | nil => exact absurd rfl notBlank
            | cons next texts =>
                exact ⟨delimiter, [delimiter].intercalate (next :: texts),
                  by simp [List.intercalate_cons_cons], notLineEnd⟩
  obtain ⟨c, rest, text, noLineEnd⟩ := first
  rw [text] at read ⊢
  unfold readRecord?
  rw [List.dropWhile_cons_of_neg (by simp [noLineEnd])]
  exact congrArg some read

theorem scanFields_fst (state : ReadState) (field text : Text) :
    (scanFields delimiter state field text).1 = readFields delimiter state field text := by
  fun_induction readFields delimiter state field text <;> grind [scanFields]

theorem scanRecord?_fst (text : Text) :
    (scanRecord? delimiter text).map (·.1) = readRecord? delimiter text := by
  unfold scanRecord? readRecord?
  split
  · rfl
  · exact congrArg some (scanFields_fst _ _ _)

/-- Reading adds nothing to a text. -/
theorem readFields_subset (state : ReadState) (field text : Text) :
    ∀ read ∈ readFields delimiter state field text, ∀ c ∈ read, c ∈ field ∨ c ∈ text := by
  fun_induction readFields delimiter state field text <;> grind

theorem readRecord?_subset {text : Text} {fields : List Text}
    (read : readRecord? delimiter text = some fields) :
    ∀ field ∈ fields, ∀ c ∈ field, c ∈ text := by
  unfold readRecord? at read
  have behind : ∀ c ∈ text.dropWhile isLineEnd, c ∈ text := fun c member =>
    (List.dropWhile_sublist _).subset member
  split at read
  · cases read
  · rename_i c rest kept
    obtain rfl := Option.some.inj read
    intro field member c inField
    rcases readFields_subset _ _ _ field member c inField with inNothing | inside
    · cases inNothing
    · rw [← kept] at inside
      exact behind c inside

end Reading

end AzureInit.Foundation.Csv
