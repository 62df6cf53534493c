import AzureInit.Foundation.CsvRecord
import AzureInit.Foundation.FallibleState
import AzureInit.Diagnostics.Report

/-! The quoting automaton on characters. It accepts every record as it is written. -/

set_option autoImplicit false

namespace AzureInit.Diagnostics

open Foundation

/-! ## Characters -/

/-- The byte of an ASCII character; any byte above them stands for the others. -/
def charByte (c : Char) : UInt8 := if c.toNat < 128 then UInt8.ofNat c.toNat else 0x80

theorem charByte_eq_iff {c ascii : Char} (isAscii : ascii.toNat < 128) :
    charByte c = UInt8.ofNat ascii.toNat ↔ c = ascii := by
  unfold charByte
  split
  · rename_i small
    constructor
    · intro same
      rw [← UInt8.toNat_inj, UInt8.toNat_ofNat', UInt8.toNat_ofNat'] at same
      apply Char.ext
      rw [← UInt32.toNat_inj]
      have sameValue : c.toNat = ascii.toNat := by omega
      exact sameValue
    · intro same
      rw [same]
  · rename_i large
    constructor
    · intro same
      rw [← UInt8.toNat_inj, UInt8.toNat_ofNat'] at same
      have value : (0x80 : UInt8).toNat = 128 := rfl
      omega
    · intro same
      rw [same] at large
      exact absurd isAscii large

/-- A step at a byte above ASCII. -/
private def highStep : QuotingState → Except DecodeError QuotingState
  | .quoted => .ok .quoted
  | .closed => .error .malformed
  | _ => .ok .unquoted

private theorem quotingStep_high (state : QuotingState) {byte : UInt8} (high : 128 ≤ byte.toNat) :
    quotingStep state byte = highStep state := by
  have other : ∀ ascii : UInt8, ascii.toNat < 128 → (byte == ascii) = false := by
    intro ascii isAscii
    apply beq_eq_false_iff_ne.mpr
    intro same
    rw [same] at high
    omega
  have notNul := other 0 (by decide)
  have notQuote := other quote (by decide)
  have notPipe := other pipe (by decide)
  have notReturn := other carriageReturn (by decide)
  have notFeed := other lineFeed (by decide)
  cases state <;> simp [quotingStep, highStep, notNul, notQuote, notPipe, notReturn, notFeed]

private theorem foldlM_high {state : QuotingState} {first : UInt8} {rest : List UInt8}
    (high : ∀ byte ∈ first :: rest, 128 ≤ byte.toNat) :
    (first :: rest).foldlM quotingStep state = highStep state := by
  obtain ⟨firstHigh, restHigh⟩ := List.forall_mem_cons.mp high
  rw [List.foldlM_cons, quotingStep_high state firstHigh]
  have again : ∀ after, highStep after = .ok after →
      rest.foldlM quotingStep after = .ok after := by
    intro after fixed
    clear high
    induction rest with
    | nil => rfl
    | cons byte rest ih =>
        obtain ⟨here, later⟩ := List.forall_mem_cons.mp restHigh
        rw [List.foldlM_cons, quotingStep_high after here, fixed]
        exact ih later
  cases state with
  | start => exact again .unquoted rfl
  | unquoted => exact again .unquoted rfl
  | quoted => exact again .quoted rfl
  | closed => rfl

theorem foldlM_encodeChar (state : QuotingState) (c : Char) :
    (String.utf8EncodeChar c).foldlM quotingStep state = quotingStep state (charByte c) := by
  by_cases isAscii : c.toNat < 128
  · rw [Utf8.encodeChar_ascii isAscii, List.foldlM_cons, charByte, if_pos isAscii]
    cases quotingStep state (UInt8.ofNat c.toNat) <;> rfl
  · rw [quotingStep_high state (by simp [charByte, isAscii])]
    cases bytes : String.utf8EncodeChar c with
    | nil => exact absurd bytes String.utf8EncodeChar_ne_nil
    | cons first rest =>
        apply foldlM_high
        intro byte member
        rw [← bytes] at member
        exact Utf8.high_of_mem_encodeChar isAscii member

/-- The step of the automaton on a character. -/
def quotingCharStep (state : QuotingState) (c : Char) : Except DecodeError QuotingState :=
  if c == '\x00' then .error .malformed
  else
    match state with
    | .quoted => .ok (if c == '"' then .closed else .quoted)
    | .start =>
        if c == '"' then .ok .quoted
        else if c == '|' then .ok .start
        else if c == '\r' || c == '\n' then .error .malformed
        else .ok .unquoted
    | .unquoted =>
        if c == '|' then .ok .start
        else if c == '"' || c == '\r' || c == '\n' then .error .malformed
        else .ok .unquoted
    | .closed =>
        if c == '"' then .ok .quoted
        else if c == '|' then .ok .start
        else .error .malformed

theorem quotingStep_charByte (state : QuotingState) (c : Char) :
    quotingStep state (charByte c) = quotingCharStep state c := by
  have sameTest : ∀ ascii : Char, ascii.toNat < 128 →
      (charByte c == UInt8.ofNat ascii.toNat) = (c == ascii) := by
    intro ascii isAscii
    rw [Bool.eq_iff_iff, beq_iff_eq, beq_iff_eq]
    exact charByte_eq_iff isAscii
  have isNul : (charByte c == 0) = (c == '\x00') := sameTest '\x00' (by decide)
  have isQuote : (charByte c == quote) = (c == '"') := sameTest '"' (by decide)
  have isPipe : (charByte c == pipe) = (c == '|') := sameTest '|' (by decide)
  have isReturn : (charByte c == carriageReturn) = (c == '\r') := sameTest '\r' (by decide)
  have isFeed : (charByte c == lineFeed) = (c == '\n') := sameTest '\n' (by decide)
  cases state <;> unfold quotingStep quotingCharStep <;>
    rw [isNul, isQuote, isPipe, isReturn, isFeed]

theorem foldlM_encode (state : QuotingState) (text : Text) :
    (Utf8.encode text).foldlM quotingStep state = text.foldlM quotingCharStep state := by
  induction text generalizing state with
  | nil => rfl
  | cons c text ih =>
      rw [Utf8.encode_cons, List.foldlM_append, foldlM_encodeChar, quotingStep_charByte,
        List.foldlM_cons]
      congr 1
      funext after
      exact ih after

theorem validateReportQuoting_eq_ok_iff {value : Text} :
    validateReportQuoting value = .ok () ↔
      ∃ state, value.foldlM quotingCharStep .start = .ok state ∧ state ≠ .quoted := by
  unfold validateReportQuoting
  rw [foldlM_encode, Fallible.bind_eq_ok_iff]
  constructor
  · intro accepted
    obtain ⟨state, ran, closed⟩ := accepted
    refine ⟨state, ran, ?_⟩
    rintro rfl
    cases closed
  · intro accepted
    obtain ⟨state, ran, closed⟩ := accepted
    refine ⟨state, ran, ?_⟩
    cases state with
    | quoted => exact absurd rfl closed
    | start => rfl
    | unquoted => rfl
    | closed => rfl

/-- What a character does to the automaton that accepts it. -/
inductive QuotingMove : QuotingState → Char → QuotingState → Prop where
  | opens : QuotingMove .start '"' .quoted
  | separates {state : QuotingState} : state ≠ .quoted → QuotingMove state '|' .start
  | plain {state : QuotingState} {c : Char} : state = .start ∨ state = .unquoted →
      Csv.isSpecial '|' c = false → QuotingMove state c .unquoted
  | inside {c : Char} : c ≠ '"' → QuotingMove .quoted c .quoted
  | closes : QuotingMove .quoted '"' .closed
  | doubles : QuotingMove .closed '"' .quoted

private theorem isSpecial_eq_false_iff {c : Char} :
    Csv.isSpecial '|' c = false ↔ c ≠ '|' ∧ c ≠ '"' ∧ c ≠ '\r' ∧ c ≠ '\n' := by
  simp only [Csv.isSpecial, Bool.or_eq_false_iff, beq_eq_false_iff_ne, and_assoc]

private theorem quotingMove_of_step {state after : QuotingState} {c : Char}
    (notNul : c ≠ '\x00') (stepped : quotingCharStep state c = .ok after) :
    QuotingMove state c after := by
  unfold quotingCharStep at stepped
  rw [if_neg (by simpa using notNul)] at stepped
  cases state with
  | quoted =>
      by_cases isQuote : c = '"'
      · subst isQuote
        cases stepped
        exact .closes
      · simp only [beq_eq_false_iff_ne.mpr isQuote, Bool.false_eq_true, ↓reduceIte] at stepped
        cases stepped
        exact .inside isQuote
  | start =>
      simp only [Bool.or_eq_true, beq_iff_eq] at stepped
      split_ifs at stepped with isQuote isPipe isLineEnd
      · cases stepped
        exact isQuote ▸ .opens
      · cases stepped
        exact isPipe ▸ .separates (by decide)
      · rw [not_or] at isLineEnd
        cases stepped
        exact .plain (.inl rfl) (isSpecial_eq_false_iff.mpr ⟨isPipe, isQuote, isLineEnd⟩)
  | unquoted =>
      simp only [Bool.or_eq_true, beq_iff_eq, or_assoc] at stepped
      split_ifs at stepped with isPipe isOther
      · cases stepped
        exact isPipe ▸ .separates (by decide)
      · rw [not_or, not_or] at isOther
        cases stepped
        exact .plain (.inr rfl) (isSpecial_eq_false_iff.mpr ⟨isPipe, isOther⟩)
  | closed =>
      simp only [beq_iff_eq] at stepped
      split_ifs at stepped with isQuote isPipe
      · cases stepped
        exact isQuote ▸ .doubles
      · cases stepped
        exact isPipe ▸ .separates (by decide)

theorem quotingCharStep_eq_ok_iff {state after : QuotingState} {c : Char} :
    quotingCharStep state c = .ok after ↔ c ≠ '\x00' ∧ QuotingMove state c after := by
  constructor
  · intro stepped
    have notNul : c ≠ '\x00' := by
      intro nul
      subst nul
      cases stepped
    exact ⟨notNul, quotingMove_of_step notNul stepped⟩
  · intro accepted
    obtain ⟨notNul, move⟩ := accepted
    cases move with
    | opens => rfl
    | separates closed =>
        cases state with
        | quoted => exact absurd rfl closed
        | start => rfl
        | unquoted => rfl
        | closed => rfl
    | plain outside notSpecial =>
        obtain ⟨notPipe, notQuote, notReturn, notFeed⟩ := isSpecial_eq_false_iff.mp notSpecial
        cases outside with
        | inl isStart =>
            simp [isStart, quotingCharStep, notNul, notPipe, notQuote, notReturn, notFeed]
        | inr isUnquoted =>
            simp [isUnquoted, quotingCharStep, notNul, notPipe, notQuote, notReturn, notFeed]
    | inside notQuote => simp [quotingCharStep, notNul, notQuote]
    | closes => rfl
    | doubles => rfl

theorem not_mem_of_foldlM {state after : QuotingState} {text : Text}
    (ran : text.foldlM quotingCharStep state = .ok after) : '\x00' ∉ text := by
  induction text generalizing state with
  | nil => exact List.not_mem_nil
  | cons c text ih =>
      rw [List.foldlM_cons, Fallible.bind_eq_ok_iff] at ran
      obtain ⟨middle, stepped, ran⟩ := ran
      rw [List.mem_cons, not_or]
      exact ⟨Ne.symm (quotingCharStep_eq_ok_iff.mp stepped).1, ih ran⟩

/-- An accepted text has no NUL. -/
theorem not_mem_of_validateReportQuoting {value : Text}
    (accepted : validateReportQuoting value = .ok ()) : '\x00' ∉ value := by
  obtain ⟨state, ran, -⟩ := validateReportQuoting_eq_ok_iff.mp accepted
  exact not_mem_of_foldlM ran

/-! ## Written records -/

theorem foldlM_plain {state : QuotingState} {text : Text} (nulFree : '\x00' ∉ text)
    (outside : state = .start ∨ state = .unquoted)
    (plain : ∀ c ∈ text, Csv.isSpecial '|' c = false) :
    ∃ after, text.foldlM quotingCharStep state = .ok after ∧ after ≠ .quoted := by
  induction text generalizing state with
  | nil =>
      refine ⟨state, rfl, ?_⟩
      rcases outside with rfl | rfl <;> decide
  | cons c text ih =>
      obtain ⟨here, later⟩ := List.forall_mem_cons.mp plain
      rw [List.mem_cons, not_or] at nulFree
      have step : quotingCharStep state c = .ok .unquoted :=
        quotingCharStep_eq_ok_iff.mpr ⟨Ne.symm nulFree.1, .plain outside here⟩
      rw [List.foldlM_cons, step]
      exact ih nulFree.2 (.inr rfl) later

theorem foldlM_escaped {body : Text} (nulFree : '\x00' ∉ body) :
    (body.flatMap Csv.escapeChar).foldlM quotingCharStep .quoted = .ok .quoted := by
  induction body with
  | nil => rfl
  | cons c body ih =>
      rw [List.mem_cons, not_or] at nulFree
      rw [List.flatMap_cons, List.foldlM_append]
      have step : (Csv.escapeChar c).foldlM quotingCharStep .quoted = .ok .quoted := by
        unfold Csv.escapeChar
        split
        · rfl
        · rename_i notQuote
          have stays : quotingCharStep .quoted c = .ok .quoted :=
            quotingCharStep_eq_ok_iff.mpr ⟨Ne.symm nulFree.1, .inside (by simpa using notQuote)⟩
          rw [List.foldlM_cons, stays]
          rfl
      rw [step]
      exact ih nulFree.2

theorem foldlM_form {field text : Text} (nulFree : '\x00' ∉ field)
    (form : Csv.Form '|' field text) :
    ∃ after, text.foldlM quotingCharStep .start = .ok after ∧ after ≠ .quoted := by
  cases form with
  | plain plain => exact foldlM_plain nulFree (.inl rfl) plain
  | quoted =>
      refine ⟨.closed, ?_, by decide⟩
      have opened : quotingCharStep .start '"' = .ok .quoted := rfl
      have ended : ['"'].foldlM quotingCharStep .quoted = .ok .closed := rfl
      rw [Csv.quoted, List.foldlM_cons, opened]
      have body := foldlM_escaped nulFree
      have whole : (field.flatMap Csv.escapeChar ++ ['"']).foldlM quotingCharStep .quoted =
          .ok .closed := by
        rw [List.foldlM_append, body]
        exact ended
      exact whole

theorem quotingCharStep_pipe {state : QuotingState} (closed : state ≠ .quoted) :
    quotingCharStep state '|' = .ok .start :=
  quotingCharStep_eq_ok_iff.mpr ⟨by decide, .separates closed⟩

theorem foldlM_cons_pipe {state : QuotingState} {rest : Text} (closed : state ≠ .quoted) :
    ('|' :: rest).foldlM quotingCharStep state = rest.foldlM quotingCharStep .start := by
  rw [List.foldlM_cons, quotingCharStep_pipe closed]
  rfl

/-- Every text of a record without NUL is accepted. -/
theorem foldlM_forms {fields texts : List Text}
    (forms : List.Forall₂ (Csv.Form '|') fields texts)
    (nulFree : ∀ field ∈ fields, '\x00' ∉ field) :
    ∃ after, (['|'].intercalate texts).foldlM quotingCharStep .start = .ok after ∧
      after ≠ .quoted := by
  induction forms with
  | nil => exact ⟨.start, rfl, by decide⟩
  | @cons field text fields texts form forms ih =>
      obtain ⟨here, later⟩ := List.forall_mem_cons.mp nulFree
      obtain ⟨after, ran, closed⟩ := foldlM_form here form
      cases forms with
      | nil =>
          rw [List.intercalate_singleton]
          exact ⟨after, ran, closed⟩
      | cons next others =>
          obtain ⟨last, ranOthers, lastClosed⟩ := ih later
          refine ⟨last, ?_, lastClosed⟩
          rw [List.intercalate_cons_cons, List.append_assoc, List.singleton_append,
            List.foldlM_append, ran]
          exact (foldlM_cons_pipe closed).trans ranOthers

theorem foldlM_concat {fields texts : List Text} {text : Text}
    (forms : List.Forall₂ (Csv.Form '|') fields texts)
    (nulFree : ∀ field ∈ fields, '\x00' ∉ field) :
    (['|'].intercalate (texts ++ [text])).foldlM quotingCharStep .start =
      text.foldlM quotingCharStep .start := by
  cases forms with
  | nil => rw [List.nil_append, List.intercalate_singleton]
  | cons form forms =>
      obtain ⟨after, ran, closed⟩ := foldlM_forms (.cons form forms) nulFree
      rw [Csv.intercalate_concat (List.cons_ne_nil _ _), List.foldlM_append, ran]
      exact foldlM_cons_pipe closed

/-! ## Cut records -/

private theorem exists_body_of_front {body front : Text} {state : QuotingState}
    (isFront : front <+: body.flatMap Csv.escapeChar ++ ['"'])
    (ran : front.foldlM quotingCharStep .quoted = .ok state) (closed : state ≠ .quoted) :
    ∃ kept, kept <+: body ∧ front = kept.flatMap Csv.escapeChar ++ ['"'] := by
  induction body generalizing front with
  | nil =>
      rcases List.prefix_concat_iff.mp isFront with whole | shorter
      · exact ⟨[], List.prefix_rfl, whole⟩
      · rw [List.prefix_nil.mp shorter] at ran
        cases ran
        exact absurd rfl closed
  | cons c body ih =>
      cases front with
      | nil =>
          cases ran
          exact absurd rfl closed
      | cons first front =>
          rw [List.flatMap_cons] at isFront
          rw [List.foldlM_cons, Fallible.bind_eq_ok_iff] at ran
          obtain ⟨middle, stepped, ran⟩ := ran
          by_cases isQuote : c = '"'
          · subst isQuote
            obtain ⟨rfl, isRest⟩ := List.cons_prefix_cons.mp isFront
            cases front with
            | nil => exact ⟨[], List.nil_prefix, rfl⟩
            | cons second front =>
                obtain ⟨rfl, isBehind⟩ := List.cons_prefix_cons.mp isRest
                cases stepped
                obtain ⟨kept, isKept, rfl⟩ := ih isBehind ran
                exact ⟨'"' :: kept, List.cons_prefix_cons.mpr ⟨rfl, isKept⟩, rfl⟩
          · have alone : Csv.escapeChar c = [c] := by
              rw [Csv.escapeChar, if_neg (by simpa using isQuote)]
            rw [alone] at isFront
            obtain ⟨rfl, isRest⟩ := List.cons_prefix_cons.mp isFront
            have stays : middle = .quoted := by
              cases (quotingCharStep_eq_ok_iff.mp stepped).2 with
              | separates outside => exact absurd rfl outside
              | plain outside => cases outside <;> contradiction
              | inside => rfl
              | closes => exact absurd rfl isQuote
            rw [stays] at ran
            obtain ⟨kept, isKept, rfl⟩ := ih isRest ran
            refine ⟨first :: kept, List.cons_prefix_cons.mpr ⟨rfl, isKept⟩, ?_⟩
            rw [List.flatMap_cons, alone]
            rfl

/-- A front of a written field that is accepted is a text of a front of the field. -/
theorem form_of_accepted_front {field front : Text} {state : QuotingState}
    (isFront : front <+: Csv.writeField '|' field)
    (ran : front.foldlM quotingCharStep .start = .ok state) (closed : state ≠ .quoted) :
    ∃ kept, kept <+: field ∧ Csv.Form '|' kept front := by
  unfold Csv.writeField at isFront
  split at isFront
  · cases front with
    | nil => exact ⟨[], List.nil_prefix, .plain (by simp)⟩
    | cons first front =>
        obtain ⟨rfl, isRest⟩ := List.cons_prefix_cons.mp isFront
        obtain ⟨kept, isKept, rfl⟩ := exists_body_of_front isRest ran closed
        exact ⟨kept, isKept, .quoted⟩
  · rename_i noSpecial
    refine ⟨front, isFront, .plain ?_⟩
    intro c member
    rw [List.any_eq_true] at noSpecial
    by_contra special
    exact noSpecial ⟨c, isFront.subset member, by simpa using special⟩

theorem validateReportQuoting_line {fields : List Text}
    (nulFree : ∀ field ∈ fields, '\x00' ∉ field) :
    validateReportQuoting (Csv.line '|' fields) = .ok () :=
  validateReportQuoting_eq_ok_iff.mpr (foldlM_forms (Csv.line_forms '|' fields) nulFree)

end AzureInit.Diagnostics
