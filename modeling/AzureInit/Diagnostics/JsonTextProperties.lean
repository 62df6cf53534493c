import AzureInit.Diagnostics.JsonText
import AzureInit.Foundation.DecimalText

/-! What a JSON text is read as when a member is added to an object, and what strings
are read as. -/

set_option autoImplicit false

namespace AzureInit.Diagnostics.Json

open Foundation
open Foundation.Reader

/-- The characters that a value's end is told by. -/
def isSought (c : Char) : Bool := isSpace c || isNumberChar c

theorem isSought_of_isSpace (c : Char) (space : isSpace c = true) : isSought c = true := by
  simp [isSought, space]

theorem isSought_of_isNumberChar (c : Char) (inNumber : isNumberChar c = true) :
    isSought c = true := by
  simp [isSought, inNumber]

/-! ## Locality -/

theorem scanBody_quote (text : Text) : scanBody ('"' :: text) = some ([], text) := by
  rw [scanBody.eq_def]
  simp only [if_pos]

theorem scanBody_escape (escape : Char) (text : Text) :
    scanBody ('\\' :: escape :: text) =
      (scanBody text).map fun scanned => ('\\' :: escape :: scanned.1, scanned.2) := rfl

theorem scanBody_char {c : Char} (notQuote : c ≠ '"') (notEscape : c ≠ '\\') (text : Text) :
    scanBody (c :: text) = (scanBody text).map fun scanned => (c :: scanned.1, scanned.2) := by
  rw [scanBody.eq_def]
  simp only [if_neg notQuote, if_neg notEscape]

theorem local_scanBody : Local isSought (scanBody : Reader Text) := by
  intro text
  induction text using scanBody.induct with
  | case1 => exact fun value rest read => nomatch read
  | case2 text =>
      intro value rest read
      obtain ⟨rfl, rfl⟩ := Prod.mk.inj (Option.some.inj ((scanBody_quote text).symm.trans read))
      exact ⟨['"'], rfl, fun other _ => scanBody_quote other⟩
  | case3 => exact fun value rest read => nomatch read
  | case4 escape text notQuote ih =>
      intro value rest read
      rw [scanBody_escape] at read
      obtain ⟨scanned, readText, same⟩ := Option.map_eq_some_iff.mp read
      cases same
      obtain ⟨front, rfl, again⟩ := ih _ _ readText
      refine ⟨'\\' :: escape :: front, rfl, ?_⟩
      intro other follows
      rw [List.cons_append, List.cons_append, scanBody_escape, again other follows]
      rfl
  | case5 c text notQuote notEscape ih =>
      intro value rest read
      rw [scanBody_char notQuote notEscape] at read
      obtain ⟨scanned, readText, same⟩ := Option.map_eq_some_iff.mp read
      cases same
      obtain ⟨front, rfl, again⟩ := ih _ _ readText
      refine ⟨c :: front, rfl, ?_⟩
      intro other follows
      rw [List.cons_append, scanBody_char notQuote notEscape, again other follows]
      rfl

theorem local_string : Local isSought string :=
  local_scanBody.bind fun _ => local_ofOption _

theorem local_word (text : Text) : Local isSought (word text) := by
  induction text with
  | nil => exact local_pure _
  | cons c text ih => exact local_next.bind fun _ => ih.ite local_failure

variable {numberOf : Text → Option Number}

theorem local_scalar (first : Char) : Local isSought (scalar numberOf first) := by
  unfold scalar
  refine .ite (local_string.bind fun _ => local_pure _) ?_
  refine .ite ((local_word _).bind fun _ => local_pure _) ?_
  refine .ite ((local_word _).bind fun _ => local_pure _) ?_
  refine .ite ((local_word _).bind fun _ => local_pure _) ?_
  refine .ite ?_ local_failure
  apply (local_run isSought_of_isNumberChar).bind
  exact fun _ => (local_ofOption _).bind fun _ => local_pure _

theorem local_blank : Local isSought (token isSpace) := local_token isSought_of_isSpace

theorem local_member {value : Char → Reader Value} (valueLocal : ∀ first, Local isSought (value first))
    (first : Char) : Local isSought (member value first) := by
  unfold member
  refine .ite ?_ local_failure
  refine local_string.bind fun _ => local_blank.bind fun _ => .ite ?_ local_failure
  exact local_blank.bind fun first => (valueLocal first).bind fun _ => local_pure _

theorem local_value (fuel depth : Nat) (first : Char) :
    Local isSought (value numberOf fuel depth first) := by
  induction depth generalizing first with
  | zero => exact local_scalar first
  | succ depth ih =>
      refine .ite ?_ (.ite ?_ (local_scalar first))
      · refine local_blank.bind fun first => .ite (local_pure _) ?_
        exact (local_separated isSought_of_isSpace ih fuel first).bind fun _ => local_pure _
      · refine local_blank.bind fun first => .ite (local_pure _) ?_
        exact (local_separated isSought_of_isSpace (local_member ih) fuel first).bind
          fun _ => local_pure _

/-! ## Fuel -/

theorem member_mono {value more : Char → Reader Value}
    (values : ∀ first text result, value first text = some result → more first text = some result)
    (first : Char) (text : Text) (result : (Text × Value) × Text)
    (read : member value first text = some result) : member more first text = some result := by
  unfold member at read ⊢
  split at read
  · rename_i isQuote
    rw [if_pos isQuote]
    obtain ⟨name, behindName, readName, read⟩ := bind_eq_some_iff.mp read
    obtain ⟨colon, behindColon, readColon, read⟩ := bind_eq_some_iff.mp read
    refine bind_eq_some_iff.mpr ⟨name, behindName, readName, ?_⟩
    refine bind_eq_some_iff.mpr ⟨colon, behindColon, readColon, ?_⟩
    split at read
    · rename_i isColon
      rw [if_pos isColon]
      obtain ⟨first, behindFirst, readFirst, read⟩ := bind_eq_some_iff.mp read
      obtain ⟨value, rest, readValue, built⟩ := bind_eq_some_iff.mp read
      exact bind_eq_some_iff.mpr ⟨first, behindFirst, readFirst,
        bind_eq_some_iff.mpr ⟨value, rest, values _ _ _ readValue, built⟩⟩
    · cases read
  · cases read

/-- More fuel reads no less. -/
theorem value_mono {fuel fuel' depth : Nat} (enough : fuel ≤ fuel') (first : Char) (text : Text)
    (result : Value × Text) (read : value numberOf fuel depth first text = some result) :
    value numberOf fuel' depth first text = some result := by
  induction depth generalizing first text result with
  | zero => exact read
  | succ depth ih =>
      unfold value at read ⊢
      split at read
      · rename_i isArray
        rw [if_pos isArray]
        exact bind_ite_mono (fun _ _ _ => separated_mono ih enough) read
      · rename_i notArray
        rw [if_neg notArray]
        split at read
        · rename_i isObject
          rw [if_pos isObject]
          exact bind_ite_mono (fun _ _ _ => separated_mono (member_mono ih) enough) read
        · rename_i notObject
          rw [if_neg notObject]
          exact read

/-! ## Strings -/

/-- The texts that may stand between quotes. -/
inductive IsBody : Text → Prop where
  | nil : IsBody []
  | char {c : Char} {text : Text} : c ≠ '"' → c ≠ '\\' → ' ' ≤ c → IsBody text → IsBody (c :: text)
  | escape {c : Char} {text : Text} : (simpleEscape? c).isSome → IsBody text →
      IsBody ('\\' :: c :: text)
  | unit {first second third fourth : Char} {text : Text} :
      (∀ c ∈ [first, second, third, fourth], (hexDigit? c).isSome) → IsBody text →
      IsBody ('\\' :: 'u' :: first :: second :: third :: fourth :: text)

theorem isBody_of_plain {text : Text}
    (plain : text.all (fun c => c != '"' && c != '\\' && ' ' ≤ c) = true) : IsBody text := by
  induction text with
  | nil => exact .nil
  | cons c text ih =>
      simp only [List.all_cons, Bool.and_eq_true, bne_iff_ne, decide_eq_true_eq] at plain
      obtain ⟨⟨⟨notQuote, notEscape⟩, printable⟩, others⟩ := plain
      exact .char notQuote notEscape printable (ih (by simpa using others))

theorem ne_of_hexDigit? {c : Char} (isHex : (hexDigit? c).isSome) : c ≠ '"' ∧ c ≠ '\\' := by
  constructor
  · intro same
    rw [same] at isHex
    exact absurd isHex (by decide)
  · intro same
    rw [same] at isHex
    exact absurd isHex (by decide)

/-- The closing quote is the first one that no escape takes. -/
theorem scanBody_of_isBody {body : Text} (isBody : IsBody body) (rest : Text) :
    scanBody (body ++ '"' :: rest) = some (body, rest) := by
  induction isBody with
  | nil => exact scanBody_quote rest
  | char notQuote notEscape _ _ ih =>
      rw [List.cons_append, scanBody_char notQuote notEscape, ih]
      rfl
  | escape _ _ ih =>
      rw [List.cons_append, List.cons_append, scanBody_escape, ih]
      rfl
  | unit isHex _ ih =>
      have plain := fun c member => ne_of_hexDigit? (isHex c member)
      simp only [List.forall_mem_cons] at plain
      obtain ⟨first, second, third, fourth, -⟩ := plain
      simp only [List.cons_append]
      rw [scanBody_escape, scanBody_char first.1 first.2, scanBody_char second.1 second.2,
        scanBody_char third.1 third.2, scanBody_char fourth.1 fourth.2, ih]
      rfl

/-- Each quote has a backslash in front. -/
def QuotesEscaped (text : Text) : Prop :=
  text.IsChain fun before c => c = '"' → before = '\\'

theorem QuotesEscaped.cons {c : Char} {text : Text} (escaped : QuotesEscaped text)
    (opens : text.head? ≠ some '"' ∨ c = '\\') : QuotesEscaped (c :: text) := by
  cases text with
  | nil => exact .singleton c
  | cons next text =>
      apply List.IsChain.cons_cons ?_ escaped
      intro isQuote
      rcases opens with other | isEscape
      · exact absurd (congrArg some isQuote) other
      · exact isEscape

theorem quotesEscaped_of_isBody {body : Text} (isBody : IsBody body) :
    QuotesEscaped body ∧ body.head? ≠ some '"' := by
  induction isBody with
  | nil => exact ⟨.nil, nofun⟩
  | char notQuote _ _ _ ih =>
      exact ⟨ih.1.cons (.inl ih.2), by simpa using notQuote⟩
  | escape _ _ ih =>
      exact ⟨(ih.1.cons (.inl ih.2)).cons (.inr rfl), by simp⟩
  | unit isHex _ ih =>
      have plain := fun c member => (ne_of_hexDigit? (isHex c member)).1
      simp only [List.forall_mem_cons] at plain
      obtain ⟨first, second, third, fourth, -⟩ := plain
      refine ⟨?_, by simp⟩
      refine .cons (.cons (.cons (.cons (.cons (ih.1.cons (.inl ih.2)) ?_) ?_) ?_) ?_) (.inr rfl)
      · exact .inl (by simpa using fourth)
      · exact .inl (by simpa using third)
      · exact .inl (by simpa using second)
      · simpa using first

/-- A string that may stand in a text is read with the text that its escapes make. -/
theorem string_of_isBody {body : Text} (isBody : IsBody body) (rest : Text) :
    string (body ++ '"' :: rest) = (unescape body).map (·, rest) := by
  unfold string
  rw [bind_apply, scanBody_of_isBody isBody]
  rfl

theorem scalar_string {body : Text} (isBody : IsBody body) (rest : Text) :
    scalar numberOf '"' (body ++ '"' :: rest) =
      (unescape body).map fun text => (.string text, rest) := by
  rw [scalar, if_pos rfl, bind_apply, string_of_isBody isBody]
  cases unescape body <;> rfl

theorem value_scalar {first : Char} (notArray : first ≠ '[') (notObject : first ≠ '\x7b')
    (fuel depth : Nat) : value numberOf fuel depth first = scalar numberOf first := by
  cases depth with
  | zero => rfl
  | succ depth => rw [value, if_neg notArray, if_neg notObject]

theorem token_cons {c : Char} (stops : isSpace c = false) (rest : Text) :
    token isSpace (c :: rest) = some (c, rest) :=
  token_eq_some_iff.mpr ⟨[], rfl, by simp, stops⟩

/-- A string as a whole text. -/
theorem fromStr_string {body : Text} (isBody : IsBody body) :
    fromStr numberOf ('"' :: body ++ ['"']) = (unescape body).map .string := by
  have read : ∀ fuel, (token isSpace >>= value numberOf fuel maxDepth)
      ('"' :: body ++ ['"']) = (unescape body).map fun text => (.string text, []) := by
    intro fuel
    rw [List.cons_append, bind_apply, token_cons (by decide), Option.bind_some]
    dsimp only
    rw [value_scalar (by decide) (by decide)]
    exact scalar_string isBody []
  rw [fromStr, read]
  cases unescape body <;> rfl

/-! ## Numbers -/

theorem ne_of_isDigit {c : Char} (digit : c.isDigit = true) {other : Char}
    (notDigit : other.isDigit = false) : c ≠ other := by
  intro same
  rw [same, notDigit] at digit
  cases digit

theorem scalar_digit {first : Char} {digits rest : Text} {parsed : Number}
    (isNumber : numberOf (first :: digits) = some parsed) (digit : first.isDigit = true)
    (all : ∀ c ∈ digits, c.isDigit = true) (ends : ∀ c ∈ rest.head?, isNumberChar c = false) :
    scalar numberOf first (digits ++ rest) = some (.number parsed, rest) := by
  have inNumber : ∀ c ∈ digits, isNumberChar c = true := by
    intro c member
    simp [isNumberChar, all c member]
  have stops : rest.takeWhile isNumberChar = [] ∧ rest.dropWhile isNumberChar = rest := by
    cases rest with
    | nil => exact ⟨rfl, rfl⟩
    | cons c rest => simp [ends c rfl]
  have read : run isNumberChar (digits ++ rest) = some (digits, rest) := by
    rw [run, List.takeWhile_append_of_pos inNumber, List.dropWhile_append_of_pos inNumber,
      stops.1, stops.2, List.append_nil]
  rw [scalar, if_neg (ne_of_isDigit digit (by decide)), if_neg (ne_of_isDigit digit (by decide)),
    if_neg (ne_of_isDigit digit (by decide)), if_neg (ne_of_isDigit digit (by decide)),
    if_pos (.inr digit), bind_apply, read, Option.bind_some, bind_apply, ofOption, isNumber]
  rfl

/-! ## Objects -/

/-- How an object is read that ends with its text. -/
theorem members_of_fromStr {front : Text} {fields : List (Text × Value)}
    (read : fromStr numberOf ('\x7b' :: front ++ ['\x7d']) = some (.object fields))
    (given : fields ≠ []) :
    ∃ blank first text members, front = blank ++ first :: text ∧
      (∀ c ∈ blank, isSpace c = true) ∧ isSpace first = false ∧ first ≠ '\x7d' ∧
      fields = SortedMap.insertAll members [] ∧
      separated isSpace ',' '\x7d'
        (member (value numberOf (front.length + 2) (maxDepth - 1))) (front.length + 2) first
        (text ++ ['\x7d']) = some (members, []) := by
  have fuel : ('\x7b' :: front ++ ['\x7d']).length = front.length + 2 := by simp
  obtain ⟨⟨result, rest⟩, readValue, isWhole⟩ := Option.bind_eq_some_iff.mp read
  rw [Option.ite_none_right_eq_some] at isWhole
  obtain ⟨blankBehind, same⟩ := isWhole
  obtain rfl := Option.some.inj same
  rw [fuel, List.cons_append, bind_apply, token_cons (by decide), Option.bind_some] at readValue
  have depth : maxDepth = (maxDepth - 1) + 1 := rfl
  dsimp only at readValue blankBehind
  rw [depth, value, if_neg (by decide), if_pos rfl] at readValue
  obtain ⟨first, afterFirst, readFirst, readMembers⟩ := bind_eq_some_iff.mp readValue
  by_cases isEmpty : first = '\x7d'
  · rw [if_pos isEmpty] at readMembers
    cases readMembers
    exact absurd rfl given
  · rw [if_neg isEmpty] at readMembers
    obtain ⟨members, behind, readMembers, built⟩ := bind_eq_some_iff.mp readMembers
    cases built
    obtain ⟨blank, joined, isBlank, stops⟩ := token_eq_some_iff.mp readFirst
    have itemLocal := @local_member (value numberOf (front.length + 2) (maxDepth - 1))
      (local_value _ _)
    obtain ⟨text, last, rfl⟩ := (List.eq_nil_or_concat afterFirst).resolve_left
      (ne_nil_of_separated itemLocal readMembers)
    rw [List.concat_eq_append] at readMembers joined
    have shape : front ++ ['\x7d'] = (blank ++ first :: text) ++ [last] := by
      rw [joined]
      simp
    obtain ⟨whole, same⟩ := List.append_inj' shape rfl
    obtain rfl := (List.cons.inj same).1
    have nothingBehind : rest = [] := by
      obtain ⟨readText, split, -⟩ :=
        local_separated isSought_of_isSpace itemLocal _ _ _ _ _ readMembers
      rcases List.eq_nil_or_concat rest with none | ⟨front, final, rfl⟩
      · exact none
      · rw [List.concat_eq_append, ← List.append_assoc] at split
        obtain rfl := (List.cons.inj (List.append_inj' split rfl).2).1
        rw [List.concat_eq_append, List.all_append] at blankBehind
        simp [isSpace] at blankBehind
    rw [nothingBehind] at readMembers
    exact ⟨blank, first, text, members, whole, isBlank, stops, isEmpty, rfl, readMembers⟩

theorem member_of_name {readValue : Char → Reader Value} {name : Text} {first : Char}
    (isBody : IsBody name) (plain : unescape name = some name) (stops : isSpace first = false)
    (rest : Text) :
    member readValue '"' (name ++ '"' :: ':' :: first :: rest) =
      (readValue first rest).map fun result => ((name, result.1), result.2) := by
  rw [member, if_pos rfl, bind_apply, string_of_isBody isBody, plain, Option.map_some,
    Option.bind_some, bind_apply, token_cons (by decide), Option.bind_some]
  dsimp only
  rw [if_pos rfl, bind_apply, token_cons stops, Option.bind_some, bind_apply]
  cases readValue first rest <;> rfl

/-- The last member of a list of members. -/
theorem separated_last {readValue : Char → Reader Value} {name valueText : Text} {first : Char}
    {result : Option Value} (isBody : IsBody name) (plain : unescape name = some name)
    (stops : isSpace first = false)
    (read : readValue first (valueText ++ ['\x7d']) = result.map (·, ['\x7d'])) (fuel : Nat) :
    (token isSpace >>= separated isSpace ',' '\x7d' (member readValue) (fuel + 1))
        ('"' :: (name ++ '"' :: ':' :: first :: (valueText ++ ['\x7d']))) =
      result.map fun value => ([(name, value)], []) := by
  rw [bind_apply, token_cons (by decide), Option.bind_some]
  dsimp only
  rw [separated, bind_apply, member_of_name isBody plain stops, read]
  cases result with
  | none => rfl
  | some value => rfl

/-- An object's text with one more member behind the others. -/
theorem fromStr_append_member {front name valueText : Text} {fields : List (Text × Value)}
    {first : Char} {result : Option Value}
    (read : fromStr numberOf ('\x7b' :: front ++ ['\x7d']) = some (.object fields))
    (given : fields ≠ []) (isBody : IsBody name) (plain : unescape name = some name)
    (stops : isSpace first = false)
    (readValue : ∀ fuel, value numberOf fuel (maxDepth - 1) first (valueText ++ ['\x7d']) =
      result.map (·, ['\x7d'])) :
    fromStr numberOf ('\x7b' :: (front ++ ',' :: '"' ::
        (name ++ '"' :: ':' :: first :: (valueText ++ ['\x7d'])))) =
      result.map fun value => .object (SortedMap.insert name value fields) := by
  obtain ⟨blank, one, text, members, rfl, isBlank, oneStops, notEmpty, rfl, readMembers⟩ :=
    members_of_fromStr read given
  unfold fromStr
  generalize size : ('\x7b' :: (blank ++ one :: text ++ ',' :: '"' ::
    (name ++ '"' :: ':' :: first :: (valueText ++ ['\x7d'])))).length = fuel
  have large : (blank ++ one :: text).length + 2 < fuel := by
    rw [← size]
    simp only [List.length_cons, List.length_append]
    omega
  have few := length_le_of_separated readMembers
  obtain ⟨more, enough⟩ : ∃ more, fuel = more + 1 + members.length :=
    ⟨fuel - 1 - members.length, by omega⟩
  have itemLocal := @local_member (value numberOf fuel (maxDepth - 1)) (local_value _ _)
  have readAgain : separated isSpace ',' '\x7d' (member (value numberOf fuel (maxDepth - 1))) fuel one
      (text ++ ['\x7d']) = some (members, []) :=
    separated_mono (member_mono (value_mono large.le)) large.le readMembers
  have extended := separated_extend itemLocal (by decide) (by decide) readAgain (more + 1)
    ('"' :: (name ++ '"' :: ':' :: first :: (valueText ++ ['\x7d'])))
  rw [← enough, separated_last isBody plain stops (readValue fuel)] at extended
  have readOne : token isSpace (blank ++ one :: text ++ ',' :: '"' ::
      (name ++ '"' :: ':' :: first :: (valueText ++ ['\x7d']))) = some (one, text ++ ',' :: '"' ::
        (name ++ '"' :: ':' :: first :: (valueText ++ ['\x7d']))) :=
    token_eq_some_iff.mpr ⟨blank, by simp, isBlank, oneStops⟩
  have depth : maxDepth = (maxDepth - 1) + 1 := rfl
  rw [bind_apply, token_cons (by decide), Option.bind_some]
  dsimp only
  rw [depth, value, if_neg (by decide), if_pos rfl, bind_apply, readOne, Option.bind_some]
  dsimp only
  rw [if_neg notEmpty, bind_apply, extended]
  cases result with
  | none => rfl
  | some value =>
      simp only [Option.map_some, Option.bind_some, pure_apply]
      rw [SortedMap.insertAll_append]
      rfl

/-! ## Equality -/

theorem beqElements_self {elements : List Value}
    (same : ∀ element ∈ elements, element.beq element = true) :
    Value.beqElements elements elements = true := by
  induction elements with
  | nil => rfl
  | cons element elements ih =>
      obtain ⟨first, others⟩ := List.forall_mem_cons.mp same
      rw [Value.beqElements, first, ih others, Bool.and_self]

theorem beqMembers_self {members : List (Text × Value)}
    (same : ∀ member ∈ members, member.2.beq member.2 = true) :
    Value.beqMembers members members = true := by
  induction members with
  | nil => rfl
  | cons member members ih =>
      obtain ⟨first, others⟩ := List.forall_mem_cons.mp same
      rw [Value.beqMembers, first, ih others, beq_self_eq_true, Bool.and_self, Bool.and_self]

theorem beq_self_of_member {readValue : Char → Reader Value}
    (values : ∀ first text value rest, readValue first text = some (value, rest) →
      value.beq value = true)
    (first : Char) (text : Text) (result : Text × Value) (rest : Text)
    (read : member readValue first text = some (result, rest)) :
    result.2.beq result.2 = true := by
  unfold member at read
  split at read
  · obtain ⟨name, behindName, -, read⟩ := bind_eq_some_iff.mp read
    obtain ⟨colon, behindColon, -, read⟩ := bind_eq_some_iff.mp read
    split at read
    · obtain ⟨first, behindFirst, -, read⟩ := bind_eq_some_iff.mp read
      obtain ⟨value, left, readNext, built⟩ := bind_eq_some_iff.mp read
      cases built
      exact values _ _ _ _ readNext
    · cases read
  · cases read

section Equality

variable (finite : ∀ text number, numberOf text = some number → number.beq number = true)
include finite

theorem beq_self_of_scalar {first : Char} {text rest : Text} {result : Value}
    (read : scalar numberOf first text = some (result, rest)) : result.beq result = true := by
  unfold scalar at read
  split at read
  · obtain ⟨text, behind, -, built⟩ := bind_eq_some_iff.mp read
    cases built
    exact beq_self_eq_true text
  · split at read
    · obtain ⟨⟨⟩, behind, -, built⟩ := bind_eq_some_iff.mp read
      cases built
      rfl
    · split at read
      · obtain ⟨⟨⟩, behind, -, built⟩ := bind_eq_some_iff.mp read
        cases built
        rfl
      · split at read
        · obtain ⟨⟨⟩, behind, -, built⟩ := bind_eq_some_iff.mp read
          cases built
          rfl
        · split at read
          · obtain ⟨digits, behind, -, read⟩ := bind_eq_some_iff.mp read
            obtain ⟨number, left, given, built⟩ := bind_eq_some_iff.mp read
            cases built
            obtain ⟨parsed, isNumber, same⟩ := Option.map_eq_some_iff.mp given
            cases same
            exact finite _ _ isNumber
          · cases read

theorem beq_self_of_value {fuel depth : Nat} (first : Char) (text : Text) (result : Value)
    (rest : Text) (read : value numberOf fuel depth first text = some (result, rest)) :
    result.beq result = true := by
  induction depth generalizing first text result rest with
  | zero => exact beq_self_of_scalar finite read
  | succ depth ih =>
      unfold value at read
      split at read
      · obtain ⟨next, afterNext, -, read⟩ := bind_eq_some_iff.mp read
        split at read
        · cases read
          rfl
        · obtain ⟨elements, left, readElements, built⟩ := bind_eq_some_iff.mp read
          cases built
          exact beqElements_self (forall_of_separated ih readElements)
      · split at read
        · obtain ⟨next, afterNext, -, read⟩ := bind_eq_some_iff.mp read
          split at read
          · cases read
            rfl
          · obtain ⟨members, left, readMembers, built⟩ := bind_eq_some_iff.mp read
            cases built
            have each := forall_of_separated (beq_self_of_member ih) readMembers
            apply beqMembers_self
            intro member inserted
            rcases SortedMap.mem_of_mem_insertAll inserted with isMember | none
            · exact each member isMember
            · cases none
        · exact beq_self_of_scalar finite read

/-- A parsed value equals itself, since no number in it is a NaN. -/
theorem beq_self_of_fromStr {text : Text} {result : Value}
    (read : fromStr numberOf text = some result) : (result == result) = true := by
  obtain ⟨⟨parsed, rest⟩, readValue, isWhole⟩ := Option.bind_eq_some_iff.mp read
  obtain ⟨-, same⟩ := Option.ite_none_right_eq_some.mp isWhole
  obtain rfl := Option.some.inj same
  obtain ⟨first, behind, -, readValue⟩ := bind_eq_some_iff.mp readValue
  exact beq_self_of_value finite first behind _ rest readValue

end Equality

end AzureInit.Diagnostics.Json
