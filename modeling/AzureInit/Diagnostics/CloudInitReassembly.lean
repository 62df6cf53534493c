import AzureInit.Diagnostics.Emission
import AzureInit.Diagnostics.ChunkLoss
import AzureInit.Diagnostics.JsonTextProperties

/-! Messages of cloud-init that were cut into chunks. The text of a chunk is cut out of its
value, so that the pieces join to the escaped message whatever they were cut at. -/

set_option autoImplicit false

namespace AzureInit.Diagnostics.CloudInit

open Foundation

/-- JSON values are read from standard text, where plain digits are an unsigned number and
no number is a NaN. -/
structure StandardJson (crates : Crates) (numberOf : Text → Option Number) : Prop where
  jsonFromStr_eq : ∀ text : Text, crates.jsonFromStr text = Json.fromStr numberOf text
  number_digits : ∀ value : UInt64,
    numberOf (Decimal.digits value.toNat) = some (.posInt value)
  number_finite : ∀ (text : Text) (number : Number), numberOf text = some number →
    number.beq number = true

/-- A message with the metadata that goes with it. -/
structure Message (crates : Crates) where
  base : Text
  key : CloudInitKey
  /-- The metadata between its braces. -/
  members : Text
  fields : List (Text × Value)
  /-- The escaped message between its quotes. -/
  body : Text
  validBase : parseKey crates base = .ok key
  parsed : crates.jsonFromStr ('\x7b' :: members ++ ['\x7d']) = some (.object fields)
  nonempty : fields ≠ []
  noMessage : SortedMap.get "msg".toList fields = none
  noIndex : SortedMap.get "msg_i".toList fields = none
  isBody : Json.IsBody body

namespace Message

variable {crates : Crates}

def singleValue (message : Message crates) : Text :=
  '\x7b' :: (message.members ++ ",\"msg\":\"".toList ++ message.body ++ "\"\x7d".toList)

def chunkValue (message : Message crates) (index : Nat) (fragment : Text) : Text :=
  '\x7b' :: (message.members ++ ",\"msg_i\":".toList ++ Decimal.digits index ++
    ",\"msg\":\"".toList ++ fragment ++ "\"\x7d".toList)

/-- The record of the whole message. -/
def single (message : Message crates) : Text × Text := (message.base, message.singleValue)

/-- The records of a message in fragments. -/
def chunks (message : Message crates) (fragments : List Text) : List (Text × Text) :=
  fragments.zipIdx.map fun fragment =>
    (chunkKey message.base fragment.2, message.chunkValue fragment.2 fragment.1)

/-- What either form is decoded to. -/
def outcome (message : Message crates) : Except DecodeError Diagnostic := do
  let text ← okOr (Json.unescape message.body) .malformed
  diagnostic crates message.key (.object message.fields) text

end Message

/-! ## Members -/

theorem get_object (members : List (Text × Value)) (key : Text) :
    (Value.object members).get key = SortedMap.get key members := by
  have sameTest : (fun member : Text × Value => member.1 == key) =
      fun member => decide (member.1 = key) := by
    funext member
    exact beq_eq_decide ..
  unfold Value.get SortedMap.get
  dsimp only
  rw [sameTest]
  rfl

theorem remove_object (members : List (Text × Value)) (key : Text) :
    (Value.object members).remove key = some (.object (SortedMap.erase key members)) := by
  have sameTest : (fun member : Text × Value => member.1 != key) =
      fun member => !decide (member.1 = key) := by
    funext member
    exact congrArg _ (beq_eq_decide ..)
  unfold Value.remove SortedMap.erase
  dsimp only
  rw [sameTest]
  rfl

theorem get_insert_object (name other : Text) (value : Value) (members : List (Text × Value)) :
    (Value.object (SortedMap.insert name value members)).get other =
      if name = other then some value else (Value.object members).get other := by
  rw [get_object, get_object, SortedMap.get_insert]

/-! ## One record -/

section Values

variable {crates : Crates} {numberOf : Text → Option Number}
  (standard : StandardJson crates numberOf) (message : Message crates)

/-- The member that carries the message is not looked at again. -/
theorem diagnostic_insert (crates : Crates) (source : CloudInitKey) (value : Value)
    (fields : List (Text × Value)) (text : Text) :
    diagnostic crates source (.object (SortedMap.insert "msg".toList value fields)) text =
      diagnostic crates source (.object fields) text := by
  have others : ∀ name : Text, name ≠ "msg".toList →
      (Value.object (SortedMap.insert "msg".toList value fields)).get name =
        (Value.object fields).get name := by
    intro name different
    rw [get_insert_object, if_neg fun same => different same.symm]
  unfold diagnostic
  rw [others "name".toList (by decide), others "type".toList (by decide),
    others "ts".toList (by decide), others "result".toList (by decide),
    others "duration".toList (by decide)]

include standard in
theorem decodeSingle_singleValue :
    decodeSingle crates message.base message.singleValue = message.outcome := by
  have name : Json.IsBody "msg".toList := Json.isBody_of_plain (by decide)
  have parsed := message.parsed
  rw [standard.jsonFromStr_eq] at parsed
  have readBody : ∀ fuel, Json.value numberOf fuel (Json.maxDepth - 1) '"'
      ((message.body ++ ['"']) ++ ['\x7d']) =
        ((Json.unescape message.body).map Value.string).map (·, ['\x7d']) := by
    intro fuel
    rw [Json.value_scalar (by decide) (by decide), List.append_assoc]
    refine (Json.scalar_string message.isBody _).trans ?_
    rw [Option.map_map]
    rfl
  have read := Json.fromStr_append_member parsed message.nonempty name (by decide) (by decide) readBody
  have shape : message.singleValue = '\x7b' :: (message.members ++ ',' :: '"' ::
      ("msg".toList ++ '"' :: ':' :: '"' :: ((message.body ++ ['"']) ++ ['\x7d']))) := by
    simp [Message.singleValue]
  unfold decodeSingle Message.outcome
  rw [message.validBase, standard.jsonFromStr_eq, shape, read]
  cases Json.unescape message.body with
  | none => rfl
  | some text =>
      have noIndex : (Value.object (SortedMap.insert "msg".toList (.string text)
          message.fields)).get "msg_i".toList = none := by
        rw [get_insert_object, if_neg (by decide), get_object]
        exact message.noIndex
      have hasMessage : (Value.object (SortedMap.insert "msg".toList (.string text)
          message.fields)).get "msg".toList = some (.string text) := by
        rw [get_insert_object, if_pos rfl]
      simp only [Option.map_some, okOr, bind, Except.bind, noIndex, hasMessage,
        Option.bind_some, Value.asStr, Option.isSome_none, Bool.false_eq_true, if_false]
      exact diagnostic_insert ..

/-! ## One chunk -/

/-- The marker in front of the message does not begin again inside a fragment. -/
theorem marker_absent {fragment : Text} (escaped : Json.QuotesEscaped fragment) :
    Delimited.rsplitOnce? ",\"msg\":".toList (fragment ++ "\"\x7d".toList) = none := by
  induction fragment with
  | nil => decide
  | cons c fragment ih =>
      rw [List.cons_append, Delimited.rsplitOnce?_cons_eq_none_iff]
      refine ⟨ih escaped.tail, ?_⟩
      intro begins
      obtain ⟨isComma, begins⟩ := List.cons_prefix_cons.mp begins
      cases fragment with
      | nil => exact absurd begins (by decide)
      | cons next fragment =>
          obtain ⟨isQuote, -⟩ := List.cons_prefix_cons.mp begins
          have isEscape := (List.isChain_cons_cons.mp escaped).1 isQuote.symm
          exact absurd (isComma.trans isEscape) (by decide)

theorem rsplitOnce?_marker {fragment : Text} (escaped : Json.QuotesEscaped fragment)
    (opening : Text) :
    Delimited.rsplitOnce? ",\"msg\":".toList
        (opening ++ (",\"msg\":".toList ++ ('"' :: (fragment ++ "\"\x7d".toList)))) =
      some (opening, '"' :: (fragment ++ "\"\x7d".toList)) := by
  apply Delimited.rsplitOnce?_append
  -- No character of the marker but the first is a comma.
  change Delimited.rsplitOnce? ",\"msg\":".toList
    ('"' :: 'm' :: 's' :: 'g' :: '"' :: ':' :: '"' :: (fragment ++ "\"\x7d".toList)) = none
  simp only [Delimited.rsplitOnce?_cons_eq_none_iff, marker_absent escaped, true_and]
  simp

include standard in
theorem fromStr_indexed (index : UInt64) :
    Json.fromStr numberOf ('\x7b' :: (message.members ++ ",\"msg_i\":".toList ++
        Decimal.digits index.toNat) ++ "\x7d".toList) =
      some (.object (SortedMap.insert "msg_i".toList (.number (.posInt index))
        message.fields)) := by
  obtain ⟨first, rest, digits⟩ : ∃ first rest, Decimal.digits index.toNat = first :: rest :=
    List.exists_cons_of_ne_nil Nat.toDigits_ne_nil
  have isDigit : ∀ c ∈ first :: rest, c.isDigit = true := by
    rw [← digits]
    exact fun c member => Decimal.isDigit_of_mem_digits member
  obtain ⟨firstDigit, otherDigits⟩ := List.forall_mem_cons.mp isDigit
  have number := standard.number_digits index
  have parsed := message.parsed
  rw [standard.jsonFromStr_eq] at parsed
  have name : Json.IsBody "msg_i".toList := Json.isBody_of_plain (by decide)
  have stops : Json.isSpace first = false := by
    simp only [Json.isSpace, Bool.or_eq_false_iff, beq_eq_false_iff_ne]
    refine ⟨⟨⟨?_, ?_⟩, ?_⟩, ?_⟩ <;> exact Json.ne_of_isDigit firstDigit (by decide)
  have readIndex : ∀ fuel, Json.value numberOf fuel (Json.maxDepth - 1) first (rest ++ ['\x7d']) =
      (some (Value.number (.posInt index))).map (·, ['\x7d']) := by
    intro fuel
    rw [Json.value_scalar (Json.ne_of_isDigit firstDigit (by decide))
      (Json.ne_of_isDigit firstDigit (by decide))]
    refine Json.scalar_digit (digits ▸ number) firstDigit otherDigits ?_
    intro c isClose
    obtain rfl := Option.some.inj isClose
    decide
  have read := Json.fromStr_append_member parsed message.nonempty name (by decide) stops readIndex
  have shape : '\x7b' :: (message.members ++ ",\"msg_i\":".toList ++ Decimal.digits index.toNat) ++
      "\x7d".toList = '\x7b' :: (message.members ++ ',' :: '"' ::
        ("msg_i".toList ++ '"' :: ':' :: first :: (rest ++ ['\x7d']))) := by
    simp [digits]
  rw [shape]
  exact read

include standard in
/-- A chunk gives back its fragment, and metadata that names the chunk. -/
theorem chunkParts_chunkValue {fragment : Text} (escaped : Json.QuotesEscaped fragment)
    (index : UInt64) :
    chunkParts crates (message.chunkValue index.toNat fragment) =
      .ok (.object (SortedMap.insert "msg_i".toList (.number (.posInt index)) message.fields),
        fragment) := by
  have divided := rsplitOnce?_marker escaped
    ('\x7b' :: (message.members ++ ",\"msg_i\":".toList ++ Decimal.digits index.toNat))
  have shape : message.chunkValue index.toNat fragment =
      '\x7b' :: (message.members ++ ",\"msg_i\":".toList ++ Decimal.digits index.toNat) ++
        (",\"msg\":".toList ++ ('"' :: (fragment ++ "\"\x7d".toList))) := by
    simp [Message.chunkValue]
  have opened : ('"' :: (fragment ++ "\"\x7d".toList)).dropPrefix? "\"".toList =
      some (fragment ++ "\"\x7d".toList) :=
    List.dropPrefix?_eq_some_iff.mpr ⟨['"'], rfl, rfl⟩
  have closed : (fragment ++ "\"\x7d".toList).dropSuffix? "\"\x7d".toList = some fragment :=
    List.dropSuffix?_eq_some_iff.mpr ⟨"\"\x7d".toList, rfl, rfl⟩
  unfold chunkParts
  rw [shape, divided]
  simp only [okOr, bind, Except.bind, opened, Option.bind_some, closed]
  rw [standard.jsonFromStr_eq, fromStr_indexed standard]
  rfl

include standard in
theorem addChunk_chunkValue {fragment : Text} (escaped : Json.QuotesEscaped fragment)
    (index : UInt64) {metadata : Option Value}
    (same : ∀ value ∈ metadata, value = .object message.fields) (joined : Text) :
    addChunk crates (metadata, joined) (index, message.chunkValue index.toNat fragment) =
      .ok (some (.object message.fields), joined ++ fragment) := by
  have parsed := message.parsed
  rw [standard.jsonFromStr_eq] at parsed
  have equal := Json.beq_self_of_fromStr standard.number_finite parsed
  have names : ((Value.object (SortedMap.insert "msg_i".toList (.number (.posInt index))
      message.fields)).get "msg_i".toList).bind Value.asU64 = some index := by
    rw [get_insert_object, if_pos rfl]
    rfl
  have removed : (Value.object (SortedMap.insert "msg_i".toList (.number (.posInt index))
      message.fields)).remove "msg_i".toList = some (.object message.fields) := by
    rw [remove_object, SortedMap.erase_insert_of_absent _ message.noIndex]
  have noOther : metadata.any (· != .object message.fields) = false := by
    cases metadata with
    | none => rfl
    | some value =>
        obtain rfl := same value rfl
        simp only [Option.any_some, bne, equal]
        rfl
  have kept : metadata.getD (.object message.fields) = .object message.fields := by
    cases metadata with
    | none => rfl
    | some value => exact same value rfl
  unfold addChunk
  rw [chunkParts_chunkValue standard message escaped index]
  simp only [bind, Except.bind, names, bne_self_eq_false, removed, okOr, noOther, kept,
    Bool.false_eq_true, if_false]
  rfl

/-! ## All chunks -/

/-- Fragments with their indices. -/
def indexed (fragments : List Text) : List (UInt64 × Text) :=
  fragments.zipIdx.map fun fragment => (UInt64.ofNat fragment.2, fragment.1)

include standard in
theorem foldlM_addChunk {pieces : List (UInt64 × Text)}
    (escaped : ∀ piece ∈ pieces, Json.QuotesEscaped piece.2) (joined : Text) :
    (pieces.map fun piece => (piece.1, message.chunkValue piece.1.toNat piece.2)).foldlM
        (addChunk crates) (some (.object message.fields), joined) =
      .ok (some (.object message.fields), joined ++ (pieces.map (·.2)).flatten) := by
  induction pieces generalizing joined with
  | nil =>
      rw [List.map_nil, List.map_nil, List.flatten_nil, List.append_nil]
      rfl
  | cons piece pieces ih =>
      obtain ⟨first, others⟩ := List.forall_mem_cons.mp escaped
      have added := addChunk_chunkValue standard message first piece.1
        (fun value (isFirst : value ∈ some (Value.object message.fields)) =>
          (Option.some.inj isFirst).symm) joined
      rw [List.map_cons, List.foldlM_cons, added]
      exact (ih others _).trans (by simp)

include standard in
theorem decodeChunks_pieces {pieces : List (UInt64 × Text)} (nonempty : pieces ≠ [])
    (joins : (pieces.map (·.2)).flatten = message.body) :
    decodeChunks crates message.base
        (pieces.map fun piece => (piece.1, message.chunkValue piece.1.toNat piece.2)) =
      message.outcome := by
  have whole := (Json.quotesEscaped_of_isBody message.isBody).1
  have escaped : ∀ piece ∈ pieces, Json.QuotesEscaped piece.2 := by
    intro piece member
    apply whole.infix
    rw [← joins]
    exact List.infix_of_mem_flatten (List.mem_map_of_mem member)
  have folded : (pieces.map fun piece =>
      (piece.1, message.chunkValue piece.1.toNat piece.2)).foldlM (addChunk crates) (none, []) =
        .ok (some (.object message.fields), message.body) := by
    cases pieces with
    | nil => exact absurd rfl nonempty
    | cons piece pieces =>
        obtain ⟨first, others⟩ := List.forall_mem_cons.mp escaped
        have added := addChunk_chunkValue standard message first piece.1
          (fun value (noValue : value ∈ none) => nomatch noValue) []
        rw [List.map_cons, List.foldlM_cons, added]
        refine (foldlM_addChunk standard message others _).trans ?_
        rw [← joins]
        simp
  have quoted : "\"".toList ++ message.body ++ "\"".toList = '"' :: message.body ++ ['"'] := rfl
  unfold decodeChunks Message.outcome
  rw [message.validBase, folded]
  simp only [bind, Except.bind]
  rw [quoted, standard.jsonFromStr_eq, Json.fromStr_string message.isBody]
  cases Json.unescape message.body <;> rfl

end Values

/-! ## Keys -/

section Keys

variable {crates : Crates}

theorem ite_throw_ok {ε α : Type} {condition : Prop} [Decidable condition] {error : ε}
    {next : Except ε α} {value : α}
    (passed : (if condition then throw error else next) = .ok value) :
    ¬ condition ∧ next = .ok value := by
  split at passed
  · cases passed
  · rename_i accepted
    exact ⟨accepted, passed⟩

theorem fields_of_parseKey {base : Text} {key : CloudInitKey}
    (valid : parseKey crates base = .ok key) :
    (∃ incarnation kind name eventId,
        base.splitOn '|' = [keyPrefix, incarnation, kind, name, eventId]) ∨
      ∃ incarnation kind name vmId eventId,
        base.splitOn '|' = [keyPrefix, incarnation, kind, name, vmId, eventId] ∧
          crates.parseUuid eventId = true := by
  unfold parseKey at valid
  dsimp only at valid
  split at valid
  · rename_i opening incarnation kind name eventId fields
    simp only [bind, Except.bind, pure, Except.pure, Option.any_none, Bool.false_eq_true,
      if_false] at valid
    obtain ⟨accepted, -⟩ := ite_throw_ok valid
    simp only [Bool.or_eq_true, bne_iff_ne, not_or, not_not] at accepted
    obtain rfl := accepted.1.1.1
    exact .inl ⟨incarnation, kind, name, eventId, fields⟩
  · rename_i opening incarnation kind name vmId eventId fields
    simp only [bind, Except.bind, pure, Except.pure] at valid
    obtain ⟨accepted, valid⟩ := ite_throw_ok valid
    obtain ⟨-, valid⟩ := ite_throw_ok valid
    obtain ⟨isUuid, -⟩ := ite_throw_ok valid
    simp only [Bool.or_eq_true, bne_iff_ne, not_or, not_not] at accepted
    obtain rfl := accepted.1.1.1
    exact .inr ⟨incarnation, kind, name, vmId, eventId, fields, by simpa using isUuid⟩
  · cases valid

theorem firstField_of_parseKey {base : Text} {key : CloudInitKey}
    (valid : parseKey crates base = .ok key) :
    Delimited.firstField '|' base = keyPrefix := by
  rcases fields_of_parseKey valid with short | long
  · obtain ⟨_, _, _, _, fields⟩ := short
    exact Delimited.firstField_of_splitOn fields
  · obtain ⟨_, _, _, _, _, fields, -⟩ := long
    exact Delimited.firstField_of_splitOn fields

theorem splitKey_base {base : Text} {key : CloudInitKey}
    (valid : parseKey crates base = .ok key) : splitKey crates base = .ok (base, none) := by
  unfold splitKey
  rcases fields_of_parseKey valid with short | long
  · obtain ⟨_, _, _, _, fields⟩ := short
    rw [fields]
    simp [bind, Except.bind, pure, Except.pure, valid]
  · obtain ⟨_, _, _, _, _, fields, isUuid⟩ := long
    rw [fields]
    simp [bind, Except.bind, pure, Except.pure, valid, isUuid]

theorem splitKey_chunkKey {base : Text} {key : CloudInitKey}
    (uuids : ∀ text : Text, crates.parseUuid text = true → 32 ≤ text.length)
    (valid : parseKey crates base = .ok key) (index : UInt64) :
    splitKey crates (chunkKey base index.toNat) = .ok (base, some index) := by
  have notUuid : crates.parseUuid (Decimal.digits index.toNat) = false := by
    rw [← Bool.not_eq_true]
    intro isUuid
    have short : (Decimal.digits index.toNat).length ≤ 20 :=
      (Nat.length_toDigits_le_iff (by decide) (by decide)).mpr
        (Nat.lt_trans index.toNat_lt_size (by decide))
    have long := uuids _ isUuid
    omega
  have noSeparator : (Decimal.digits index.toNat).splitOn '|' = [Decimal.digits index.toNat] :=
    List.splitOn_eq_singleton (Decimal.not_mem_digits (by decide))
  have fields : (chunkKey base index.toNat).splitOn '|' =
      base.splitOn '|' ++ [Decimal.digits index.toNat] := by
    unfold chunkKey
    rw [List.splitOn_append_cons_self, noSeparator]
  unfold splitKey
  dsimp only
  rw [fields, rsplitOnce?_chunkKey]
  rcases fields_of_parseKey valid with short | long
  · obtain ⟨_, _, _, _, baseFields⟩ := short
    rw [baseFields]
    simp [bind, Except.bind, pure, Except.pure, valid, notUuid, okOr, parseUnsigned_digits]
  · obtain ⟨_, _, _, _, _, baseFields, -⟩ := long
    rw [baseFields]
    simp [bind, Except.bind, pure, Except.pure, valid, okOr, parseUnsigned_digits]

end Keys

/-! ## What the reader makes of the records -/

section Group

variable {crates : Crates} (message : Message crates)

theorem Message.placeRecord_single :
    placeRecord crates message.single =
      match decodeSingle crates message.base message.singleValue with
      | .ok diagnostic => .entry (.diagnostic diagnostic)
      | .error error => .entry (.raw
          { key := message.base, value := message.singleValue, error := some error }) := by
  unfold placeRecord
  simp only [Message.single, firstField_of_parseKey message.validBase]
  rw [if_neg (by decide), if_pos (by decide), splitKey_base message.validBase]
  rfl

theorem Message.placeRecord_chunk
    (uuids : ∀ text : Text, crates.parseUuid text = true → 32 ≤ text.length)
    (index : UInt64) (value : Text) :
    placeRecord crates (chunkKey message.base index.toNat, value) =
      .chunk message.base index := by
  have first : Delimited.firstField '|' (chunkKey message.base index.toNat) = keyPrefix :=
    (Delimited.firstField_append_cons '|' message.base _).trans
      (firstField_of_parseKey message.validBase)
  unfold placeRecord
  simp only [first]
  rw [if_neg (by decide), if_pos (by decide), splitKey_chunkKey uuids message.validBase]
  rfl

/-- The index of a chunk with the value of its record. -/
def indexedValue (chunk : Chunk) : UInt64 × Text := (chunk.index, chunk.raw.value)

theorem result_decodeGroup (chunks : List Chunk) :
    (decodeGroup crates message.base).result chunks =
      (checkOrder (sortChunks chunks)).bind fun _ =>
        decodeChunks crates message.base ((sortChunks chunks).map indexedValue) := by
  have isCloudInit : (Delimited.firstField '|' message.base == keyPrefix) = true := by
    rw [firstField_of_parseKey message.validBase]
    rfl
  unfold decodeGroup
  rw [if_pos isCloudInit]
  simp only [result_bind, result_orderChunks, left_orderChunks, result_get, left_get,
    result_ofExcept]
  rfl

/-- Chunks that are numbered from zero on are put in the order of their numbers. -/
theorem sorted_of_perm {chunks : List Chunk} {values : List (UInt64 × Text)}
    (perm : (chunks.map indexedValue).Perm values)
    (numbered : values.map (·.1.toNat) = List.range values.length) :
    Complete chunks ∧ (sortChunks chunks).map indexedValue = values := by
  constructor
  · have numbers := perm.map (·.1.toNat)
    rw [numbered, List.map_map, ← perm.length_eq, List.length_map] at numbers
    exact numbers
  · apply Grouping.eq_of_perm_of_increasing (fun value : UInt64 × Text => value.1.toNat)
    · exact ((sortChunks_perm chunks).map indexedValue).trans perm
    · rw [List.pairwise_map]
      exact sortChunks_ordered chunks
    · rw [← List.pairwise_map (f := fun value : UInt64 × Text => value.1.toNat) (R := (· < ·)),
        numbered]
      exact List.pairwise_lt_range

variable {fragments : List Text}

theorem toNat_of_mem_indexed (few : fragments.length ≤ UInt64.size) {fragment : Text × Nat}
    (member : fragment ∈ fragments.zipIdx) : (UInt64.ofNat fragment.2).toNat = fragment.2 := by
  apply UInt64.toNat_ofNat_of_lt'
  exact Nat.lt_of_lt_of_le (List.snd_lt_of_mem_zipIdx member) few

theorem indexed_numbered (few : fragments.length ≤ UInt64.size) :
    (indexed fragments).map (·.1.toNat) = List.range fragments.length := by
  have positions : (indexed fragments).map (·.1.toNat) = fragments.zipIdx.map Prod.snd := by
    unfold indexed
    rw [List.map_map]
    exact List.map_congr_left fun fragment member => toNat_of_mem_indexed few member
  rw [positions, List.zipIdx_map_snd, List.range_eq_range']

theorem Message.chunks_eq (few : fragments.length ≤ UInt64.size) :
    message.chunks fragments = (indexed fragments).map fun piece =>
      (chunkKey message.base piece.1.toNat, message.chunkValue piece.1.toNat piece.2) := by
  unfold Message.chunks indexed
  rw [List.map_map]
  apply List.map_congr_left
  intro fragment member
  rw [Function.comp_apply, toNat_of_mem_indexed few member]

theorem indexed_snd (fragments : List Text) : (indexed fragments).map (·.2) = fragments := by
  unfold indexed
  rw [List.map_map]
  exact List.zipIdx_map_fst 0 fragments

variable {records : List (Text × Text)}

theorem Message.recordGroup_chunk
    (uuids : ∀ text : Text, crates.parseUuid text = true → 32 ≤ text.length)
    (few : fragments.length ≤ UInt64.size) {record : Text × Text}
    (member : record ∈ message.chunks fragments) :
    recordGroup crates record = some message.base := by
  rw [message.chunks_eq few] at member
  obtain ⟨piece, -, rfl⟩ := List.mem_map.mp member
  unfold recordGroup
  rw [message.placeRecord_chunk uuids]

theorem Message.values_of_arrived
    (uuids : ∀ text : Text, crates.parseUuid text = true → 32 ≤ text.length)
    (few : fragments.length ≤ UInt64.size) (arrived : records.Perm (message.chunks fragments)) :
    ((chunksOf crates records.zipIdx message.base).map indexedValue).Perm
      ((indexed fragments).map fun piece =>
        (piece.1, message.chunkValue piece.1.toNat piece.2)) := by
  have grouped : ∀ numbered ∈ records.zipIdx, groupKey crates numbered = some message.base := by
    intro numbered member
    exact message.recordGroup_chunk uuids few
      (arrived.mem_iff.mp (List.fst_mem_of_mem_zipIdx member))
  have ownValue : indexedValue ∘ chunkAt crates =
      (fun record => indexedValue (chunkAt crates (record, 0))) ∘ Prod.fst := rfl
  unfold chunksOf
  rw [Grouping.membersOf_eq_self _ grouped, List.map_map, ownValue, ← List.map_map,
    List.zipIdx_map_fst]
  refine (arrived.map _).trans ?_
  rw [message.chunks_eq few, List.map_map]
  refine .of_eq (List.map_congr_left ?_)
  intro piece _
  simp only [Function.comp_apply, indexedValue, chunkAt, message.placeRecord_chunk uuids]
  rfl

end Group

/-- The output for records that lead to one outcome. -/
def entriesOf (records : List (Text × Text)) : Except DecodeError Diagnostic → List Entry
  | .ok diagnostic => [.diagnostic diagnostic]
  | .error error => asRaw records error

theorem decodeEntries_single {crates : Crates} (message : Message crates) (order : HashOrder) :
    decodeEntries crates order [message.single] =
      entriesOf [message.single] (decodeSingle crates message.base message.singleValue) := by
  rw [decodeEntries_eq]
  simp only [List.zipIdx_cons, List.zipIdx_nil, List.flatMap_cons, List.flatMap_nil,
    List.append_nil, contribution, message.placeRecord_single]
  cases decodeSingle crates message.base message.singleValue <;> rfl

theorem decodeEntries_chunks {crates : Crates} {numberOf : Text → Option Number}
    (standard : StandardJson crates numberOf)
    (uuids : ∀ text : Text, crates.parseUuid text = true → 32 ≤ text.length)
    (message : Message crates) {fragments : List Text} (cut : fragments ≠ [])
    (joins : fragments.flatten = message.body) (few : fragments.length ≤ UInt64.size)
    {records : List (Text × Text)} (arrived : records.Perm (message.chunks fragments))
    (order : HashOrder) :
    decodeEntries crates order records = entriesOf records message.outcome := by
  have grouped : ∀ record ∈ records, recordGroup crates record = some message.base :=
    fun record member => message.recordGroup_chunk uuids few (arrived.mem_iff.mp member)
  have nonempty : records ≠ [] := by
    intro none_arrived
    apply cut
    have sameLength := arrived.length_eq
    rw [none_arrived, Message.chunks, List.length_map, List.length_zipIdx] at sameLength
    exact List.length_eq_zero_iff.mp sameLength.symm
  have values := message.values_of_arrived uuids few arrived
  obtain ⟨complete, inOrder⟩ := sorted_of_perm values (by
    rw [List.map_map, List.length_map, ← List.length_map (f := (·.2)), indexed_snd]
    exact indexed_numbered few)
  have pieces : indexed fragments ≠ [] := by
    intro empty
    apply cut
    rw [← indexed_snd fragments, empty, List.map_nil]
  have decoded : groupResult crates records.zipIdx message.base = message.outcome := by
    unfold groupResult
    rw [result_decodeGroup, checkOrder_of_complete complete, inOrder]
    exact decodeChunks_pieces standard message pieces (by rw [indexed_snd, joins])
  rw [decodeEntries_of_one_group crates order nonempty grouped, decoded]
  cases message.outcome <;> rfl

/-- A message in fragments is decoded to what the whole message is decoded to, wherever it
was cut and in whatever order its records arrive. -/
theorem chunks_decode_as_whole {crates : Crates} {numberOf : Text → Option Number}
    (standard : StandardJson crates numberOf)
    (uuids : ∀ text : Text, crates.parseUuid text = true → 32 ≤ text.length)
    (message : Message crates) {fragments : List Text} (cut : fragments ≠ [])
    (joins : fragments.flatten = message.body) (few : fragments.length ≤ UInt64.size)
    {records : List (Text × Text)} (arrived : records.Perm (message.chunks fragments))
    (order wholeOrder : HashOrder) :
    (∃ outcome : Except DecodeError Diagnostic,
      decodeEntries crates wholeOrder [message.single] = entriesOf [message.single] outcome ∧
        decodeEntries crates order records = entriesOf records outcome) ∧
      ∀ (index : Nat) (fragment : Text), fragments[index]? = some fragment →
        (chunkParts crates (message.chunkValue index fragment)).map Prod.snd = .ok fragment := by
  constructor
  · refine ⟨message.outcome, ?_, decodeEntries_chunks standard uuids message cut joins few arrived order⟩
    rw [decodeEntries_single, decodeSingle_singleValue standard]
  · intro index fragment stored
    obtain ⟨inside, -⟩ := List.getElem?_eq_some_iff.mp stored
    have whole := (Json.quotesEscaped_of_isBody message.isBody).1
    have escaped : Json.QuotesEscaped fragment := by
      apply whole.infix
      rw [← joins]
      exact List.infix_of_mem_flatten (List.mem_of_getElem? stored)
    have number : (UInt64.ofNat index).toNat = index :=
      UInt64.toNat_ofNat_of_lt' (Nat.lt_of_lt_of_le inside few)
    have parts := chunkParts_chunkValue standard message escaped (UInt64.ofNat index)
    rw [number] at parts
    rw [parts]
    rfl

/-! ## A message cut inside its escapes -/

/-- Unsigned literals without leading zeros. -/
def plainNumber (text : Text) : Option Number :=
  let value := Decimal.digitsValue text
  if Decimal.digits value = text ∧ value < UInt64.size then
    some (.posInt (UInt64.ofNat value))
  else none

def jsonReference : Crates :=
  { ReferenceCrates.reference with jsonFromStr := Json.fromStr plainNumber }

theorem jsonReference_standard : StandardJson jsonReference plainNumber where
  jsonFromStr_eq text := rfl
  number_digits value := by
    have few : value.toNat < UInt64.size := value.toNat_lt_size
    simp [plainNumber, few]
  number_finite text number read := by
    obtain ⟨-, same⟩ := Option.ite_none_right_eq_some.mp read
    obtain rfl := Option.some.inj same
    exact beq_self_eq_true _

theorem length_of_isUuid {text : Text} (isUuid : ReferenceCrates.isUuid text = true) :
    32 ≤ text.length := by
  simp only [ReferenceCrates.isUuid, Bool.and_eq_true, beq_iff_eq] at isUuid
  have joined : ['-'].intercalate (text.splitOn '-') = text := List.intercalate_splitOn '-'
  have total := Delimited.sum_length_le_intercalate '-' (text.splitOn '-')
  rw [joined, isUuid.1] at total
  exact total

/-- The members of an object, for a value that is one. -/
def objectMembers : Option Value → List (Text × Value)
  | some (.object members) => members
  | _ => []

theorem eq_object_of_members {value : Option Value}
    (given : (objectMembers value).isEmpty = false) :
    value = some (.object (objectMembers value)) := by
  cases value with
  | none => cases given
  | some value =>
      cases value with
      | object members => rfl
      | _ => cases given

def eventMembers : Text :=
  "\"name\":\"test\",\"type\":\"event\",\"ts\":\"2026-07-27T21:34:00Z\"".toList

def eventMetadata : Option Value :=
  jsonReference.jsonFromStr ('\x7b' :: eventMembers ++ ['\x7d'])

def emojiMessage : Message jsonReference where
  base := "CLOUD_INIT|1|event|test|8f3e9c4a-1b2c-4d5e-9f01-234567890abc".toList
  key :=
    { kind := "event".toList, name := "test".toList, vmId := none
      eventId := "8f3e9c4a-1b2c-4d5e-9f01-234567890abc".toList }
  members := eventMembers
  fields := objectMembers eventMetadata
  body := "line\\n\\ud83d\\ude00".toList
  validBase := by decide +kernel
  parsed := eq_object_of_members (by decide +kernel)
  nonempty := List.isEmpty_eq_false_iff.mp (by decide +kernel)
  noMessage := Option.isNone_iff_eq_none.mp (by decide +kernel)
  noIndex := Option.isNone_iff_eq_none.mp (by decide +kernel)
  isBody := by
    have line : Json.IsBody "\\n\\ud83d\\ude00".toList :=
      .escape (by decide) (.unit (List.all_eq_true.mp (by decide))
        (.unit (List.all_eq_true.mp (by decide)) .nil))
    exact .char (by decide) (by decide) (by decide) (.char (by decide) (by decide) (by decide)
      (.char (by decide) (by decide) (by decide) (.char (by decide) (by decide) (by decide) line)))

/-- The fragments end inside an escape and between the halves of a surrogate pair. -/
def emojiFragments : List Text :=
  ["line\\".toList, "n\\ud83d\\u".toList, "de00".toList]

theorem chunks_decode_as_whole_emoji :
    ∃ outcome : Except DecodeError Diagnostic,
      decodeEntries jsonReference unshuffled [emojiMessage.single] =
          entriesOf [emojiMessage.single] outcome ∧
        decodeEntries jsonReference unshuffled (emojiMessage.chunks emojiFragments).reverse =
          entriesOf (emojiMessage.chunks emojiFragments).reverse outcome :=
  (chunks_decode_as_whole jsonReference_standard (fun _ => length_of_isUuid) emojiMessage
    (by decide) (by decide) (by decide) (List.reverse_perm _) unshuffled unshuffled).1

end AzureInit.Diagnostics.CloudInit
