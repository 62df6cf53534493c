import AzureInit.Foundation.DelimitedText
import AzureInit.Foundation.Utf8Text

/-! Readers of texts. A local reader returns the same result, whatever text stands behind
what it has read, unless that text begins with a character that the reader looks for. -/

set_option autoImplicit false

namespace AzureInit.Foundation

abbrev Reader (α : Type) : Type := StateT Text Option α

namespace Reader

variable {α β : Type}

def next : Reader Char := fun text =>
  match text with
  | [] => none
  | c :: rest => some (c, rest)

def skipWhile (skipped : Char → Bool) : Reader Unit := fun text =>
  some ((), text.dropWhile skipped)

/-- The longest run of characters of a kind. -/
def run (taken : Char → Bool) : Reader Text := fun text =>
  some (text.takeWhile taken, text.dropWhile taken)

def ofOption (value : Option α) : Reader α := fun text => value.map (·, text)

theorem bind_apply (first : Reader α) (next : α → Reader β) (text : Text) :
    (first >>= next) text = (first text).bind fun result => next result.1 result.2 :=
  rfl

theorem bind_eq_some_iff {first : Reader α} {next : α → Reader β} {text : Text}
    {result : β × Text} :
    (first >>= next) text = some result ↔
      ∃ value middle, first text = some (value, middle) ∧ next value middle = some result := by
  rw [bind_apply, Option.bind_eq_some_iff, Prod.exists]

@[simp] theorem pure_apply (value : α) (text : Text) :
    (pure value : Reader α) text = some (value, text) := rfl

@[simp] theorem failure_apply (text : Text) : (failure : Reader α) text = none := rfl

/-! ## Locality -/

/-- A text that begins like another one, or with a character that is not looked for. -/
def Follows (sought : Char → Bool) (rest other : Text) : Prop :=
  ∀ c ∈ other.head?, sought c = true → rest.head? = some c

/-- The reader depends on what it reads alone. -/
def Local (sought : Char → Bool) (reader : Reader α) : Prop :=
  ∀ text value rest, reader text = some (value, rest) →
    ∃ read, text = read ++ rest ∧
      ∀ other, Follows sought rest other → reader (read ++ other) = some (value, other)

variable {sought : Char → Bool}

theorem Follows.append {rest other : Text} (follows : Follows sought rest other) (read : Text) :
    Follows sought (read ++ rest) (read ++ other) := by
  cases read with
  | nil => exact follows
  | cons c read =>
      intro first isFirst _
      exact isFirst

theorem follows_cons {c : Char} {rest other : Text} (unsought : sought c = false) :
    Follows sought rest (c :: other) := by
  intro first isFirst isSought
  cases isFirst
  rw [unsought] at isSought
  cases isSought

theorem local_pure (value : α) : Local sought (pure value) := by
  intro text result rest read
  cases read
  exact ⟨[], rfl, fun _ _ => rfl⟩

theorem local_failure : Local sought (failure : Reader α) := by
  intro text result rest read
  cases read

theorem local_ofOption (value : Option α) : Local sought (ofOption value) := by
  intro text result rest read
  obtain ⟨given, rfl, same⟩ := Option.map_eq_some_iff.mp read
  cases same
  exact ⟨[], rfl, fun _ _ => rfl⟩

theorem local_next : Local sought next := by
  intro text value rest read
  cases text with
  | nil => cases read
  | cons c text =>
      cases read
      exact ⟨[value], rfl, fun _ _ => rfl⟩

theorem Local.bind {first : Reader α} {next : α → Reader β} (isLocal : Local sought first)
    (nextLocal : ∀ value, Local sought (next value)) : Local sought (first >>= next) := by
  intro text result rest ran
  obtain ⟨value, middle, ranFirst, ranNext⟩ := bind_eq_some_iff.mp ran
  obtain ⟨readFirst, rfl, again⟩ := isLocal _ _ _ ranFirst
  obtain ⟨readNext, rfl, nextAgain⟩ := nextLocal value _ _ _ ranNext
  refine ⟨readFirst ++ readNext, (List.append_assoc ..).symm, ?_⟩
  intro other follows
  rw [List.append_assoc]
  exact bind_eq_some_iff.mpr ⟨value, readNext ++ other, again _ (follows.append readNext),
    nextAgain other follows⟩

theorem Local.ite {condition : Prop} [Decidable condition] {yes no : Reader α}
    (yesLocal : Local sought yes) (noLocal : Local sought no) :
    Local sought (if condition then yes else no) := by
  split
  · exact yesLocal
  · exact noLocal

/-- A run ends where it ended before. -/
theorem dropWhile_append_of_follows {taken : Char → Bool}
    (included : ∀ c, taken c = true → sought c = true) {text other : Text}
    (follows : Follows sought (text.dropWhile taken) other) :
    (text.takeWhile taken ++ other).takeWhile taken = text.takeWhile taken ∧
      (text.takeWhile taken ++ other).dropWhile taken = other := by
  have taken_all : ∀ c ∈ text.takeWhile taken, taken c = true := List.all_eq_true.mp List.all_takeWhile
  rw [List.takeWhile_append_of_pos taken_all, List.dropWhile_append_of_pos taken_all]
  cases other with
  | nil => simp
  | cons c other =>
      have ended : taken c = false := by
        rw [← Bool.not_eq_true]
        intro isTaken
        have first := follows c rfl (included c isTaken)
        have behind := List.head?_dropWhile_not taken text
        rw [first] at behind
        simp [isTaken] at behind
      simp [ended]

theorem local_run {taken : Char → Bool} (included : ∀ c, taken c = true → sought c = true) :
    Local sought (run taken) := by
  intro text value rest read
  cases read
  refine ⟨text.takeWhile taken, List.takeWhile_append_dropWhile.symm, ?_⟩
  intro other follows
  obtain ⟨front, behind⟩ := dropWhile_append_of_follows included follows
  simp only [run, front, behind]

theorem local_skipWhile {skipped : Char → Bool}
    (included : ∀ c, skipped c = true → sought c = true) : Local sought (skipWhile skipped) := by
  intro text value rest read
  cases read
  refine ⟨text.takeWhile skipped, List.takeWhile_append_dropWhile.symm, ?_⟩
  intro other follows
  simp only [skipWhile, (dropWhile_append_of_follows included follows).2]

/-! ## Lists between separators -/

/-- The next character that is not skipped. -/
def token (skipped : Char → Bool) : Reader Char := do
  skipWhile skipped
  next

/-- Items from a first character on, each with the separator or the closing character
behind it. -/
def separated (skipped : Char → Bool) (separator close : Char) (item : Char → Reader α) :
    Nat → Char → Reader (List α)
  | 0, _ => failure
  | fuel + 1, first => do
      let value ← item first
      let behind ← token skipped
      if behind = separator then
        let first ← token skipped
        let values ← separated skipped separator close item fuel first
        return value :: values
      else if behind = close then return [value]
      else failure

section Separated

variable {skipped : Char → Bool} {separator close : Char} {item : Char → Reader α}

theorem local_token (included : ∀ c, skipped c = true → sought c = true) :
    Local sought (token skipped) :=
  (local_skipWhile included).bind fun _ => local_next

theorem token_eq_some_iff {text rest : Text} {c : Char} :
    token skipped text = some (c, rest) ↔
      ∃ blank, text = blank ++ c :: rest ∧ (∀ c ∈ blank, skipped c = true) ∧
        skipped c = false := by
  have ran : token skipped text = next (text.dropWhile skipped) := rfl
  rw [ran]
  constructor
  · intro read
    cases left : text.dropWhile skipped with
    | nil =>
        rw [left] at read
        cases read
    | cons first behind =>
        rw [left] at read
        cases read
        refine ⟨text.takeWhile skipped, ?_, List.all_eq_true.mp List.all_takeWhile, ?_⟩
        · rw [← left, List.takeWhile_append_dropWhile]
        · have stopped := List.head?_dropWhile_not skipped text
          rw [left] at stopped
          simpa using stopped
  · intro split
    obtain ⟨blank, rfl, isBlank, stops⟩ := split
    rw [List.dropWhile_append_of_pos isBlank, List.dropWhile_cons_of_neg (by simp [stops])]
    rfl

theorem local_separated (included : ∀ c, skipped c = true → sought c = true) (itemLocal : ∀ first, Local sought (item first))
    (fuel : Nat) (first : Char) :
    Local sought (separated skipped separator close item fuel first) := by
  have tokenLocal := @local_token sought skipped included
  induction fuel generalizing first with
  | zero => exact local_failure
  | succ fuel ih =>
      apply (itemLocal first).bind
      intro value
      apply tokenLocal.bind
      intro behind
      apply Local.ite
      · apply tokenLocal.bind
        intro first
        exact (ih first).bind fun values => local_pure _
      · exact (local_pure _).ite local_failure

/-- What holds of every item holds of all items of a list. -/
theorem forall_of_separated {holds : α → Prop}
    (each : ∀ first text value rest, item first text = some (value, rest) → holds value)
    {fuel : Nat} {first : Char} {text rest : Text} {values : List α}
    (read : separated skipped separator close item fuel first text = some (values, rest)) :
    ∀ value ∈ values, holds value := by
  induction fuel generalizing first text values with
  | zero => cases read
  | succ fuel ih =>
      obtain ⟨value, behindItem, readItem, read⟩ := bind_eq_some_iff.mp read
      obtain ⟨behind, afterToken, -, read⟩ := bind_eq_some_iff.mp read
      split at read
      · obtain ⟨next, afterNext, -, read⟩ := bind_eq_some_iff.mp read
        obtain ⟨others, last, readOthers, built⟩ := bind_eq_some_iff.mp read
        cases built
        exact List.forall_mem_cons.mpr ⟨each _ _ _ _ readItem, ih readOthers⟩
      · split at read
        · cases read
          exact List.forall_mem_cons.mpr ⟨each _ _ _ _ readItem, by simp⟩
        · cases read

/-- A reader that looks at a first item and goes on with another reader reads no less
when that reader does. -/
theorem bind_ite_mono {β : Type} {next : Reader Char} {close : Char} {empty : Reader β}
    {less more : Char → Reader α} {build : α → Reader β}
    (items : ∀ first text result, less first text = some result → more first text = some result)
    {text : Text} {result : β × Text}
    (read : (next >>= fun first => if first = close then empty else less first >>= build) text =
      some result) :
    (next >>= fun first => if first = close then empty else more first >>= build) text =
      some result := by
  obtain ⟨first, behind, readFirst, read⟩ := bind_eq_some_iff.mp read
  refine bind_eq_some_iff.mpr ⟨first, behind, readFirst, ?_⟩
  split at read
  · rename_i isEmpty
    rw [if_pos isEmpty]
    exact read
  · rename_i notEmpty
    rw [if_neg notEmpty]
    obtain ⟨value, rest, readValue, built⟩ := bind_eq_some_iff.mp read
    exact bind_eq_some_iff.mpr ⟨value, rest, items _ _ _ readValue, built⟩

/-- More fuel reads no less. -/
theorem separated_mono {more : Char → Reader α}
    (items : ∀ first text result, item first text = some result → more first text = some result)
    {fuel fuel' : Nat} (enough : fuel ≤ fuel') {first : Char} {text : Text}
    {result : List α × Text}
    (read : separated skipped separator close item fuel first text = some result) :
    separated skipped separator close more fuel' first text = some result := by
  induction fuel generalizing fuel' first text result with
  | zero => cases read
  | succ fuel ih =>
      obtain ⟨fuel', rfl⟩ : ∃ left, fuel' = left + 1 := ⟨fuel' - 1, by omega⟩
      obtain ⟨value, behindItem, readItem, read⟩ := bind_eq_some_iff.mp read
      obtain ⟨behind, afterToken, readBehind, read⟩ := bind_eq_some_iff.mp read
      refine bind_eq_some_iff.mpr ⟨value, behindItem, items _ _ _ readItem, ?_⟩
      refine bind_eq_some_iff.mpr ⟨behind, afterToken, readBehind, ?_⟩
      split at read
      · rename_i isSeparator
        rw [if_pos isSeparator]
        obtain ⟨next, afterNext, readNext, read⟩ := bind_eq_some_iff.mp read
        obtain ⟨others, last, readOthers, built⟩ := bind_eq_some_iff.mp read
        exact bind_eq_some_iff.mpr ⟨next, afterNext, readNext, bind_eq_some_iff.mpr
          ⟨others, last, ih (by omega) readOthers, built⟩⟩
      · rename_i notSeparator
        rw [if_neg notSeparator]
        exact read

theorem length_le_of_separated {fuel : Nat} {first : Char} {text rest : Text} {values : List α}
    (read : separated skipped separator close item fuel first text = some (values, rest)) :
    values.length ≤ fuel := by
  induction fuel generalizing first text values with
  | zero => cases read
  | succ fuel ih =>
      obtain ⟨value, behindItem, -, read⟩ := bind_eq_some_iff.mp read
      obtain ⟨behind, afterToken, -, read⟩ := bind_eq_some_iff.mp read
      split at read
      · obtain ⟨next, afterNext, -, read⟩ := bind_eq_some_iff.mp read
        obtain ⟨others, last, readOthers, built⟩ := bind_eq_some_iff.mp read
        cases built
        exact Nat.succ_le_succ (ih readOthers)
      · split at read
        · cases read
          exact Nat.succ_le_succ (Nat.zero_le _)
        · cases read

/-- Something is read behind each item. -/
theorem ne_nil_of_separated (itemLocal : ∀ first, Local sought (item first)) {fuel : Nat}
    {first : Char} {text : Text} {result : List α × Text}
    (read : separated skipped separator close item fuel first text = some result) : text ≠ [] := by
  cases fuel with
  | zero => cases read
  | succ fuel =>
      obtain ⟨value, afterItem, readItem, read⟩ := bind_eq_some_iff.mp read
      obtain ⟨c, afterToken, readToken, -⟩ := bind_eq_some_iff.mp read
      obtain ⟨itemText, rfl, -⟩ := itemLocal first _ _ _ readItem
      obtain ⟨blank, rfl, -⟩ := token_eq_some_iff.mp readToken
      simp

/-- The step of a list at an item with a separator behind it. -/
theorem separated_cons (unsought : sought separator = false) {fuel : Nat} {first c : Char}
    {itemText blank afterToken : Text} {value : α}
    (again : ∀ other, Follows sought (blank ++ c :: afterToken) other →
      item first (itemText ++ other) = some (value, other))
    (isBlank : ∀ c ∈ blank, skipped c = true) (stops : skipped separator = false)
    (behind : Text) :
    separated skipped separator close item (fuel + 1) first
        (itemText ++ (blank ++ separator :: behind)) =
      ((token skipped >>= separated skipped separator close item fuel) behind).map fun result =>
        (value :: result.1, result.2) := by
  have readItem := again (blank ++ separator :: behind) ((follows_cons unsought).append blank)
  have readToken := (@token_eq_some_iff skipped _ behind separator).mpr
    ⟨blank, rfl, isBlank, stops⟩
  rw [separated, bind_apply, readItem, Option.bind_some, bind_apply, readToken, Option.bind_some,
    if_pos rfl, bind_apply, bind_apply]
  cases token skipped behind with
  | none => rfl
  | some next =>
      rw [Option.bind_some, Option.bind_some, bind_apply]
      cases separated skipped separator close item fuel next.1 next.2 <;> rfl

/-- A list that ends with its text goes on behind a separator in place of the closing
character. -/
theorem separated_extend (itemLocal : ∀ first, Local sought (item first))
    (unsought : sought separator = false) (stops : skipped separator = false)
    {fuel : Nat} {first : Char} {front : Text} {values : List α}
    (read : separated skipped separator close item fuel first (front ++ [close]) =
      some (values, [])) (more : Nat) (behind : Text) :
    separated skipped separator close item (more + values.length) first
        (front ++ separator :: behind) =
      ((token skipped >>= separated skipped separator close item more) behind).map fun result =>
        (values ++ result.1, result.2) := by
  induction fuel generalizing first front values with
  | zero => cases read
  | succ fuel ih =>
      obtain ⟨value, afterItem, readItem, readBehind⟩ := bind_eq_some_iff.mp read
      obtain ⟨c, afterToken, readToken, readRest⟩ := bind_eq_some_iff.mp readBehind
      obtain ⟨itemText, joined, again⟩ := itemLocal first _ _ _ readItem
      obtain ⟨blank, rfl, isBlank, -⟩ := token_eq_some_iff.mp readToken
      by_cases isSeparator : c = separator
      · rw [if_pos isSeparator] at readRest
        obtain ⟨next, afterNext, readNext, readList⟩ := bind_eq_some_iff.mp readRest
        obtain ⟨others, last, readOthers, built⟩ := bind_eq_some_iff.mp readList
        cases built
        obtain ⟨nextBlank, rfl, nextIsBlank, nextStops⟩ := token_eq_some_iff.mp readNext
        obtain ⟨rest, final, rfl⟩ :=
          (List.eq_nil_or_concat afterNext).resolve_left (ne_nil_of_separated itemLocal readOthers)
        have shape : front ++ [close] =
            (itemText ++ (blank ++ c :: (nextBlank ++ next :: rest))) ++ [final] := by
          rw [joined]
          simp
        obtain ⟨rfl, same⟩ := List.append_inj' shape rfl
        obtain rfl := (List.cons.inj same).1
        rw [List.concat_eq_append] at readOthers
        have othersGoOn := ih readOthers
        have step := @separated_cons _ sought skipped separator close item unsought
          (more + others.length) first c itemText blank _ value again isBlank stops
          (nextBlank ++ next :: rest ++ separator :: behind)
        have readAgain := (@token_eq_some_iff skipped (nextBlank ++ next :: rest ++ separator :: behind)
          (rest ++ separator :: behind) next).mpr ⟨nextBlank, by simp, nextIsBlank, nextStops⟩
        rw [bind_apply, readAgain, Option.bind_some, othersGoOn] at step
        rw [isSeparator]
        simp only [List.append_assoc, List.cons_append, List.length_cons, ← Nat.add_assoc] at step ⊢
        rw [step, Option.map_map]
        rfl
      · rw [if_neg isSeparator] at readRest
        by_cases isClose : c = close
        · rw [if_pos isClose] at readRest
          cases readRest
          have shape : front ++ [close] = (itemText ++ blank) ++ [c] := by
            rw [joined]
            simp
          obtain ⟨rfl, -⟩ := List.append_inj' shape rfl
          rw [List.append_assoc]
          exact separated_cons unsought again isBlank stops behind
        · rw [if_neg isClose] at readRest
          cases readRest

/-- The item is read from what it is shown as, where a separator or the end is behind it. -/
def Shows (skipped : Char → Bool) (separator close : Char) (item : Char → Reader α) (shown : Text)
    (value : α) : Prop :=
  ∃ first tail, shown = first :: tail ∧ skipped first = false ∧ first ≠ close ∧
    ∀ c, c = separator ∨ c = close → ∀ rest, item first (tail ++ c :: rest) = some (value, c :: rest)

theorem token_of_unskipped {c : Char} (unskipped : skipped c = false) (rest : Text) :
    token skipped (c :: rest) = some (c, rest) :=
  token_eq_some_iff.mpr ⟨[], rfl, by simp, unskipped⟩

/-- Items are read from what they are shown as, with separators between them. -/
theorem separated_intercalate {print : α → Text} {values : List α} (given : values ≠ [])
    (shows : ∀ value ∈ values, Shows skipped separator close item (print value) value)
    (separates : skipped separator = false) (closes : skipped close = false)
    (different : close ≠ separator) {fuel : Nat} (enough : values.length ≤ fuel) (rest : Text) :
    ∃ first behind, [separator].intercalate (values.map print) ++ close :: rest =
        first :: behind ∧ skipped first = false ∧ first ≠ close ∧
      separated skipped separator close item fuel first behind = some (values, rest) := by
  induction values generalizing fuel with
  | nil => exact absurd rfl given
  | cons value values ih =>
      obtain ⟨isShown, others⟩ := List.forall_mem_cons.mp shows
      obtain ⟨first, tail, shown, unskipped, notClose, read⟩ := isShown
      obtain ⟨fuel, rfl⟩ : ∃ less, fuel = less + 1 := ⟨fuel - 1, by simp at enough; omega⟩
      cases values with
      | nil =>
          refine ⟨first, tail ++ close :: rest, ?_, unskipped, notClose, ?_⟩
          · rw [List.map_singleton, List.intercalate_singleton, shown, List.cons_append]
          · rw [separated, bind_apply, read close (.inr rfl), Option.bind_some, bind_apply,
              token_of_unskipped closes, Option.bind_some, if_neg different, if_pos rfl]
            rfl
      | cons next values =>
          obtain ⟨c, behind, text, stops, -, readOthers⟩ :=
            ih (List.cons_ne_nil _ _) others (Nat.le_of_succ_le_succ enough)
          refine ⟨first, tail ++ separator :: c :: behind, ?_, unskipped, notClose, ?_⟩
          · rw [← text, List.map_cons, List.map_cons, List.intercalate_cons_cons, shown]
            simp
          · rw [separated, bind_apply, read separator (.inl rfl), Option.bind_some, bind_apply,
              token_of_unskipped separates, Option.bind_some, if_pos rfl]
            exact bind_eq_some_iff.mpr ⟨c, behind, token_of_unskipped stops behind,
              bind_eq_some_iff.mpr ⟨_, _, readOthers, rfl⟩⟩

/-- A list that may be empty is read from its items up to the closing character. -/
theorem closed_intercalate {β : Type} {print : α → Text} {values : List α} (build : List α → β)
    (shows : ∀ value ∈ values, Shows skipped separator close item (print value) value)
    (separates : skipped separator = false) (closes : skipped close = false)
    (different : close ≠ separator) {fuel : Nat}
    (enough : ([separator].intercalate (values.map print)).length ≤ fuel) (rest : Text) :
    (token skipped >>= fun first =>
      if first = close then (pure (build []) : Reader β)
      else separated skipped separator close item fuel first >>= fun items => pure (build items))
        ([separator].intercalate (values.map print) ++ close :: rest) =
      some (build values, rest) := by
  by_cases given : values = []
  · subst given
    refine bind_eq_some_iff.mpr ⟨close, rest, token_of_unskipped closes rest, ?_⟩
    rw [if_pos rfl]
    rfl
  · have each : ∀ size ∈ (values.map print).map List.length, 1 ≤ size := by
      intro size member
      obtain ⟨shown, inShown, rfl⟩ := List.mem_map.mp member
      obtain ⟨value, inValues, rfl⟩ := List.mem_map.mp inShown
      obtain ⟨first, tail, isShown, -⟩ := shows value inValues
      rw [isShown]
      exact Nat.succ_le_succ (Nat.zero_le _)
    have few : values.length ≤ fuel := by
      have counted := List.length_le_sum_of_one_le _ each
      rw [List.length_map, List.length_map] at counted
      exact (counted.trans (Delimited.sum_length_le_intercalate separator _)).trans enough
    obtain ⟨first, behind, text, unskipped, notClose, read⟩ :=
      separated_intercalate given shows separates closes different few rest
    rw [text]
    refine bind_eq_some_iff.mpr ⟨first, behind, token_of_unskipped unskipped behind, ?_⟩
    rw [if_neg notClose]
    exact bind_eq_some_iff.mpr ⟨values, rest, read, rfl⟩

end Separated

end Reader

end AzureInit.Foundation
