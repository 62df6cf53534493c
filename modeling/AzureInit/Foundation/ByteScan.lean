import AzureInit.Foundation.Utf8Text

/-! Scans over a byte list by index, and what they mean on the text behind the bytes.
An index that a scan of encoded text stops at is a character boundary when the scan
looks for ASCII characters only. -/

set_option autoImplicit false

namespace AzureInit.Foundation.ByteScan

/-- Where a scan stops that goes on over some values. -/
def skipWhile {α : Type} (goesOn : α → Bool) (values : List α) (index : Nat) : Nat :=
  if inside : index < values.length then
    if goesOn values[index] then skipWhile goesOn values (index + 1) else index
  else index
termination_by values.length - index

/-- Whether a scan finds a value, and the index behind it. -/
def findBehind {α : Type} [BEq α] (value : α) (values : List α) (index : Nat) : Bool × Nat :=
  if inside : index < values.length then
    if values[index] == value then (true, index + 1) else findBehind value values (index + 1)
  else (false, index)
termination_by values.length - index

section Scans

variable {α : Type}

theorem le_skipWhile (goesOn : α → Bool) (values : List α) (index : Nat) :
    index ≤ skipWhile goesOn values index := by
  fun_induction skipWhile goesOn values index <;> omega

theorem skipWhile_append (goesOn : α → Bool) (front rest : List α) :
    skipWhile goesOn (front ++ rest) front.length =
      front.length + (rest.takeWhile goesOn).length := by
  induction rest generalizing front with
  | nil =>
      unfold skipWhile
      simp
  | cons value rest ih =>
      unfold skipWhile
      by_cases goes : goesOn value = true
      · have next := ih (front ++ [value])
        rw [← List.append_cons, List.length_append, List.length_singleton] at next
        simp [goes, next]
        omega
      · simp [goes]

variable [BEq α] [LawfulBEq α]

omit [LawfulBEq α] in
theorem le_findBehind (value : α) (values : List α) (index : Nat) :
    index ≤ (findBehind value values index).2 := by
  fun_induction findBehind value values index <;> grind

theorem findBehind_append_of_not_mem {value : α} {rest : List α} (front : List α)
    (absent : value ∉ rest) :
    findBehind value (front ++ rest) front.length = (false, front.length + rest.length) := by
  induction rest generalizing front with
  | nil =>
      unfold findBehind
      simp
  | cons first rest ih =>
      rw [List.mem_cons, not_or] at absent
      have next := ih (front ++ [first]) absent.2
      rw [← List.append_cons, List.length_append, List.length_singleton] at next
      unfold findBehind
      simp [Ne.symm absent.1, next]
      omega

theorem findBehind_append_cons {value : α} {left : List α} (front right : List α)
    (absent : value ∉ left) :
    findBehind value (front ++ (left ++ value :: right)) front.length =
      (true, front.length + left.length + 1) := by
  induction left generalizing front with
  | nil =>
      unfold findBehind
      simp
  | cons first left ih =>
      rw [List.mem_cons, not_or] at absent
      have next := ih (front ++ [first]) absent.2
      rw [← List.append_cons, List.length_append, List.length_singleton] at next
      unfold findBehind
      simp [Ne.symm absent.1, next]
      omega

end Scans

/-! ## Encoded text -/

/-- Every byte of a character tells whether it is an ASCII character. -/
theorem beq_ascii_of_mem (ascii : Char) {c : Char} (isAscii : ascii.toNat < 128) {byte : UInt8}
    (member : byte ∈ String.utf8EncodeChar c) :
    (byte == UInt8.ofNat ascii.toNat) = (c == ascii) := by
  rw [Bool.eq_iff_iff, beq_iff_eq, beq_iff_eq]
  constructor
  · intro same
    rw [same] at member
    exact (Utf8.ascii_mem_encodeChar_iff isAscii).mp member
  · intro same
    rw [same, Utf8.encodeChar_ascii isAscii] at member
    exact List.mem_singleton.mp member

/-- A scan that tells characters by each of their bytes stops between characters. -/
theorem takeWhile_encode {onBytes : UInt8 → Bool} {onChars : Char → Bool}
    (tells : ∀ c, ∀ byte ∈ String.utf8EncodeChar c, onBytes byte = onChars c) (text : Text) :
    (Utf8.encode text).takeWhile onBytes = Utf8.encode (text.takeWhile onChars) := by
  induction text with
  | nil => rfl
  | cons c text ih =>
      rw [Utf8.encode_cons]
      cases stays : onChars c with
      | true =>
          have all : ∀ byte ∈ String.utf8EncodeChar c, onBytes byte = true := fun byte member =>
            (tells c byte member).trans stays
          rw [List.takeWhile_append_of_pos all, ih, List.takeWhile_cons_of_pos stays,
            Utf8.encode_cons]
      | false =>
          cases bytes : String.utf8EncodeChar c with
          | nil => exact absurd bytes String.utf8EncodeChar_ne_nil
          | cons first bytes' =>
              have stops : onBytes first = false :=
                (tells c first (by rw [bytes]; exact List.mem_cons_self)).trans stays
              rw [List.cons_append, List.takeWhile_cons_of_neg (by simp [stops]),
                List.takeWhile_cons_of_neg (by simp [stays]), Utf8.encode_nil]

theorem skipWhile_encode {onBytes : UInt8 → Bool} {onChars : Char → Bool}
    (tells : ∀ c, ∀ byte ∈ String.utf8EncodeChar c, onBytes byte = onChars c)
    (front rest : Text) :
    skipWhile onBytes (Utf8.encode (front ++ rest)) (Utf8.byteLength front) =
      Utf8.byteLength (front ++ rest.takeWhile onChars) := by
  rw [Utf8.encode_append, ← Utf8.length_encode front, skipWhile_append, takeWhile_encode tells,
    ← List.length_append, ← Utf8.encode_append]
  rfl

theorem getElem?_encode_nil (front : Text) :
    (Utf8.encode front)[Utf8.byteLength front]? = none :=
  List.getElem?_eq_none (Nat.le_refl _)

/-- The byte at the boundary in front of a character is one of the character. -/
theorem exists_getElem?_encode (front : Text) (c : Char) (rest : Text) :
    ∃ byte ∈ String.utf8EncodeChar c,
      (Utf8.encode (front ++ c :: rest))[Utf8.byteLength front]? = some byte := by
  rw [Utf8.encode_append, ← Utf8.length_encode, List.getElem?_append_right (Nat.le_refl _),
    Nat.sub_self, Utf8.encode_cons]
  cases bytes : String.utf8EncodeChar c with
  | nil => exact absurd bytes String.utf8EncodeChar_ne_nil
  | cons first others => exact ⟨first, List.mem_cons_self, rfl⟩

theorem findBehind_encode_of_not_mem {ascii : Char} (isAscii : ascii.toNat < 128) {rest : Text}
    (front : Text) (absent : ascii ∉ rest) :
    findBehind (UInt8.ofNat ascii.toNat) (Utf8.encode (front ++ rest)) (Utf8.byteLength front) =
      (false, Utf8.byteLength (front ++ rest)) := by
  rw [Utf8.encode_append, ← Utf8.length_encode front, findBehind_append_of_not_mem,
    Utf8.byteLength_append]
  · rfl
  · intro member
    exact absent ((Utf8.ascii_mem_encode_iff isAscii).mp member)

theorem findBehind_encode {ascii : Char} (isAscii : ascii.toNat < 128) {left : Text}
    (front right : Text) (absent : ascii ∉ left) :
    findBehind (UInt8.ofNat ascii.toNat) (Utf8.encode (front ++ (left ++ ascii :: right)))
      (Utf8.byteLength front) = (true, Utf8.byteLength (front ++ (left ++ [ascii]))) := by
  have oneByte := congrArg List.length (Utf8.encodeChar_ascii isAscii)
  rw [String.length_utf8EncodeChar, List.length_singleton] at oneByte
  rw [Utf8.encode_append, Utf8.encode_append, Utf8.encode_cons, Utf8.encodeChar_ascii isAscii,
    List.singleton_append, ← Utf8.length_encode front, findBehind_append_cons]
  · simp only [Utf8.byteLength_append, Utf8.byteLength_cons, Utf8.byteLength_nil, oneByte,
      Utf8.length_encode, Nat.add_assoc]
  · intro member
    exact absent ((Utf8.ascii_mem_encode_iff isAscii).mp member)

/-! ## Slices -/

/-- The text between two byte offsets; `none` where an offset is no character boundary or
the offsets are out of order. -/
def slice? (text : Text) (start stop : Nat) : Option Text :=
  if start ≤ stop then
    (Utf8.splitAt? text start).bind fun (_, behind) =>
      (Utf8.splitAt? behind (stop - start)).map (·.1)
  else none

theorem slice?_append (front inside rest : Text) :
    slice? (front ++ inside ++ rest) (Utf8.byteLength front) (Utf8.byteLength (front ++ inside)) =
      some inside := by
  have atStart : Utf8.splitAt? (front ++ inside ++ rest) (Utf8.byteLength front) =
      some (front, inside ++ rest) :=
    Utf8.splitAt?_eq_some_iff.mpr ⟨by rw [List.append_assoc], rfl⟩
  have atStop : Utf8.splitAt? (inside ++ rest) (Utf8.byteLength inside) = some (inside, rest) :=
    Utf8.splitAt?_eq_some_iff.mpr ⟨rfl, rfl⟩
  unfold slice?
  rw [Utf8.byteLength_append, if_pos (Nat.le_add_right _ _), atStart, Nat.add_sub_cancel_left]
  simp [atStop]

end AzureInit.Foundation.ByteScan
