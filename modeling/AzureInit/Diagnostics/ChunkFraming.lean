import AzureInit.Foundation.BytePieces
import AzureInit.Diagnostics.WriterProperties

/-! Framing cuts a value greedily into chunks, one record each, and stops at the first
limit it meets. -/

set_option autoImplicit false

namespace AzureInit.Diagnostics

open Foundation
open Kvp (KvpError)

theorem cutChunk_eq (value : Text) :
    cutChunk value =
      (Utf8.takeBytes maxChunkBytes value, Utf8.dropBytes maxChunkBytes value) := by
  rw [cutChunk, Utf8.splitAt?_floorCharBoundary]
  rfl

/-- The limit that framing meets first, from a first index on: the length of a key, or
the room for records. -/
inductive FirstLimit (baseKey : Text) (first room count : Nat) : KvpError → Prop where
  | key (index : Nat) : index < count → index < room →
      (∀ earlier < index, Utf8.byteLength (chunkKey baseKey (first + earlier)) ≤ maxKeyBytes) →
      maxKeyBytes < Utf8.byteLength (chunkKey baseKey (first + index)) →
      FirstLimit baseKey first room count
        (.keyTooLarge maxKeyBytes (Utf8.byteLength (chunkKey baseKey (first + index))))
  | chunks : room < count →
      (∀ index < room, Utf8.byteLength (chunkKey baseKey (first + index)) ≤ maxKeyBytes) →
      FirstLimit baseKey first room count (.tooManyChunks maxChunks)

section Framing

variable {baseKey value : Text} {chunks : List Text} {room first count : Nat}

theorem FirstLimit.next {error : KvpError} (limit : FirstLimit baseKey (first + 1) room count error)
    (fits : Utf8.byteLength (chunkKey baseKey first) ≤ maxKeyBytes) :
    FirstLimit baseKey first (room + 1) (count + 1) error := by
  have shifted (index : Nat) : first + 1 + index = first + (index + 1) := by omega
  have front {bound : Nat} (earlier : ∀ index < bound,
      Utf8.byteLength (chunkKey baseKey (first + 1 + index)) ≤ maxKeyBytes) :
      ∀ index < bound + 1, Utf8.byteLength (chunkKey baseKey (first + index)) ≤ maxKeyBytes := by
    intro index below
    cases index with
    | zero => exact fits
    | succ index =>
        rw [← shifted]
        exact earlier index (by omega)
  cases limit with
  | key index inside within earlier tooLong =>
      rw [shifted] at tooLong ⊢
      exact .key (index + 1) (by omega) (by omega) (front earlier) tooLong
  | chunks more earlier => exact .chunks (by omega) (front earlier)

private theorem frameFrom_full (records : List (Text × Text)) (some : 0 < count) :
    ∃ error, FirstLimit baseKey records.length 0 count error ∧
      frameFrom baseKey 0 records value = .error error :=
  ⟨_, .chunks some fun _ impossible => absurd impossible (Nat.not_lt_zero _), rfl⟩

private theorem frameFrom_long {records : List (Text × Text)} (some : 0 < count)
    (long : maxKeyBytes < Utf8.byteLength (chunkKey baseKey records.length)) :
    ∃ error, FirstLimit baseKey records.length (room + 1) count error ∧
      frameFrom baseKey (room + 1) records value = .error error := by
  refine ⟨_, .key 0 some (Nat.succ_pos room) ?_ long, ?_⟩
  · exact fun _ impossible => absurd impossible (Nat.not_lt_zero _)
  · rw [frameFrom]
    exact if_pos long

/-- The framing loop against the greedy pieces of what is left. -/
theorem frameFrom_greedy (greedy : Utf8.GreedyPieces maxChunkBytes value chunks)
    (records : List (Text × Text)) (room : Nat) :
    (chunks.length ≤ room ∧
      (∀ index < chunks.length,
        Utf8.byteLength (chunkKey baseKey (records.length + index)) ≤ maxKeyBytes) ∧
      frameFrom baseKey room records value =
        .ok (records ++ framedFrom baseKey records.length chunks)) ∨
    ∃ error, FirstLimit baseKey records.length room chunks.length error ∧
      frameFrom baseKey room records value = .error error := by
  induction greedy generalizing records room with
  | @last value bounded =>
      cases room with
      | zero => exact .inr (frameFrom_full records (Nat.succ_pos 0))
      | succ room =>
          by_cases long : maxKeyBytes < Utf8.byteLength (chunkKey baseKey records.length)
          · exact .inr (frameFrom_long (Nat.succ_pos 0) long)
          · have fits := Nat.le_of_not_lt long
            refine .inl ⟨Nat.succ_le_succ (Nat.zero_le room), ?_, ?_⟩
            · intro index below
              obtain rfl : index = 0 := Nat.lt_one_iff.mp below
              exact fits
            · rw [frameFrom]
              simp only [cutChunk_eq, Utf8.takeBytes_of_le bounded,
                Utf8.dropBytes_eq_nil_iff.mpr bounded, if_neg long]
              rfl
  | @cut value pieces longer rest ih =>
      cases room with
      | zero => exact .inr (frameFrom_full records (Nat.succ_pos _))
      | succ room =>
          by_cases long : maxKeyBytes < Utf8.byteLength (chunkKey baseKey records.length)
          · exact .inr (frameFrom_long (Nat.succ_pos _) long)
          · have fits := Nat.le_of_not_lt long
            have remains : (Utf8.dropBytes maxChunkBytes value).isEmpty = false := by
              rw [List.isEmpty_eq_false_iff, Ne, Utf8.dropBytes_eq_nil_iff]
              omega
            let pushed := records ++
              [(chunkKey baseKey records.length, Utf8.takeBytes maxChunkBytes value)]
            have grown : pushed.length = records.length + 1 := by simp [pushed]
            have goesOn : frameFrom baseKey (room + 1) records value =
                frameFrom baseKey room pushed (Utf8.dropBytes maxChunkBytes value) := by
              rw [frameFrom]
              simp only [cutChunk_eq, if_neg long, remains]
              rfl
            rw [goesOn]
            cases ih pushed room with
            | inl accepted =>
                obtain ⟨few, keysFit, accepted⟩ := accepted
                rw [grown] at keysFit accepted
                refine .inl ⟨Nat.succ_le_succ few, ?_, ?_⟩
                · intro index below
                  cases index with
                  | zero => exact fits
                  | succ index =>
                      have keyFits := keysFit index (Nat.lt_of_succ_lt_succ below)
                      rwa [Nat.add_right_comm] at keyFits
                · rw [accepted, framedFrom_cons, List.append_assoc]
                  rfl
            | inr refused =>
                obtain ⟨error, limit, refused⟩ := refused
                rw [grown] at limit
                exact .inr ⟨error, limit.next fits, refused⟩

/-- Nothing is refused that keeps to the limits. -/
theorem FirstLimit.exceeds {error : KvpError} (limit : FirstLimit baseKey first room count error) :
    room < count ∨
      ∃ index < count, maxKeyBytes < Utf8.byteLength (chunkKey baseKey (first + index)) := by
  cases limit with
  | key index inside _ _ tooLong => exact .inr ⟨index, inside, tooLong⟩
  | chunks more => exact .inl more

/-- Only one limit is the first. -/
theorem FirstLimit.unique {error other : KvpError}
    (limit : FirstLimit baseKey first room count error)
    (again : FirstLimit baseKey first room count other) : error = other := by
  cases limit with
  | key index _ within earlier tooLong =>
      cases again with
      | key otherIndex _ _ otherEarlier otherTooLong =>
          rcases Nat.lt_trichotomy index otherIndex with before | same | behind
          · exact absurd (otherEarlier index before) (Nat.not_le_of_lt tooLong)
          · rw [same]
          · exact absurd (earlier otherIndex behind) (Nat.not_le_of_lt otherTooLong)
      | chunks _ fit => exact absurd (fit index within) (Nat.not_le_of_lt tooLong)
  | chunks _ fit =>
      cases again with
      | key otherIndex _ within _ tooLong =>
          exact absurd (fit otherIndex within) (Nat.not_le_of_lt tooLong)
      | chunks => rfl

/-! ## The contract -/

/-- What framing makes of the greedy pieces of a value. -/
theorem frameRecords_greedy (greedy : Utf8.GreedyPieces maxChunkBytes value chunks) :
    (chunks.length ≤ maxChunks ∧
      (∀ index < chunks.length, Utf8.byteLength (chunkKey baseKey index) ≤ maxKeyBytes) ∧
      frameRecords baseKey value = .ok (framed baseKey chunks)) ∨
    ∃ error, FirstLimit baseKey 0 maxChunks chunks.length error ∧
      frameRecords baseKey value = .error error := by
  have result := @frameFrom_greedy baseKey value chunks greedy [] maxChunks
  simp only [List.length_nil, Nat.zero_add] at result
  exact result

theorem frameRecords_error_iff (greedy : Utf8.GreedyPieces maxChunkBytes value chunks)
    (error : KvpError) :
    frameRecords baseKey value = .error error ↔
      FirstLimit baseKey 0 maxChunks chunks.length error := by
  rcases @frameRecords_greedy baseKey _ _ greedy with
    ⟨few, keysFit, accepted⟩ | ⟨met, limit, refused⟩
  · rw [accepted]
    constructor
    · intro impossible
      cases impossible
    · intro limit
      rcases limit.exceeds with more | ⟨index, inside, tooLong⟩
      · omega
      · rw [Nat.zero_add] at tooLong
        exact absurd (keysFit index inside) (Nat.not_le_of_lt tooLong)
  · rw [refused]
    constructor
    · intro same
      cases same
      exact limit
    · intro again
      rw [limit.unique again]

theorem frameRecords_refuses_iff (greedy : Utf8.GreedyPieces maxChunkBytes value chunks) :
    (∃ error, frameRecords baseKey value = .error error) ↔
      maxChunks < chunks.length ∨
        ∃ index < chunks.length, maxKeyBytes < Utf8.byteLength (chunkKey baseKey index) := by
  constructor
  · intro refused
    obtain ⟨error, refused⟩ := refused
    have exceeds := ((frameRecords_error_iff greedy error).mp refused).exceeds
    simpa only [Nat.zero_add] using exceeds
  · intro exceeds
    rcases @frameRecords_greedy baseKey _ _ greedy with
    ⟨few, keysFit, -⟩ | ⟨error, -, refused⟩
    · rcases exceeds with more | ⟨index, inside, tooLong⟩
      · omega
      · exact absurd (keysFit index inside) (Nat.not_le_of_lt tooLong)
    · exact ⟨error, refused⟩

/-- Behind a base key of at most 249 bytes every index has its place. -/
theorem chunkKey_fits {index : Nat} (short : Utf8.byteLength baseKey ≤ 249)
    (few : index < maxChunks) : Utf8.byteLength (chunkKey baseKey index) ≤ maxKeyBytes := by
  have fourDigits : (Decimal.digits index).length ≤ 4 :=
    (Nat.length_toDigits_le_iff (by decide) (by decide)).mpr (by unfold maxChunks at few; omega)
  have digits : Utf8.byteLength (Decimal.digits index) = (Decimal.digits index).length :=
    Decimal.byteLength_of_digits
      (List.all_eq_true.mpr fun _ member => Decimal.isDigit_of_mem_digits member)
  have pipe : '|'.utf8Size = 1 := rfl
  rw [chunkKey, Utf8.byteLength_append, Utf8.byteLength_cons, digits, pipe, maxKeyBytes]
  omega

end Framing

/-- Framing gives a record to each greedy piece of the value, in order, under numbered
keys. It is refused at the first limit it meets, and only if there are more pieces than
records or a piece whose key is too long; so a value of at most 1023 * 1019 bytes is
accepted behind every base key of at most 249 bytes. -/
theorem frameRecords_contract (baseKey value : Text) :
    ∃ chunks, Utf8.GreedyPieces maxChunkBytes value chunks ∧
      (∀ records, frameRecords baseKey value = .ok records →
        records.map Prod.fst = (List.range records.length).map (chunkKey baseKey) ∧
        records.map Prod.snd = chunks ∧ chunks.flatten = value ∧
        1 ≤ records.length ∧ records.length ≤ 1023 ∧
        (∀ record ∈ records, Utf8.byteLength record.1 ≤ 254 ∧ Utf8.byteLength record.2 ≤ 1022) ∧
        (∀ chunk ∈ chunks.dropLast, 1019 ≤ Utf8.byteLength chunk) ∧
        (value ≠ [] → ∀ record ∈ records, record.2 ≠ [])) ∧
      (∀ error, frameRecords baseKey value = .error error ↔
        FirstLimit baseKey 0 1023 chunks.length error) ∧
      ((∃ error, frameRecords baseKey value = .error error) ↔
        1023 < chunks.length ∨
          ∃ index < chunks.length, 254 < Utf8.byteLength (chunkKey baseKey index)) ∧
      (Utf8.byteLength value ≤ 1023 * 1019 → Utf8.byteLength baseKey ≤ 249 →
        ∃ records, frameRecords baseKey value = .ok records) := by
  have wide : 4 ≤ maxChunkBytes := by decide
  obtain ⟨chunks, greedy⟩ := Utf8.exists_greedyPieces wide value
  refine ⟨chunks, greedy, ?_, frameRecords_error_iff greedy, frameRecords_refuses_iff greedy, ?_⟩
  · intro records accepted
    rcases @frameRecords_greedy baseKey _ _ greedy with ⟨few, keysFit, result⟩ | ⟨_, -, refused⟩
    · rw [accepted] at result
      obtain rfl := Except.ok.inj result
      rw [length_framed, framed_map_fst, framed_map_snd]
      refine ⟨rfl, rfl, greedy.flatten, List.length_pos_iff.mpr greedy.nonempty, few, ?_, ?_, ?_⟩
      · intro record member
        obtain ⟨index, stored, key⟩ := mem_framed_iff.mp member
        obtain ⟨inside, -⟩ := List.getElem?_eq_some_iff.mp stored
        rw [key]
        exact ⟨keysFit index inside, greedy.bounded _ (List.mem_of_getElem? stored)⟩
      · intro chunk member
        have full := greedy.full chunk member
        rw [maxChunkBytes] at full
        omega
      · intro nonempty record member
        obtain ⟨index, stored, -⟩ := mem_framed_iff.mp member
        exact greedy.ne_nil wide nonempty _ (List.mem_of_getElem? stored)
    · rw [accepted] at refused
      cases refused
  · intro short keyShort
    rcases @frameRecords_greedy baseKey _ _ greedy with ⟨-, -, accepted⟩ | ⟨error, limit, -⟩
    · exact ⟨_, accepted⟩
    · have few : ¬ maxChunks < chunks.length := by
        intro more
        have longer := greedy.lt_byteLength wide more (by decide)
        rw [maxChunks, maxChunkBytes] at longer
        omega
      cases limit with
      | key index _ within _ tooLong =>
          rw [Nat.zero_add] at tooLong
          exact absurd (chunkKey_fits keyShort within) (Nat.not_le_of_lt tooLong)
      | chunks more => exact absurd more few

end AzureInit.Diagnostics
