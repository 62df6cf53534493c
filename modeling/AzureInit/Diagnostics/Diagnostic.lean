import AzureInit.Foundation.CalendarTime
import AzureInit.Foundation.DecimalText

/-! Diagnostics, their wire tokens, and the errors of decoding them. -/

set_option autoImplicit false

namespace AzureInit.Diagnostics

open Foundation

def diagnosticVersionId : Text := "DIAG".toList

/-- Maximum encoded payload bytes stored in one diagnostic record. -/
def maxChunkBytes : Nat := 1022

inductive Kind where
  | start
  | finish
  | event
  deriving DecidableEq, Repr

def Kind.toText : Kind → Text
  | .start => "start".toList
  | .finish => "finish".toList
  | .event => "event".toList

inductive Encoding where
  | zlibB64
  | gzB64
  | other (token : Text)
  deriving DecidableEq, Repr

def Encoding.toText : Encoding → Text
  | .zlibB64 => "zlib+b64".toList
  | .gzB64 => "gz+b64".toList
  | .other token => token

inductive Outcome where
  | ok
  | error
  deriving DecidableEq, Repr

def Outcome.asStr : Outcome → Text
  | .ok => "ok".toList
  | .error => "error".toList

inductive DiagnosticPayload where
  | text (text : Text)
  | bytes (bytes : List UInt8)
  deriving DecidableEq, Repr

/-- The bytes of a payload of either form. -/
def DiagnosticPayload.contents : DiagnosticPayload → List UInt8
  | .text message => Utf8.encode message
  | .bytes content => content

/-- Why a recognized diagnostic or report could not be decoded. -/
inductive DecodeError where
  | unsupportedVersion
  | incompleteGroup
  | duplicateChunk
  | undecodable
  | malformed
  deriving DecidableEq, Repr

structure DiagnosticKey where
  agent : Text
  vmId : Option Text
  name : Text
  eventId : Text
  timestamp : DateTime
  encoding : Option Encoding
  deriving DecidableEq, Repr

structure DiagnosticStart where
  key : DiagnosticKey
  payload : DiagnosticPayload
  deriving DecidableEq, Repr

structure DiagnosticFinish where
  key : DiagnosticKey
  payload : DiagnosticPayload
  result : Outcome
  duration : Duration
  deriving DecidableEq, Repr

structure DiagnosticEvent where
  key : DiagnosticKey
  payload : DiagnosticPayload
  result : Option Outcome
  duration : Option Duration
  deriving DecidableEq, Repr

inductive Diagnostic where
  | start (start : DiagnosticStart)
  | finish (finish : DiagnosticFinish)
  | event (event : DiagnosticEvent)
  deriving DecidableEq, Repr

namespace Diagnostic

def key : Diagnostic → DiagnosticKey
  | .start diagnostic => diagnostic.key
  | .finish diagnostic => diagnostic.key
  | .event diagnostic => diagnostic.key

def kind : Diagnostic → Kind
  | .start _ => .start
  | .finish _ => .finish
  | .event _ => .event

def payload : Diagnostic → DiagnosticPayload
  | .start diagnostic => diagnostic.payload
  | .finish diagnostic => diagnostic.payload
  | .event diagnostic => diagnostic.payload

/-- The outcome a writer puts in the key. -/
def result : Diagnostic → Option Outcome
  | .start _ => none
  | .finish diagnostic => some diagnostic.result
  | .event diagnostic => diagnostic.result

/-- The elapsed time a writer puts in the key. -/
def duration : Diagnostic → Option Duration
  | .start _ => none
  | .finish diagnostic => some diagnostic.duration
  | .event diagnostic => diagnostic.duration

end Diagnostic

def okOr {ε α : Type} (value : Option α) (error : ε) : Except ε α :=
  match value with
  | some value => .ok value
  | none => .error error

theorem okOr_eq_ok_iff {ε α : Type} {given : Option α} {error : ε} {value : α} :
    okOr given error = .ok value ↔ given = some value := by
  cases given <;> simp [okOr]

/-- A stored record that was not decoded as a diagnostic or report. -/
structure RawKeyValue where
  key : Text
  value : Text
  error : Option DecodeError
  deriving DecidableEq, Repr

def RawKeyValue.withError (raw : RawKeyValue) (error : DecodeError) : RawKeyValue :=
  { raw with error := some error }

/-- Parse a non-empty run of ASCII digits as a machine word. -/
def parseUnsigned (value : Text) : Except DecodeError UInt64 :=
  if !Decimal.isDigits value then .error .malformed
  else if Decimal.digitsValue value < UInt64.size then
    .ok (UInt64.ofNat (Decimal.digitsValue value))
  else .error .malformed

theorem parseUnsigned_eq_ok_iff {value : Text} {word : UInt64} :
    parseUnsigned value = .ok word ↔
      Decimal.isDigits value = true ∧ word.toNat = Decimal.digitsValue value := by
  unfold parseUnsigned
  split
  · rename_i refused
    simp_all
  · rename_i accepted
    split
    · rename_i fits
      rw [Except.ok.injEq, eq_comm, ← UInt64.toNat_inj, UInt64.toNat_ofNat_of_lt' fits]
      simp_all
    · rename_i large
      have short := word.toNat_lt_size
      simp
      omega

theorem parseUnsigned_digits (value : UInt64) :
    parseUnsigned (Decimal.digits value.toNat) = .ok value := by
  simp [parseUnsigned, UInt64.toNat_lt_size]

theorem parseUnsigned_digits_of_lt {value : Nat} (fits : value < UInt64.size) :
    parseUnsigned (Decimal.digits value) = .ok (UInt64.ofNat value) := by
  simp [parseUnsigned, fits]

end AzureInit.Diagnostics
