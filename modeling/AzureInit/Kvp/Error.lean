import AzureInit.Foundation.Utf8Text

/-! Errors of the pool store and of the telemetry writers. -/

set_option autoImplicit false

namespace AzureInit.Kvp

open Foundation (Text)

/-- The error kinds the store distinguishes or creates; `os` is any other one. -/
inductive ErrorKind where
  | notFound
  | invalidData
  | invalidInput
  | unexpectedEof
  | other
  | os (code : Nat)
  deriving DecidableEq, Repr

/-- An I/O error. The message is empty where it is not written in the store. -/
structure IoError where
  kind : ErrorKind
  message : Text := []
  deriving DecidableEq, Repr

inductive KvpError where
  | emptyKey
  | emptyEventField (field : Text)
  | io (error : IoError)
  | eventFieldContainsDelimiter (field : Text)
  | eventFieldTooLong (field : Text) (max actual : Nat)
  | invalidUuid (field : Text)
  | tooManyChunks (max : Nat)
  | keyContainsNull
  | keyTooLarge (max actual : Nat)
  | maxUniqueKeysExceeded (max : Nat)
  | payloadNotUtf8
  | unsupportedEncoding (token : Text)
  | valueTooLarge (max actual : Nat)
  | valueContainsNull
  deriving DecidableEq, Repr

end AzureInit.Kvp
