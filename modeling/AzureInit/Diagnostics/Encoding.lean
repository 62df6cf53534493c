import AzureInit.Diagnostics.Crates
import AzureInit.Diagnostics.Diagnostic

/-! The payload codec: text as it is, or compressed bytes in base64. -/

set_option autoImplicit false

namespace AzureInit.Diagnostics

open Foundation
open Kvp (KvpError)

/-- An I/O result in a function that fails with `KvpError`. -/
def fromIo {α : Type} : Except Kvp.IoError α → Except KvpError α :=
  Except.mapError KvpError.io

def payloadText : DiagnosticPayload → Except KvpError Text
  | .text message => .ok message
  | .bytes content => okOr (Utf8.decode? content) .payloadNotUtf8

def encodePayload (crates : Crates) (payload : DiagnosticPayload)
    (encoding : Option Encoding) : Except KvpError Text := do
  let bytes := payload.contents
  match encoding with
  | none =>
      let text ← payloadText payload
      if text.contains '\x00' then throw .valueContainsNull else return text
  | some .gzB64 => return crates.base64Encode (← fromIo (crates.gzEncode bytes))
  | some .zlibB64 => return crates.base64Encode (← fromIo (crates.zlibEncode bytes))
  | some (.other token) => throw (.unsupportedEncoding token)

def decompress (crates : Crates) (compressed : List UInt8) (encoding : Encoding) :
    Except DecodeError DiagnosticPayload :=
  let decoded :=
    match encoding with
    | .gzB64 => crates.gzDecode compressed
    | .zlibB64 => crates.zlibDecode compressed
    | .other _ => none
  match decoded with
  | some (bytes, remaining) =>
      if remaining.isEmpty then .ok (.bytes bytes) else .error .undecodable
  | none => .error .undecodable

def decodePayload (crates : Crates) (value : List UInt8) (encoding : Option Encoding) :
    Except DecodeError DiagnosticPayload :=
  match encoding with
  | none =>
      match Utf8.decode? value with
      | some text => .ok (.text text)
      | none => .error .undecodable
  | some (.other _) => .error .undecodable
  | some encoding =>
      match crates.base64Decode value with
      | some compressed => decompress crates compressed encoding
      | none => .error .undecodable

end AzureInit.Diagnostics
