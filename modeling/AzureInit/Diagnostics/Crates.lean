import AzureInit.Foundation.CalendarTime
import AzureInit.Foundation.Utf8Text
import AzureInit.Kvp.Error

/-! The functions of other crates that the diagnostics call, as parameters, and
the documented behaviour that results rely on. -/

set_option autoImplicit false

namespace AzureInit.Diagnostics

open Foundation

/-! ## JSON values -/

inductive Number where
  | posInt (value : UInt64)
  | negInt (value : Int64)
  | float (value : Float)

def Number.asU64 : Number → Option UInt64
  | .posInt value => some value
  | _ => none

def Number.asF64 : Number → Option Float
  | .posInt value => some value.toFloat
  | .negInt value => some value.toFloat
  | .float value => some value

def Number.beq : Number → Number → Bool
  | .posInt left, .posInt right => left == right
  | .negInt left, .negInt right => left == right
  | .float left, .float right => left == right
  | _, _ => false

/-- A parsed JSON value; an object's members are unique and sorted by their keys. -/
inductive Value where
  | null
  | bool (value : Bool)
  | number (value : Number)
  | string (value : Text)
  | array (elements : List Value)
  | object (members : List (Text × Value))

namespace Value

mutual

def beq : Value → Value → Bool
  | .null, .null => true
  | .bool left, .bool right => left == right
  | .number left, .number right => left.beq right
  | .string left, .string right => left == right
  | .array left, .array right => beqElements left right
  | .object left, .object right => beqMembers left right
  | _, _ => false

def beqElements : List Value → List Value → Bool
  | [], [] => true
  | left :: lefts, right :: rights => beq left right && beqElements lefts rights
  | _, _ => false

def beqMembers : List (Text × Value) → List (Text × Value) → Bool
  | [], [] => true
  | (leftKey, left) :: lefts, (rightKey, right) :: rights =>
      leftKey == rightKey && beq left right && beqMembers lefts rights
  | _, _ => false

end

instance : BEq Value := ⟨beq⟩

def get (value : Value) (key : Text) : Option Value :=
  match value with
  | .object members => (members.find? (·.1 == key)).map (·.2)
  | _ => none

def asStr : Value → Option Text
  | .string text => some text
  | _ => none

def asNumber : Value → Option Number
  | .number value => some value
  | _ => none

def asU64 (value : Value) : Option UInt64 := value.asNumber.bind Number.asU64

/-- The value without a member, for objects only. -/
def remove (value : Value) (key : Text) : Option Value :=
  match value with
  | .object members => some (.object (members.filter (·.1 != key)))
  | _ => none

end Value

/-! ## External functions -/

structure Crates where
  /-- Whether `Uuid::parse_str` accepts the text. -/
  parseUuid : Text → Bool
  /-- `to_rfc3339_opts` with `use_z`. -/
  toRfc3339Opts : DateTime → SecondsFormat → Text
  /-- `parse_from_rfc3339`, converted to UTC. -/
  parseFromRfc3339 : Text → Option DateTime
  base64Encode : List UInt8 → Text
  base64Decode : List UInt8 → Option (List UInt8)
  gzEncode : List UInt8 → Except Kvp.IoError (List UInt8)
  zlibEncode : List UInt8 → Except Kvp.IoError (List UInt8)
  /-- The decompressed bytes and the input left behind the stream. -/
  gzDecode : List UInt8 → Option (List UInt8 × List UInt8)
  zlibDecode : List UInt8 → Option (List UInt8 × List UInt8)
  /-- The first record of a text with fields separated by `|`; the inner `none`
  is a record that fails to parse. -/
  csvFirstRecord : Text → Option (Option (List Text))
  jsonFromStr : Text → Option Value
  parseF64 : Text → Option Float
  tryFromSecsF64 : Float → Option Duration

/-- Times are read back as they were printed, for the years of four digits only. -/
structure Crates.Rfc3339 (crates : Crates) : Prop where
  parse_format : ∀ (instant : DateTime) (format : SecondsFormat),
    0 ≤ instant.year → instant.year ≤ 9999 → instant.isLeapSecond = false →
      crates.parseFromRfc3339 (crates.toRfc3339Opts instant format) =
        some (instant.truncate format)
  parse_leapSecond : ∀ (instant : DateTime) (format : SecondsFormat),
    0 ≤ instant.year → instant.year ≤ 9999 → instant.isLeapSecond = true →
      (crates.parseFromRfc3339 (crates.toRfc3339Opts instant format)).isSome
  format_signed : ∀ (instant : DateTime) (format : SecondsFormat),
    instant.year < 0 ∨ 9999 < instant.year →
      (crates.toRfc3339Opts instant format).head? ∈ [some '+', some '-']
  parse_signed : ∀ (text : Text), text.head? ∈ [some '+', some '-'] →
    crates.parseFromRfc3339 text = none

/-- Decoders invert encoders, and base64 text has no NUL. -/
structure Crates.Codecs (crates : Crates) : Prop where
  base64_decode_encode : ∀ (bytes : List UInt8),
    crates.base64Decode (Utf8.encode (crates.base64Encode bytes)) = some bytes
  base64_nulFree : ∀ (bytes : List UInt8), '\x00' ∉ crates.base64Encode bytes
  gz_decode_encode : ∀ (bytes compressed : List UInt8),
    crates.gzEncode bytes = .ok compressed → crates.gzDecode compressed = some (bytes, [])
  zlib_decode_encode : ∀ (bytes compressed : List UInt8),
    crates.zlibEncode bytes = .ok compressed →
      crates.zlibDecode compressed = some (bytes, [])

end AzureInit.Diagnostics
