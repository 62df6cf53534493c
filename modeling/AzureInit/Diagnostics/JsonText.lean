import AzureInit.Foundation.DecimalText
import AzureInit.Foundation.SortedMap
import AzureInit.Foundation.TextReader
import AzureInit.Diagnostics.Crates

/-! Standard JSON text as `serde_json` reads it. Which literals are numbers, and which
numbers they are, is left to a function. -/

set_option autoImplicit false

namespace AzureInit.Diagnostics.Json

open Foundation
open Foundation.Reader

def isSpace (c : Char) : Bool := c == ' ' || c == '\t' || c == '\n' || c == '\r'

def isNumberChar (c : Char) : Bool :=
  c.isDigit || c == '-' || c == '+' || c == '.' || c == 'e' || c == 'E'

/-! ## Strings -/

/-- A character of a string, or one escaped unit of UTF-16. -/
inductive Piece where
  | char (c : Char)
  | unit (value : Nat)
  deriving DecidableEq, Repr

def hexDigit? (c : Char) : Option Nat :=
  if '0' ≤ c ∧ c ≤ '9' then some (c.toNat - '0'.toNat)
  else if 'a' ≤ c ∧ c ≤ 'f' then some (c.toNat - 'a'.toNat + 10)
  else if 'A' ≤ c ∧ c ≤ 'F' then some (c.toNat - 'A'.toNat + 10)
  else none

def simpleEscape? (c : Char) : Option Char :=
  if c = '"' ∨ c = '\\' ∨ c = '/' then some c
  else if c = 'b' then some '\x08'
  else if c = 'f' then some '\x0c'
  else if c = 'n' then some '\n'
  else if c = 'r' then some '\r'
  else if c = 't' then some '\t'
  else none

/-- The pieces of an escaped text, unless it has a quote or an escape out of place. -/
def pieces : Text → Option (List Piece)
  | [] => some []
  | c :: text =>
      if c = '\\' then
        match text with
        | 'u' :: first :: second :: third :: fourth :: text => do
            let value ← [first, second, third, fourth].foldlM (fun value digit =>
              (hexDigit? digit).map (value * 16 + ·)) 0
            let rest ← pieces text
            return .unit value :: rest
        | escape :: text => do
            let c ← simpleEscape? escape
            let rest ← pieces text
            return .char c :: rest
        | [] => none
      else if c = '"' ∨ c < ' ' then none
      else (pieces text).map (.char c :: ·)

/-- The text of pieces whose surrogates stand in pairs. -/
def joinPieces : List Piece → Option Text
  | [] => some []
  | .char c :: rest => (joinPieces rest).map (c :: ·)
  | .unit high :: rest =>
      if 0xd800 ≤ high ∧ high < 0xdc00 then
        match rest with
        | .unit low :: rest =>
            if 0xdc00 ≤ low ∧ low < 0xe000 then
              (joinPieces rest).map
                (Char.ofNat (0x10000 + (high - 0xd800) * 0x400 + (low - 0xdc00)) :: ·)
            else none
        | _ => none
      else if 0xdc00 ≤ high ∧ high < 0xe000 then none
      else (joinPieces rest).map (Char.ofNat high :: ·)

def unescape (body : Text) : Option Text := (pieces body).bind joinPieces

/-- The escaped text in front of the closing quote. -/
def scanBody : Text → Option (Text × Text)
  | [] => none
  | c :: text =>
      if c = '"' then some ([], text)
      else if c = '\\' then
        match text with
        | [] => none
        | escape :: text =>
            (scanBody text).map fun scanned => (c :: escape :: scanned.1, scanned.2)
      else (scanBody text).map fun scanned => (c :: scanned.1, scanned.2)

/-- A string behind its opening quote. -/
def string : Reader Text := do
  let body ← (scanBody : Reader Text)
  ofOption (unescape body)

/-! ## Values -/

def word : Text → Reader Unit
  | [] => return ()
  | c :: rest => do
      let read ← next
      if read = c then word rest else failure

section Values

variable (numberOf : Text → Option Number)

def scalar (first : Char) : Reader Value :=
  if first = '"' then do
    let text ← string
    return .string text
  else if first = 't' then do
    word "rue".toList
    return .bool true
  else if first = 'f' then do
    word "alse".toList
    return .bool false
  else if first = 'n' then do
    word "ull".toList
    return .null
  else if first = '-' ∨ first.isDigit then do
    let rest ← run isNumberChar
    let number ← ofOption (numberOf (first :: rest))
    return .number number
  else failure

def member (value : Char → Reader Value) (first : Char) : Reader (Text × Value) :=
  if first = '"' then do
    let name ← string
    let colon ← token isSpace
    if colon = ':' then do
      let first ← token isSpace
      let value ← value first
      return (name, value)
    else failure
  else failure

/-- A value from its first character on, with a bound on how deep values are nested. -/
def value (fuel : Nat) : Nat → Char → Reader Value
  | 0, first => scalar numberOf first
  | depth + 1, first =>
      if first = '[' then do
        let first ← token isSpace
        if first = ']' then return .array []
        else do
          let elements ← separated isSpace ',' ']' (value fuel depth) fuel first
          return .array elements
      else if first = '{' then do
        let first ← token isSpace
        if first = '}' then return .object []
        else do
          let members ← separated isSpace ',' '}' (member (value fuel depth)) fuel first
          return .object (SortedMap.insertAll members [])
      else scalar numberOf first

/-- `serde_json` gives up at the nesting depth 128. -/
def maxDepth : Nat := 127

/-- The value of a whole text. Each item of a list takes a character at least, so that
the length of the text is enough fuel. -/
def fromStr (text : Text) : Option Value :=
  ((token isSpace >>= value numberOf text.length maxDepth) text).bind fun result =>
    if result.2.all isSpace then some result.1 else none

end Values

/-! ## Printing -/

/-- A string as `serde_json` prints it. -/
def printString (text : Text) : Text :=
  '"' :: text.flatMap (fun c =>
    if c = '"' ∨ c = '\\' then ['\\', c]
    else if c = '\n' then "\\n".toList
    else if c = '\r' then "\\r".toList
    else if c = '\t' then "\\t".toList
    else if c = '\x08' then "\\b".toList
    else if c = '\x0c' then "\\f".toList
    else if c < ' ' then
      "\\u00".toList ++ (Nat.toDigits 16 c.toNat).leftpad 2 '0'
    else [c]) ++ ['"']

def printNumber (printFloat : Float → Text) : Number → Text
  | .posInt value => Decimal.digits value.toNat
  | .negInt value => '-' :: Decimal.digits value.toInt.natAbs
  | .float value => printFloat value

mutual

/-- JSON text without spaces. -/
def printCompact (printFloat : Float → Text) : Value → Text
  | .null => "null".toList
  | .bool value => if value then "true".toList else "false".toList
  | .number value => printNumber printFloat value
  | .string text => printString text
  | .array elements => '[' :: (List.intercalate [','] (printElements printFloat elements) ++ [']'])
  | .object members =>
      '\x7b' :: (List.intercalate [','] (printMembers printFloat members) ++ ['\x7d'])

def printElements (printFloat : Float → Text) : List Value → List Text
  | [] => []
  | value :: rest => printCompact printFloat value :: printElements printFloat rest

def printMembers (printFloat : Float → Text) : List (Text × Value) → List Text
  | [] => []
  | (name, value) :: rest =>
      (printString name ++ ':' :: printCompact printFloat value) :: printMembers printFloat rest

end

end AzureInit.Diagnostics.Json
