import AzureInit.Foundation.Pattern
import AzureInit.Foundation.DelimitedText

/-! The password setting of the SSH daemon: how a configuration file is read, and how
the provisioning agent rewrites it. -/

set_option autoImplicit false

namespace AzureInit.Provision

open Foundation

/-! ## What the daemon reads -/

def isBlank (c : Char) : Bool := c == ' ' || c == '\t' || c == '\r' || c == '\x0c'

def words (text : Text) : List Text := (text.splitOnP isBlank).filter (!·.isEmpty)

/-- The part of a line in front of a comment. -/
def activePart (line : Text) : Text := line.takeWhile (· != '#')

def passwordKeyword : Text := "PasswordAuthentication".toList

/-- The arguments of a line that sets password authentication. -/
def passwordDirective (line : Text) : Option (List Text) :=
  match words (activePart line) with
  | [] => none
  | keyword :: arguments =>
      if keyword.map Char.toLower = passwordKeyword.map Char.toLower then some arguments else none

/-- The directive that is obtained first. -/
def effective (text : Text) : Option (List Text) :=
  (text.splitOn '\n').findSome? passwordDirective

/-! ## What the agent writes -/

/-- The characters with the property `White_Space`. -/
def isWhitespace (c : Char) : Bool :=
  ('\t' ≤ c && c ≤ '\r') || c == ' ' || c == '\u0085' || c == '\u00a0' || c == '\u1680' ||
    ('\u2000' ≤ c && c ≤ '\u200a') || c == '\u2028' || c == '\u2029' || c == '\u202f' ||
    c == '\u205f' || c == '\u3000'

/-- `(?m)^\s*#?\s*PasswordAuthentication\s+(yes|no)\s*$` -/
def passwordRegex : Pattern :=
  .sequence [.lineStart, .many isWhitespace, .optional (.one (· == '#')), .many isWhitespace,
    .literal passwordKeyword, .one isWhitespace, .many isWhitespace,
    .alt (.literal "yes".toList) (.literal "no".toList), .many isWhitespace, .lineEnd]

/-- The functions of the `regex` crate. -/
structure RegexCrate where
  isMatch : Pattern → Text → Bool
  replaceAll : Pattern → Text → Text → Text

/-- The leftmost matches count, and a replacement without `$` is taken as it is. -/
structure RegexCrate.Documented (regex : RegexCrate) : Prop where
  isMatch_eq : ∀ (pattern : Pattern) (text : Text),
    regex.isMatch pattern text = pattern.isMatch text
  replaceAll_eq : ∀ (pattern : Pattern) (text replacement : Text), '$' ∉ replacement →
    regex.replaceAll pattern text replacement = pattern.replaceAll text replacement

structure SshdConfig where
  mode : Nat
  contents : Text
  deriving DecidableEq, Repr

def passwordAuthSetting (disablePasswordAuthentication : Bool) : Text :=
  if disablePasswordAuthentication then "no".toList else "yes".toList

/-- The line that sets password authentication, with a comment behind it. -/
def settingLine (setting comment : Text) : Text :=
  "PasswordAuthentication ".toList ++ setting ++ comment

def modifiedComment : Text := " # modified by azure-init".toList

def addedComment : Text := " # added by azure-init".toList

/-- A file that is missing is created for its owner alone. -/
def updateSshdConfig (regex : RegexCrate) (file : Option SshdConfig)
    (disablePasswordAuthentication : Bool) : SshdConfig :=
  let setting := passwordAuthSetting disablePasswordAuthentication
  match file with
  | none => { mode := 0o600, contents := settingLine setting [] ++ ['\n'] }
  | some file =>
      if regex.isMatch passwordRegex file.contents then
        { file with
          contents := regex.replaceAll passwordRegex file.contents
            (settingLine setting modifiedComment ++ ['\n']) }
      else { file with contents := file.contents ++ (settingLine setting addedComment ++ ['\n']) }

/-- The file behind a sequence of calls. -/
def afterUpdates (regex : RegexCrate) (file : Option SshdConfig) (settings : List Bool) :
    Option SshdConfig :=
  settings.foldl (fun file disable => some (updateSshdConfig regex file disable)) file

/-! ## When a request prevails -/

def completeLines (text : Text) : List Text := (text.splitOn '\n').dropLast

/-- The characters behind the last line break. -/
def openLine (text : Text) : Text := (text.splitOn '\n').getLastD []

/-- Whether the file before a call lets the call's request take effect. -/
def Prevails (file : Option SshdConfig) (setting : Text) : Prop :=
  match file with
  | none => True
  | some file =>
      match passwordRegex.front? file.contents with
      | some front => effective front = none ∨ effective front = some [setting]
      | none =>
          match (completeLines file.contents).findSome? passwordDirective with
          | some arguments => arguments = [setting]
          | none =>
              (openLine file.contents).all isBlank = true ∨
                '#' ∈ openLine file.contents ∧
                  passwordDirective (openLine file.contents) = some [setting]

end AzureInit.Provision
