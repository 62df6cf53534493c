import Mathlib.Data.List.TakeWhile
import AzureInit.Provision.SshdConfig

/-! Which value the daemon obtains once the agent has rewritten its configuration. -/

set_option autoImplicit false

namespace AzureInit.Provision

open Foundation

/-! ## Words -/

@[simp] theorem words_nil : words [] = [] := rfl

theorem words_append_blank {c : Char} (blank : isBlank c = true) (left right : Text) :
    words (left ++ c :: right) = words left ++ words right := by
  unfold words
  rw [List.splitOnP_append_cons left right blank, List.filter_append]

theorem words_of_solid {text : Text} (given : text ≠ [])
    (solid : ∀ c ∈ text, isBlank c = false) : words text = [text] := by
  unfold words
  rw [List.splitOnP_eq_singleton solid]
  simpa using given

theorem words_blanks_append {blanks : Text} (blank : ∀ c ∈ blanks, isBlank c = true)
    (text : Text) : words (blanks ++ text) = words text := by
  induction blanks with
  | nil => rfl
  | cons c blanks ih =>
      obtain ⟨first, others⟩ := List.forall_mem_cons.mp blank
      have divided := words_append_blank first [] (blanks ++ text)
      rw [List.nil_append, words_nil, List.nil_append] at divided
      rw [List.cons_append, divided, ih others]

/-- Words take every character that is not blank. -/
theorem flatten_words (text : Text) : (words text).flatten = text.filter (!isBlank ·) := by
  unfold words
  rw [List.flatten_filter_not_isEmpty]
  induction text with
  | nil => rfl
  | cons c text ih =>
      rw [List.splitOnP_cons_eq_if_modifyHead]
      by_cases blank : isBlank c = true
      · rw [if_pos blank, List.flatten_cons, List.nil_append, ih, List.filter_cons_of_neg (by simp [blank])]
      · obtain ⟨first, rest, divided⟩ :=
          List.exists_cons_of_ne_nil (List.splitOnP_ne_nil isBlank text)
        rw [divided] at ih
        rw [if_neg blank, divided, List.modifyHead_cons, List.flatten_cons, List.cons_append,
          ← List.flatten_cons, ih, List.filter_cons_of_pos (by simp [blank])]

/-! ## Lines -/

/-- Lines behind a line break are read when those in front set nothing. -/
theorem effective_append_break (front behind : Text) :
    effective (front ++ '\n' :: behind) = (effective front).or (effective behind) := by
  unfold effective
  rw [List.splitOn_append_cons_self, List.findSome?_append]

theorem effective_line {line : Text} (unbroken : '\n' ∉ line) :
    effective line = passwordDirective line := by
  unfold effective
  rw [List.splitOn_eq_singleton unbroken, List.findSome?_singleton]

theorem effective_nil : effective [] = none := rfl

/-- A text that is divided between two lines. -/
theorem effective_append_line {front : Text} (divided : ∀ c ∈ front.getLast?, c = '\n')
    (behind : Text) : effective (front ++ behind) = (effective front).or (effective behind) := by
  induction front using List.reverseRecOn with
  | nil => rfl
  | append_singleton front last _ =>
      obtain rfl := divided last (by simp)
      rw [List.append_assoc, List.singleton_append, effective_append_break, effective_append_break,
        effective_nil, Option.or_none]

theorem lines_of_unbroken {text : Text} (unbroken : '\n' ∉ text) :
    completeLines text = [] ∧ openLine text = text := by
  unfold completeLines openLine
  rw [List.splitOn_eq_singleton unbroken]
  exact ⟨rfl, rfl⟩

theorem lines_append_break (front : Text) {last : Text} (unbroken : '\n' ∉ last) :
    completeLines (front ++ '\n' :: last) = front.splitOn '\n' ∧
      openLine (front ++ '\n' :: last) = last := by
  unfold completeLines openLine
  rw [List.splitOn_append_cons_self, List.splitOn_eq_singleton unbroken]
  simp

/-- A line that is written behind a text goes on with its open line. -/
theorem effective_append_openLine (text : Text) {line : Text} (unbroken : '\n' ∉ line) :
    effective (text ++ line) =
      ((completeLines text).findSome? passwordDirective).or
        (passwordDirective (openLine text ++ line)) := by
  cases divided : Delimited.rsplitOnce? ['\n'] text with
  | none =>
      have textUnbroken := Delimited.rsplitOnce?_singleton_eq_none_iff.mp divided
      obtain ⟨complete, isOpen⟩ := lines_of_unbroken textUnbroken
      rw [complete, isOpen, effective_line (by simp [textUnbroken, unbroken])]
      rfl
  | some parts =>
      obtain ⟨front, last⟩ := parts
      obtain ⟨rfl, lastUnbroken⟩ := Delimited.rsplitOnce?_singleton_eq_some_iff.mp divided
      obtain ⟨complete, isOpen⟩ := lines_append_break front lastUnbroken
      have openUnbroken : '\n' ∉ last ++ line := by simp [lastUnbroken, unbroken]
      rw [complete, isOpen, List.append_assoc, List.cons_append, effective_append_break,
        effective_line openUnbroken]
      rfl

/-! ## Lines of the agent -/

theorem unbroken_settingLine (disable : Bool) {comment : Text}
    (known : comment ∈ [[], modifiedComment, addedComment]) :
    '\n' ∉ settingLine (passwordAuthSetting disable) comment := by
  revert comment
  cases disable <;> decide

theorem passwordDirective_settingLine (disable : Bool) {comment : Text}
    (known : comment ∈ [[], modifiedComment, addedComment]) :
    passwordDirective (settingLine (passwordAuthSetting disable) comment) =
      some [passwordAuthSetting disable] := by
  revert comment
  cases disable <;> decide

theorem activePart_of_comment {line : Text} (comment : '#' ∈ line) (behind : Text) :
    activePart (line ++ behind) = activePart line := by
  have cut : (line.takeWhile (· != '#')).length ≠ line.length := by
    intro same
    have whole := List.takeWhile_eq_self_iff.mp ((List.takeWhile_sublist _).eq_of_length same)
    exact absurd (whole '#' comment) (by decide)
  unfold activePart
  rw [List.takeWhile_append, if_neg cut]

theorem activePart_of_open {line : Text} (isOpen : '#' ∉ line) (behind : Text) :
    activePart (line ++ behind) = line ++ activePart behind := by
  apply List.takeWhile_append_of_pos
  intro c member
  rw [bne_iff_ne]
  intro isComment
  exact isOpen (isComment ▸ member)

/-- The words of an open line with a setting behind it. -/
theorem words_append_settingLine {line : Text} (isOpen : '#' ∉ line) (disable : Bool) :
    words (activePart (line ++ settingLine (passwordAuthSetting disable) addedComment)) =
      words (line ++ passwordKeyword) ++ [passwordAuthSetting disable] := by
  have active : activePart (settingLine (passwordAuthSetting disable) addedComment) =
      passwordKeyword ++ ' ' :: (passwordAuthSetting disable ++ [' ']) := by
    cases disable <;> decide
  have solid : ∀ c ∈ passwordAuthSetting disable, isBlank c = false := by
    have all : (passwordAuthSetting disable).all (!isBlank ·) = true := by
      cases disable <;> decide
    simpa using all
  have given : passwordAuthSetting disable ≠ [] := by
    cases disable <;> decide
  rw [activePart_of_open isOpen, active, ← List.append_assoc, words_append_blank (by decide),
    words_append_blank (by decide), words_of_solid given solid, words_nil, List.append_nil]

/-- Only blanks in front leave the keyword as it is. -/
theorem words_append_keyword_iff (line : Text) :
    (∃ keyword, words (line ++ passwordKeyword) = [keyword] ∧
      keyword.map Char.toLower = passwordKeyword.map Char.toLower) ↔
        line.all isBlank = true := by
  have solid : ∀ c ∈ passwordKeyword, isBlank c = false := by
    have all : passwordKeyword.all (!isBlank ·) = true := by decide
    simpa using all
  constructor
  · intro isKeyword
    obtain ⟨keyword, single, same⟩ := isKeyword
    have taken := flatten_words (line ++ passwordKeyword)
    have keywordTaken : passwordKeyword.filter (!isBlank ·) = passwordKeyword := by decide
    rw [single, List.flatten_singleton, List.filter_append, keywordTaken] at taken
    have sameLength := congrArg List.length same
    rw [List.length_map, List.length_map, taken, List.length_append] at sameLength
    have nothing : line.filter (!isBlank ·) = [] := List.length_eq_zero_iff.mp (by omega)
    rw [List.all_eq_true]
    intro c member
    simpa using List.filter_eq_nil_iff.mp nothing c member
  · intro blank
    refine ⟨passwordKeyword, ?_, rfl⟩
    rw [words_blanks_append (List.all_eq_true.mp blank), words_of_solid (by decide) solid]

/-- An open line lets a setting behind it take effect if it is blank, or if its comment
hides the setting and it asks for the same. -/
theorem passwordDirective_append_settingLine (line : Text) (disable : Bool) :
    passwordDirective (line ++ settingLine (passwordAuthSetting disable) addedComment) =
        some [passwordAuthSetting disable] ↔
      line.all isBlank = true ∨
        '#' ∈ line ∧ passwordDirective line = some [passwordAuthSetting disable] := by
  by_cases comment : '#' ∈ line
  · have notBlank : ¬ line.all isBlank = true := by
      intro blank
      exact absurd (List.all_eq_true.mp blank '#' comment) (by decide)
    unfold passwordDirective
    rw [activePart_of_comment comment]
    simp [comment, notBlank]
  · rw [← words_append_keyword_iff line]
    unfold passwordDirective
    rw [words_append_settingLine comment]
    cases parts : words (line ++ passwordKeyword) with
    | nil =>
        -- Without a word in front the setting itself would be the keyword.
        have notKeyword : (passwordAuthSetting disable).map Char.toLower ≠
            passwordKeyword.map Char.toLower := by
          cases disable <;> decide
        simp [comment, notKeyword]
    | cons keyword others =>
        simp only [comment, false_and, or_false, List.cons_append, List.cons.injEq]
        constructor
        · intro obtained
          obtain ⟨isKeyword, same⟩ := Option.ite_none_right_eq_some.mp obtained
          have none_other : others = [] := by simpa using Option.some.inj same
          exact ⟨keyword, ⟨rfl, none_other⟩, isKeyword⟩
        · intro found
          obtain ⟨_, ⟨rfl, rfl⟩, isKeyword⟩ := found
          rw [if_pos isKeyword]
          rfl

/-! ## One call -/

section Call

variable {regex : RegexCrate} (documented : regex.Documented) (disable : Bool)

theorem prevails_of_front {file : SshdConfig} {front setting : Text}
    (found : passwordRegex.front? file.contents = some front) :
    Prevails (some file) setting ↔ effective front = none ∨ effective front = some [setting] := by
  simp only [Prevails, found]

theorem prevails_of_unmatched {file : SshdConfig}
    (absent : passwordRegex.front? file.contents = none) :
    Prevails (some file) (passwordAuthSetting disable) ↔
      effective (file.contents ++ settingLine (passwordAuthSetting disable) addedComment) =
        some [passwordAuthSetting disable] := by
  simp only [Prevails, absent]
  rw [effective_append_openLine _ (unbroken_settingLine disable (by simp))]
  cases obtained : (completeLines file.contents).findSome? passwordDirective with
  | none => exact (passwordDirective_append_settingLine _ disable).symm
  | some arguments => simp

include documented in
/-- A file that a call leaves has its effective value in whole lines. -/
theorem updated_lines (file : Option SshdConfig) :
    ∃ lines rest : Text,
      (updateSshdConfig regex file disable).contents = lines ++ '\n' :: rest ∧
        effective (updateSshdConfig regex file disable).contents = effective lines ∧
          (effective lines = some [passwordAuthSetting disable] ↔
            Prevails file (passwordAuthSetting disable)) := by
  have ends : ∀ lines : Text, effective (lines ++ '\n' :: []) = effective lines := by
    intro lines
    rw [effective_append_break, effective_nil, Option.or_none]
  cases file with
  | none =>
      refine ⟨settingLine (passwordAuthSetting disable) [], [], rfl, ends _, ?_⟩
      rw [effective_line (unbroken_settingLine disable (by simp)),
        passwordDirective_settingLine disable (by simp)]
      simp [Prevails]
  | some file =>
      unfold updateSshdConfig
      simp only [documented.isMatch_eq, Pattern.isMatch]
      cases found : passwordRegex.front? file.contents with
      | none =>
          refine ⟨file.contents ++ settingLine (passwordAuthSetting disable) addedComment, [], ?_, ?_,
            (prevails_of_unmatched disable found).symm⟩
          · simp
          · rw [Option.isSome_none, if_neg Bool.false_ne_true, ← List.append_assoc]
            exact ends _
      | some front =>
          have plain : '$' ∉ settingLine (passwordAuthSetting disable) modifiedComment ++ ['\n'] := by
            cases disable <;> decide
          obtain ⟨-, divided⟩ := Pattern.front?_eq_some found
          obtain ⟨rest, replaced⟩ := Pattern.replaceAll_of_front
            (settingLine (passwordAuthSetting disable) modifiedComment ++ ['\n']) found
          have written : effective (front ++ settingLine (passwordAuthSetting disable) modifiedComment) =
              (effective front).or (some [passwordAuthSetting disable]) := by
            rw [effective_append_line divided,
              effective_line (unbroken_settingLine disable (by simp)),
              passwordDirective_settingLine disable (by simp)]
          have shape : passwordRegex.replaceAll file.contents
              (settingLine (passwordAuthSetting disable) modifiedComment ++ ['\n']) =
                (front ++ settingLine (passwordAuthSetting disable) modifiedComment) ++ '\n' :: rest := by
            rw [replaced]
            simp
          rw [Option.isSome_some, if_pos rfl, documented.replaceAll_eq _ _ _ plain]
          refine ⟨_, rest, shape, ?_, ?_⟩
          · dsimp only
            rw [shape, effective_append_break, written]
            cases effective front <;> rfl
          · rw [written, prevails_of_front found]
            cases effective front <;> simp

/-- A request that has taken effect prevails again. -/
theorem prevails_of_effective {file : SshdConfig} {lines rest setting : Text}
    (shape : file.contents = lines ++ '\n' :: rest)
    (obtained : effective lines = some [setting]) : Prevails (some file) setting := by
  have whole : effective file.contents = some [setting] := by
    rw [shape, effective_append_break, obtained, Option.some_or]
  cases found : passwordRegex.front? file.contents with
  | some front =>
      rw [prevails_of_front found]
      obtain ⟨⟨behind, joined⟩, divided⟩ := Pattern.front?_eq_some found
      rw [joined, effective_append_line divided] at whole
      cases first : effective front with
      | none => exact .inl rfl
      | some arguments =>
          rw [first, Option.some_or] at whole
          exact .inr whole
  | none =>
      have complete : (completeLines file.contents).findSome? passwordDirective = some [setting] := by
        unfold completeLines
        rw [shape, List.splitOn_append_cons_self,
          List.dropLast_append_of_ne_nil (List.splitOn_ne_nil '\n' rest), List.findSome?_append]
        exact (congrArg (Option.or · _) obtained).trans Option.some_or
      simp only [Prevails, found, complete]

end Call

/-! ## Sequences of calls -/

/-- The last request is the effective value, and stays so when it is made again. -/
def Converges (regex : RegexCrate) (file : Option SshdConfig) (settings : List Bool) : Prop :=
  ∃ last now, settings.getLast? = some last ∧ afterUpdates regex file settings = some now ∧
    effective now.contents = some [passwordAuthSetting last] ∧
      effective (updateSshdConfig regex (some now) last).contents = effective now.contents

/-- Calls converge exactly if the last request prevails in the file that the others left. -/
theorem password_setting_converges_iff {regex : RegexCrate} (documented : regex.Documented)
    (file : Option SshdConfig) (earlier : List Bool) (last : Bool) :
    Converges regex file (earlier ++ [last]) ↔
      Prevails (afterUpdates regex file earlier) (passwordAuthSetting last) := by
  obtain ⟨lines, rest, shape, same, obtained⟩ :=
    updated_lines documented last (afterUpdates regex file earlier)
  have reached : afterUpdates regex file (earlier ++ [last]) =
      some (updateSshdConfig regex (afterUpdates regex file earlier) last) :=
    List.foldl_concat ..
  have isLast : (earlier ++ [last]).getLast? = some last := List.getLast?_concat ..
  constructor
  · intro converges
    obtain ⟨other, now, isOther, reachedNow, taken, -⟩ := converges
    obtain rfl := Option.some.inj (isLast.symm.trans isOther)
    obtain rfl := Option.some.inj (reached.symm.trans reachedNow)
    exact obtained.mp (same.symm.trans taken)
  · intro prevails
    have taken := obtained.mpr prevails
    have again := prevails_of_effective shape taken
    obtain ⟨_, _, -, sameAgain, obtainedAgain⟩ := updated_lines documented last
      (some (updateSshdConfig regex (afterUpdates regex file earlier) last))
    refine ⟨last, _, isLast, reached, same.trans taken, ?_⟩
    rw [sameAgain, obtainedAgain.mpr again, same, taken]

def referenceRegex : RegexCrate where
  isMatch pattern text := pattern.isMatch text
  replaceAll pattern text replacement := pattern.replaceAll text replacement

theorem referenceRegex_documented : referenceRegex.Documented where
  isMatch_eq _ _ := rfl
  replaceAll_eq _ _ _ _ := rfl

def commentedConfig : SshdConfig where
  mode := 0o644
  contents := "Port 22\n\n#PasswordAuthentication no\nUsePAM yes\n".toList

theorem password_setting_converges_iff_commented :
    Converges referenceRegex (some commentedConfig) ([] ++ [false]) := by
  have found : passwordRegex.front? commentedConfig.contents = some "Port 22\n".toList := by
    decide +kernel
  exact (password_setting_converges_iff referenceRegex_documented _ [] false).mpr
    ((prevails_of_front found).mpr (.inl (by decide)))

/-- The third request on a missing file is only appended, behind the second one. -/
theorem third_request_does_not_converge :
    ¬ Converges referenceRegex none [false, true, false] := by
  intro converges
  obtain ⟨last, now, isLast, reached, taken, -⟩ := converges
  obtain rfl := Option.some.inj isLast
  have obtained : (afterUpdates referenceRegex none [false, true, false]).map
      (effective ·.contents) = some (some ["no".toList]) := by
    decide +kernel
  rw [reached, Option.map_some, taken] at obtained
  exact absurd obtained (by decide)

end AzureInit.Provision
