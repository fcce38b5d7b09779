import Mathlib.Logic.Relation
import SpotMargin.Proofs.Config.Acceptance

/-!
# Layout

Edits of a configuration text that concern its layout: lines without code, line ends, blanks at the
ends of a line or around an equals sign, and comments.  None of them changes what a line says, so
the text describes the same configuration after any number of them, or fails with the same fault on
a line that may have another number (`ofText_of_relaid`).
-/

namespace SpotMargin

/-- The failure without the number of the line that it is about. -/
def Error.unplaced : Error → Error
  | .line _ cause => .line 0 cause
  | other => other

namespace Config

variable {line other blanks chars left right : List Char} {text relaid : String}

/-- There is no code on the line. -/
inductive Vacant : List Char → Prop
  | blank {blanks : List Char} : (∀ c ∈ blanks, isBlank c = true) → Vacant blanks
  | comment {blanks : List Char} (comment : List Char) : (∀ c ∈ blanks, isBlank c = true) →
      Vacant (blanks ++ '#' :: comment)

/-- All characters are spaces or tabs. -/
def Spaces (chars : List Char) : Prop :=
  ∀ c ∈ chars, c = ' ' ∨ c = '\t'

/-- All characters are carriage returns. -/
def Returns (chars : List Char) : Prop :=
  ∀ c ∈ chars, c = '\r'

/-- An edit of a line.  What is added at its end may be added before the carriage returns there. -/
inductive LineEdit : List Char → List Char → Prop
  | indent {spaces : List Char} (line : List Char) : Spaces spaces → LineEdit line (spaces ++ line)
  | trail {spaces returns : List Char} (line : List Char) : Spaces spaces → Returns returns →
      LineEdit (line ++ returns) (line ++ spaces ++ returns)
  /-- Spaces and tabs around the first equals sign of an assignment. -/
  | align {left right before after : List Char} {key value : String} :
      Line.Says (left ++ '=' :: right) (.assignment key value) → '=' ∉ left → Spaces before →
      Spaces after → LineEdit (left ++ '=' :: right) (left ++ before ++ '=' :: (after ++ right))
  /-- A comment at the end of a line with an even number of quotation marks. -/
  | comment {line returns : List Char} (comment : List Char) : Even (line.count '"') →
      Returns returns → LineEdit (line ++ returns) (line ++ '#' :: comment ++ returns)

/-- The text with a carriage return before each line feed. -/
def withReturns (text : List Char) : List Char :=
  text.flatMap fun c => if c = '\n' then ['\r', '\n'] else [c]

/-- An edit of the layout of a text. -/
inductive Edit : String → String → Prop
  /-- A line without code is inserted anywhere. -/
  | insert {text relaid : String} {front back : List (List Char)} {line : List Char} :
      lines text.toList = front ++ back → lines relaid.toList = front ++ line :: back →
      Vacant line → Edit text relaid
  | line {text relaid : String} {front back : List (List Char)} {line other : List Char} :
      lines text.toList = front ++ line :: back → lines relaid.toList = front ++ other :: back →
      LineEdit line other → Edit text relaid
  | returns (text : String) : Edit text (.ofList (withReturns text.toList))

/-- Neither a comment nor a quotation begins among the characters. -/
def Plain (chars : List Char) : Prop :=
  ∀ c ∈ chars, c ≠ '#' ∧ c ≠ '"'

theorem plain_of_blank (blank : ∀ c ∈ blanks, isBlank c = true) : Plain blanks := by
  intro c mem
  constructor
  all_goals
    rintro rfl
    exact absurd (blank _ mem) (by decide)

theorem beforeComment_plain_append (plain : Plain chars) (quoted : Bool) (rest : List Char) :
    beforeComment quoted (chars ++ rest) = chars ++ beforeComment quoted rest := by
  induction chars with
  | nil => rfl
  | cons c chars ih =>
      obtain ⟨not_sign, not_mark⟩ := plain c List.mem_cons_self
      rw [List.cons_append, beforeComment, if_neg (fun sign => not_sign sign.1), if_neg not_mark,
        ih fun d mem => plain d (List.mem_cons_of_mem c mem)]
      rfl

/-- A quotation mark turns the parity around. -/
private theorem parity_cons (quoted : Bool) (c : Char) (chars : List Char) :
    ((if c = '"' then !quoted else quoted) ^^ decide (Odd (chars.count '"'))) =
      (quoted ^^ decide (Odd ((c :: chars).count '"'))) := by
  split
  · rename_i mark
    subst mark
    rw [List.count_cons_self, decide_eq_decide.mpr Nat.odd_add_one, decide_not, Bool.not_xor,
      Bool.xor_not]
  · rename_i other
    rw [List.count_cons_of_ne other]

/-- Either a comment begins among the characters, or it can only begin after them. -/
theorem beforeComment_append_or (quoted : Bool) (chars : List Char) :
    (∀ rest, beforeComment quoted (chars ++ rest) = beforeComment quoted chars) ∨
      beforeComment quoted chars = chars ∧ ∀ rest, beforeComment quoted (chars ++ rest) =
        chars ++ beforeComment (quoted ^^ decide (Odd (chars.count '"'))) rest := by
  induction chars generalizing quoted with
  | nil => exact .inr ⟨rfl, fun rest => by simp⟩
  | cons c chars ih =>
      by_cases sign : c = '#' ∧ quoted = false
      · refine .inl fun rest => ?_
        rw [List.cons_append, beforeComment, if_pos sign, beforeComment, if_pos sign]
      rcases ih (if c = '"' then !quoted else quoted) with begun | ⟨whole, free⟩
      · refine .inl fun rest => ?_
        rw [List.cons_append, beforeComment, if_neg sign, begun, beforeComment, if_neg sign]
      · refine .inr ⟨by rw [beforeComment, if_neg sign, whole], fun rest => ?_⟩
        rw [List.cons_append, beforeComment, if_neg sign, free, parity_cons]
        rfl

theorem trim_blank_append (blank : ∀ c ∈ blanks, isBlank c = true) (chars : List Char) :
    trim (blanks ++ chars) = trim chars := by
  have trims : Trims chars (trim chars) := trims_iff.mpr rfl
  obtain ⟨left, right, chars_eq, left_blank, right_blank⟩ := trims.around
  refine trims_iff.mp ⟨⟨blanks ++ left, right, ?_, ?_, right_blank⟩, trims.first, trims.last⟩
  · nth_rewrite 1 [chars_eq]
    simp only [List.append_assoc]
  · exact List.forall_mem_append.mpr ⟨blank, left_blank⟩

theorem trim_append_blank (blank : ∀ c ∈ blanks, isBlank c = true) (chars : List Char) :
    trim (chars ++ blanks) = trim chars := by
  have trims : Trims chars (trim chars) := trims_iff.mpr rfl
  obtain ⟨left, right, chars_eq, left_blank, right_blank⟩ := trims.around
  refine trims_iff.mp ⟨⟨left, right ++ blanks, ?_, left_blank, ?_⟩, trims.first, trims.last⟩
  · nth_rewrite 1 [chars_eq]
    simp only [List.append_assoc]
  · exact List.forall_mem_append.mpr ⟨right_blank, blank⟩

/-- Trimming does not reach past a character that is not blank. -/
private theorem dropWhile_append_solid {mark : Char} (solid : isBlank mark = false)
    (left right : List Char) :
    (left ++ mark :: right).dropWhile isBlank = left.dropWhile isBlank ++ mark :: right := by
  induction left with
  | nil => rw [List.nil_append, List.dropWhile_cons_of_neg (by simp [solid])]; rfl
  | cons c left ih =>
      by_cases blank : isBlank c = true
      · rw [List.cons_append, List.dropWhile_cons_of_pos blank, ih,
          List.dropWhile_cons_of_pos blank]
      · rw [List.cons_append, List.dropWhile_cons_of_neg blank, List.dropWhile_cons_of_neg blank]
        rfl

theorem trim_append_solid {mark : Char} (solid : isBlank mark = false) (left right : List Char) :
    trim (left ++ mark :: right) = left.dropWhile isBlank ++ mark :: trimEnd right := by
  have reversed := dropWhile_append_solid solid right.reverse (left.dropWhile isBlank).reverse
  rw [trim, dropWhile_append_solid solid, trimEnd, List.reverse_append, List.reverse_cons,
    List.append_assoc, List.singleton_append, reversed, trimEnd]
  simp

theorem trim_dropWhile (chars : List Char) : trim (chars.dropWhile isBlank) = trim chars := by
  have blank : ∀ c ∈ chars.takeWhile isBlank, isBlank c = true :=
    fun c mem => List.all_eq_true.mp List.all_takeWhile c mem
  conv_rhs => rw [← List.takeWhile_append_dropWhile (p := isBlank) (l := chars)]
  rw [trim_blank_append blank]

theorem trim_trimEnd (chars : List Char) : trim (trimEnd chars) = trim chars := by
  obtain ⟨blanks, chars_eq, blank, -⟩ := exists_trimEnd chars
  conv_rhs => rw [chars_eq]
  rw [trim_append_blank blank]

theorem Spaces.blank (spaces : Spaces chars) : ∀ c ∈ chars, isBlank c = true := by
  intro c mem
  rcases spaces c mem with rfl | rfl <;> rfl

theorem Returns.blank (returns : Returns chars) : ∀ c ∈ chars, isBlank c = true := by
  intro c mem
  rw [returns c mem]
  rfl

namespace Line

theorem ofChars_append_blank (blank : ∀ c ∈ blanks, isBlank c = true) (line : List Char) :
    ofChars (line ++ blanks) = ofChars line := by
  rcases beforeComment_append_or false line with begun | ⟨whole, free⟩
  · rw [ofChars, begun, ofChars]
  · have uncut := beforeComment_plain_append (plain_of_blank blank)
      (false ^^ decide (Odd (line.count '"'))) []
    rw [List.append_nil, beforeComment, List.append_nil] at uncut
    rw [ofChars, free, uncut, trim_append_blank blank, ofChars, whole]

theorem ofChars_blank_append (blank : ∀ c ∈ blanks, isBlank c = true) (line : List Char) :
    ofChars (blanks ++ line) = ofChars line := by
  rw [ofChars, beforeComment_plain_append (plain_of_blank blank), trim_blank_append blank, ofChars]

/-- A comment can be added where no quotation is open. -/
theorem ofChars_append_comment (closed : Even (line.count '"')) (comment : List Char) :
    ofChars (line ++ '#' :: comment) = ofChars line := by
  have outside : (false ^^ decide (Odd (line.count '"'))) = false := by
    rw [Bool.false_xor, decide_eq_false_iff_not, Nat.not_odd_iff_even]
    exact closed
  rcases beforeComment_append_or false line with begun | ⟨whole, free⟩
  · rw [ofChars, begun, ofChars]
  · rw [ofChars, free, outside, beforeComment, if_pos ⟨rfl, rfl⟩, List.append_nil, ofChars, whole]

theorem ofChars_of_vacant (vacant : Vacant line) : ofChars line = .ok .blank := by
  have nothing : ofChars [] = .ok .blank := rfl
  cases vacant with
  | blank blank => rw [← List.append_nil line, ofChars_blank_append blank, nothing]
  | comment comment blank =>
      have added : ofChars ([] ++ '#' :: comment) = ofChars [] :=
        ofChars_append_comment (by decide) comment
      rw [ofChars_blank_append blank, ← List.nil_append ('#' :: comment), added, nothing]

/-- Both sides of the first equals sign are trimmed. -/
theorem ofTrimmed_trim_assignment (absent : '=' ∉ left)
    (unbracketed : (left.dropWhile isBlank).head? ≠ some '[') (right : List Char) :
    ofTrimmed (trim (left ++ '=' :: right)) =
      .ok (.assignment (.ofList (trim left)) (.ofList (unquote (trim right)))) := by
  have key_absent : '=' ∉ left.dropWhile isBlank :=
    fun mem => absent ((List.dropWhile_sublist isBlank).mem mem)
  have head : (left.dropWhile isBlank ++ '=' :: trimEnd right).head? ≠ some '[' := by
    cases key : left.dropWhile isBlank with
    | nil => simp
    | cons c rest => simpa [key] using unbracketed
  rw [trim_append_solid (by rfl), ofTrimmed_assignment (by simp) head,
    splitAt?_eq_some_iff.mpr ⟨rfl, key_absent⟩]
  simp only [trim_dropWhile, trim_trimEnd]

/-- What stands before the first equals sign of an assignment is no header. -/
theorem Says.head?_ne_bracket {key value : String} (said : Says line (.assignment key value))
    (code_eq : beforeComment false line = left ++ '=' :: right) (absent : '=' ∉ left) :
    (left.dropWhile isBlank).head? ≠ some '[' := by
  cases said with
  | @assignment first second _ _ _ code unbracketed first_absent _ _ _ =>
      have core := code_iff.mp code
      rw [code_eq, trim_append_solid (by rfl)] at core
      have key_absent : '=' ∉ left.dropWhile isBlank :=
        fun mem => absent ((List.dropWhile_sublist isBlank).mem mem)
      have split := splitAt?_eq_some_iff.mpr ⟨core.symm, key_absent⟩
      rw [splitAt?_eq_some_iff.mpr ⟨rfl, first_absent⟩] at split
      cases split
      exact unbracketed

theorem head?_dropWhile_append (blank : ∀ c ∈ blanks, isBlank c = true) (chars : List Char) :
    ((chars ++ blanks).dropWhile isBlank).head? = (chars.dropWhile isBlank).head? := by
  induction chars with
  | nil => rw [List.nil_append, List.dropWhile_eq_nil_iff.mpr blank]; rfl
  | cons c chars ih =>
      by_cases here : isBlank c = true
      · rw [List.cons_append, List.dropWhile_cons_of_pos here, List.dropWhile_cons_of_pos here, ih]
      · rw [List.cons_append, List.dropWhile_cons_of_neg here, List.dropWhile_cons_of_neg here]
        rfl

/-- Blanks around the first equals sign of an assignment belong to neither side. -/
theorem ofChars_align {before after : List Char} {key value : String}
    (said : Says (left ++ '=' :: right) (.assignment key value)) (absent : '=' ∉ left)
    (before_blank : ∀ c ∈ before, isBlank c = true) (after_blank : ∀ c ∈ after, isBlank c = true) :
    ofChars (left ++ before ++ '=' :: (after ++ right)) = ofChars (left ++ '=' :: right) := by
  rcases beforeComment_append_or false left with begun | ⟨-, free⟩
  · rw [List.append_assoc, ofChars, begun, ofChars, begun]
  · have sign : Plain ['='] := List.forall_mem_singleton.mpr (by decide)
    have rest_eq (quoted : Bool) (rest : List Char) :
        beforeComment quoted ('=' :: rest) = '=' :: beforeComment quoted rest :=
      beforeComment_plain_append sign quoted rest
    have code_eq := free ('=' :: right)
    rw [rest_eq] at code_eq
    have aligned_eq := free (before ++ '=' :: (after ++ right))
    rw [beforeComment_plain_append (plain_of_blank before_blank), rest_eq,
      beforeComment_plain_append (plain_of_blank after_blank), ← List.append_assoc,
      ← List.append_assoc] at aligned_eq
    have aligned_absent : '=' ∉ left ++ before := by
      intro mem
      rcases List.mem_append.mp mem with key | blank
      · exact absent key
      · exact absurd (before_blank '=' blank) (by decide)
    have unbracketed := said.head?_ne_bracket code_eq absent
    have aligned_unbracketed := unbracketed
    rw [← head?_dropWhile_append before_blank] at aligned_unbracketed
    rw [ofChars, aligned_eq, ofTrimmed_trim_assignment aligned_absent aligned_unbracketed,
      trim_append_blank before_blank, trim_blank_append after_blank, ofChars, code_eq,
      ofTrimmed_trim_assignment absent unbracketed]

end Line

/-- An edit does not change what a line says. -/
theorem LineEdit.ofChars_eq (edit : LineEdit line other) :
    Line.ofChars other = Line.ofChars line := by
  cases edit with
  | indent line spaces => exact Line.ofChars_blank_append spaces.blank line
  | @trail spaces returns line spaces_added returns_end =>
      have blank := List.forall_mem_append.mpr ⟨spaces_added.blank, returns_end.blank⟩
      rw [List.append_assoc, Line.ofChars_append_blank blank,
        Line.ofChars_append_blank returns_end.blank]
  | align said absent before after =>
      exact Line.ofChars_align said absent before.blank after.blank
  | @comment line returns comment closed returns_end =>
      rw [List.append_assoc, List.cons_append, Line.ofChars_append_comment closed,
        Line.ofChars_append_blank returns_end.blank]

/-! ## Edits of a text -/

/-- The lines `edited` say what `original` say, with lines added that say nothing. -/
inductive Restates : List (List Char) → List (List Char) → Prop
  | nil : Restates [] []
  | line {line other : List Char} {original edited : List (List Char)} :
      Line.ofChars other = Line.ofChars line → Restates original edited →
      Restates (line :: original) (other :: edited)
  | added {line : List Char} {original edited : List (List Char)} :
      Line.ofChars line = .ok .blank → Restates original edited →
      Restates original (line :: edited)

namespace Restates

variable {original edited more more_edited : List (List Char)}

theorem refl (lines : List (List Char)) : Restates lines lines := by
  induction lines with
  | nil => exact .nil
  | cons line lines ih => exact .line rfl ih

theorem append (first : Restates original edited) (second : Restates more more_edited) :
    Restates (original ++ more) (edited ++ more_edited) := by
  induction first with
  | nil => exact second
  | line same _ ih => exact .line same ih
  | added blank _ ih => exact .added blank ih

end Restates

theorem withReturns_of_not_mem (single : '\n' ∉ line) : withReturns line = line := by
  induction line with
  | nil => rfl
  | cons c line ih =>
      rw [List.mem_cons, not_or] at single
      rw [withReturns, List.flatMap_cons, if_neg (Ne.symm single.1), ← withReturns, ih single.2]
      rfl

theorem withReturns_append (line rest : List Char) :
    withReturns (line ++ '\n' :: rest) = withReturns line ++ '\r' :: '\n' :: withReturns rest := by
  simp [withReturns]

/-- The carriage returns stand at the ends of lines. -/
theorem restates_withReturns (text : List Char) :
    Restates (lines text) (lines (withReturns text)) := by
  cases found : splitAt? '\n' text with
  | none =>
      rw [withReturns_of_not_mem (splitAt?_eq_none_iff.mp found)]
      exact .refl _
  | some parts =>
      obtain ⟨line, rest⟩ := parts
      obtain ⟨rfl, single⟩ := splitAt?_eq_some_iff.mp found
      have single_return : '\n' ∉ line ++ ['\r'] := by simp [single]
      have returned : Line.ofChars (line ++ ['\r']) = Line.ofChars line :=
        Line.ofChars_append_blank (List.forall_mem_singleton.mpr rfl) line
      rw [withReturns_append, withReturns_of_not_mem single, lines_append single,
        List.append_cons, lines_append single_return]
      exact .line returned (restates_withReturns rest)
termination_by text.length
decreasing_by
  rename_i text_eq
  rw [text_eq, List.length_append, List.length_cons]
  omega

theorem Edit.restates (edit : Edit text relaid) :
    Restates (lines text.toList) (lines relaid.toList) := by
  cases edit with
  | insert lines_eq relaid_eq vacant =>
      rw [lines_eq, relaid_eq]
      exact (Restates.refl _).append (.added (Line.ofChars_of_vacant vacant) (.refl _))
  | line lines_eq relaid_eq edit =>
      rw [lines_eq, relaid_eq]
      exact (Restates.refl _).append (.line edit.ofChars_eq (.refl _))
  | returns =>
      rw [String.toList_ofList]
      exact restates_withReturns text.toList

/-- The fault of a line does not depend on the number of the line, except that it names it. -/
theorem Rejects.renumber {current : Option Section} {number : Nat} {error : Error}
    (rejects : Rejects current number line error) (renumbered : Nat) :
    ∃ fault, Rejects current renumbered line fault ∧ fault.unplaced = error.unplaced := by
  cases rejects with
  | form failed => exact ⟨_, .form failed, rfl⟩
  | title said untitled => exact ⟨_, .title said untitled, rfl⟩
  | stray stands said => exact ⟨_, .stray stands said, rfl⟩
  | generalKey stands said not_level not_category =>
      exact ⟨_, .generalKey stands said not_level not_category, rfl⟩
  | category stands said unknown => exact ⟨_, .category stands said unknown, rfl⟩
  | marketKey stands said unknown => exact ⟨_, .marketKey stands said unknown, rfl⟩
  | numeral stands said read => exact ⟨_, .numeral stands said read, rfl⟩
  | range stands said read out => exact ⟨_, .range stands said read out, rfl⟩

namespace Reader

theorem readLine_renumber (reader : Reader) (number renumbered : Nat) (line : List Char) :
    (reader.readLine renumbered line).mapError Error.unplaced =
      (reader.readLine number line).mapError Error.unplaced := by
  rcases means_or_rejects reader.current number line with ⟨statement, means⟩ | ⟨error, rejects⟩
  · rw [readLine_of_means means, readLine_of_means means]
  · obtain ⟨fault, fault_rejects, same⟩ := rejects.renumber renumbered
    rw [readLine_of_rejects rejects, readLine_of_rejects fault_rejects]
    exact congrArg Except.error same

/-- Lines that say the same are read in the same way. -/
theorem readLine_edited (same : Line.ofChars other = Line.ofChars line) (reader : Reader)
    (number renumbered : Nat) :
    (reader.readLine renumbered other).mapError Error.unplaced =
      (reader.readLine number line).mapError Error.unplaced := by
  rw [← readLine_renumber reader number renumbered line]
  simp only [readLine, same]

/-- The run keeps what each line keeps: the same section and configuration before every line that
says something, on whatever number the line stands. -/
theorem readLines_restated {original edited : List (List Char)}
    (restates : Restates original edited) (reader : Reader) (number renumbered : Nat) :
    (reader.readLines renumbered edited).mapError Error.unplaced =
      (reader.readLines number original).mapError Error.unplaced := by
  induction restates generalizing reader number renumbered with
  | nil => rfl
  | line same _ ih =>
      rw [readLines, readLines, mapError_bind, mapError_bind,
        readLine_edited same reader number renumbered]
      refine congrArg _ (funext fun next => ?_)
      exact ih next (number + 1) (renumbered + 1)
  | added blank _ ih =>
      have passed : ∀ line number, Line.ofChars line = .ok .blank →
          reader.readLine number line = .ok reader := by
        intro line number blank
        simp only [readLine, blank]
      rw [readLines, passed _ _ blank, ok_bind]
      exact ih reader number (renumbered + 1)

end Reader

/-- An edit of the layout changes the outcome at most in the number of the line at fault. -/
theorem Edit.ofText_eq (edit : Edit text relaid) :
    (ofText relaid).mapError Error.unplaced = (ofText text).mapError Error.unplaced := by
  rw [ofText, ofText, mapError_bind, mapError_bind, Reader.readLines_restated edit.restates {} 1 1]

/-- So do any number of edits. -/
theorem ofText_eq_of_relaid (edits : Relation.ReflTransGen Edit text relaid) :
    (ofText relaid).mapError Error.unplaced = (ofText text).mapError Error.unplaced := by
  induction edits with
  | refl => rfl
  | tail _ edit ih => exact edit.ofText_eq.trans ih

/-- After any number of edits of its layout a text describes the same configuration, or fails with
the same fault, though on a line that may have another number. -/
theorem ofText_of_relaid (edits : Relation.ReflTransGen Edit text relaid) :
    (∃ config, ofText text = .ok config ∧ ofText relaid = .ok config) ∨
      ∃ fault moved, ofText text = .error fault ∧ ofText relaid = .error moved ∧
        fault.kind = .configuration ∧ moved.kind = .configuration ∧
        moved.unplaced = fault.unplaced := by
  rcases ok_or_error_of_mapError_eq (ofText_eq_of_relaid edits) with
    described | ⟨fault, moved, failed, moved_failed, same⟩
  · exact .inl described
  · exact .inr ⟨fault, moved, failed, moved_failed, kind_of_ofText_eq_error failed,
      kind_of_ofText_eq_error moved_failed, same⟩

/-- One edit of each sort, the last before a carriage return, around a value with a number sign. -/
theorem ofText_of_relaid_in_every_way :
    let text := "[general]\nlog_level=\"#\""
    let relaid := " #\r\n[general] \r\n\tlog_level = \"#\"# =\""
    Relation.ReflTransGen Edit text relaid ∧
      ∃ config, ofText text = .ok config ∧ ofText relaid = .ok config ∧ config.logLevel = "#" := by
  intro text relaid
  let aligned := "[general]\nlog_level = \"#\""
  let indented := "[general]\n\tlog_level = \"#\""
  let remarked := "[general]\n\tlog_level = \"#\"# =\""
  let inserted := " #\n[general]\n\tlog_level = \"#\"# =\""
  let returned := " #\r\n[general]\r\n\tlog_level = \"#\"# =\""
  have space : Spaces [' '] := List.forall_mem_singleton.mpr (.inl rfl)
  have tab : Spaces ['\t'] := List.forall_mem_singleton.mpr (.inr rfl)
  have no_returns : Returns [] := List.forall_mem_nil _
  have one_return : Returns ['\r'] := List.forall_mem_singleton.mpr rfl
  let header := "[general]".toList
  let key := "log_level".toList
  let value := "\"#\"".toList
  let assignment := key ++ [' '] ++ '=' :: ([' '] ++ value)
  let remark := '#' :: " =\"".toList
  have said : Line.Says (key ++ '=' :: value) (.assignment "log_level" "#") :=
    Line.ofChars_eq_ok_iff.mp (by decide)
  have align : Edit text aligned :=
    @Edit.line _ _ [header] [] (key ++ '=' :: value) assignment (by decide) (by decide)
      (.align said (by decide) space space)
  have indent : Edit aligned indented :=
    @Edit.line _ _ [header] [] assignment (['\t'] ++ assignment) (by decide) (by decide)
      (.indent assignment tab)
  have comment : Edit indented remarked :=
    @Edit.line _ _ [header] [] (['\t'] ++ assignment ++ []) (['\t'] ++ assignment ++ remark ++ [])
      (by decide) (by decide) (.comment " =\"".toList (by decide) no_returns)
  have insert : Edit remarked inserted :=
    @Edit.insert _ _ [] _ ([' '] ++ '#' :: []) rfl (by decide)
      (.comment [] space.blank)
  have feed : Edit inserted returned := by
    have returned_eq : String.ofList (withReturns inserted.toList) = returned := by decide
    exact returned_eq ▸ Edit.returns inserted
  have trail : Edit returned relaid :=
    @Edit.line _ _ [" #\r".toList] [['\t'] ++ assignment ++ remark] (header ++ ['\r'])
      (header ++ [' '] ++ ['\r']) (by decide) (by decide) (.trail header space one_return)
  have edits : Relation.ReflTransGen Edit text relaid :=
    .head align (.head indent (.head comment (.head insert (.head feed (.single trail)))))
  refine ⟨edits, ?_⟩
  have described : ofText text = .ok { logLevel := "#" } := by decide +kernel
  rcases ofText_of_relaid edits with ⟨config, read, reread⟩ | ⟨fault, moved, failed, -⟩
  · cases described.symm.trans read
    exact ⟨_, read, reread, rfl⟩
  · cases described.symm.trans failed

end Config
end SpotMargin
