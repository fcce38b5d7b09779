import SpotMargin.Proofs.Config.Agreement
import SpotMargin.Proofs.Config.Layout

/-!
# Quoted values

Between quotation marks every character but a quotation mark stands for itself: a number sign begins
no comment there, an equals sign after the first divides nothing, brackets open nothing, and blanks
at the ends are not trimmed.  A line that assigns a quoted value assigns just what stands between
the marks (`Line.ofChars_quotedLine`), and where none of these characters would be special without
the marks, the marks make no difference.
-/

namespace SpotMargin
namespace Config

variable {key value text : String} {chars left right rest : List Char}

/-- An assignment of a value in quotation marks. -/
def quotedLine (key value : String) : List Char :=
  (key ++ " = \"" ++ value ++ "\"").toList

/-- An assignment of a value without quotation marks. -/
def bareLine (key value : String) : List Char :=
  (key ++ " = " ++ value).toList

/-- The value keeps its meaning without quotation marks. -/
structure Unquotable (value : String) : Prop where
  plain : Plain value.toList
  first : ∀ c, value.toList.head? = some c → isBlank c = false
  last : ∀ c, value.toList.getLast? = some c → isBlank c = false

/-- Between quotation marks a number sign does not begin a comment. -/
theorem beforeComment_quoted_append (unmarked : '"' ∉ chars) (rest : List Char) :
    beforeComment true (chars ++ rest) = chars ++ beforeComment true rest := by
  induction chars with
  | nil => rfl
  | cons c chars ih =>
      rw [List.mem_cons, not_or] at unmarked
      obtain ⟨not_mark, unmarked⟩ := unmarked
      rw [List.cons_append, beforeComment, if_neg (by simp), if_neg (Ne.symm not_mark), ih unmarked]
      rfl

/-- What is left of a line without code is blank. -/
theorem Vacant.blank_beforeComment (vacant : Vacant rest) :
    ∀ c ∈ beforeComment false rest, isBlank c = true := by
  cases vacant with
  | blank blank =>
      have uncut := beforeComment_plain_append (plain_of_blank blank) false []
      rw [List.append_nil, beforeComment, List.append_nil] at uncut
      rwa [uncut]
  | comment comment blank =>
      rw [beforeComment_plain_append (plain_of_blank blank), beforeComment, if_pos ⟨rfl, rfl⟩,
        List.append_nil]
      exact blank

theorem Word.plain_chars (word : Word chars) : Plain chars := by
  intro c mem
  constructor
  all_goals
    rintro rfl
    exact word.not_mem (by decide) mem

namespace Line

/-- The value of an assignment is what follows the first equals sign, whatever that is. -/
theorem ofChars_assignment (key_word : Word key.toList) (rest : List Char) :
    ofChars ((key ++ " = ").toList ++ rest) =
      .ok (.assignment key (.ofList (unquote (trim (beforeComment false rest))))) := by
  have line_eq : (key ++ " = ").toList = key.toList ++ [' '] ++ ['=', ' '] := by simp
  have plain : Plain (key.toList ++ [' '] ++ ['=', ' ']) := by
    have signs : Plain [' ', '=', ' '] := by simp [Plain]
    rw [List.append_assoc]
    exact List.forall_mem_append.mpr ⟨key_word.plain_chars, signs⟩
  have code_eq : beforeComment false ((key ++ " = ").toList ++ rest) =
      (key.toList ++ [' ']) ++ '=' :: ([' '] ++ beforeComment false rest) := by
    rw [line_eq, beforeComment_plain_append plain, List.append_assoc]
    rfl
  have space : ∀ c ∈ [' '], isBlank c = true := List.forall_mem_singleton.mpr rfl
  have absent : '=' ∉ key.toList ++ [' '] := by
    simp [key_word.not_mem, isPlain]
  have unbracketed : ((key.toList ++ [' ']).dropWhile isBlank).head? ≠ some '[' := by
    intro head
    rw [head?_dropWhile_append space] at head
    have mem := (List.dropWhile_sublist isBlank).mem (List.mem_of_head? head)
    exact key_word.not_mem (by decide) mem
  have key_trims : Trims ([] ++ key.toList ++ [' ']) key.toList :=
    key_word.trims (List.forall_mem_nil _) space
  rw [List.nil_append] at key_trims
  rw [ofChars, code_eq, ofTrimmed_trim_assignment absent unbracketed, trims_iff.mp key_trims,
    trim_blank_append space, String.ofList_toList]

/-- The marks go, what stands between them stays, and what follows them without code does not
count. -/
theorem ofChars_quotedLine (key_word : Word key.toList) (unmarked : '"' ∉ value.toList)
    (vacant : Vacant rest) :
    ofChars (quotedLine key value ++ rest) = .ok (.assignment key value) := by
  have line_eq : quotedLine key value ++ rest =
      (key ++ " = ").toList ++ '"' :: (value.toList ++ '"' :: rest) := by
    simp [quotedLine]
  have uncut : beforeComment false ('"' :: (value.toList ++ '"' :: rest)) =
      [] ++ '"' :: (value.toList ++ ['"']) ++ beforeComment false rest := by
    rw [beforeComment, if_neg (by decide), if_pos rfl, Bool.not_false,
      beforeComment_quoted_append unmarked, beforeComment, if_neg (by decide), if_pos rfl]
    simp
  have trims : Trims ([] ++ '"' :: (value.toList ++ ['"']) ++ beforeComment false rest)
      ('"' :: (value.toList ++ ['"'])) := by
    refine ⟨⟨[], _, rfl, List.forall_mem_nil _, vacant.blank_beforeComment⟩, ?_, ?_⟩
    · rintro c ⟨⟩
      rfl
    · intro c last
      rw [← List.cons_append, List.getLast?_concat] at last
      cases last
      rfl
  rw [line_eq, ofChars_assignment key_word, uncut, trims_iff.mp trims,
    denotes_iff.mp (.quoted value.toList), String.ofList_toList]

theorem ofChars_bareLine (key_word : Word key.toList) (unquotable : Unquotable value) :
    ofChars (bareLine key value) = .ok (.assignment key value) := by
  have uncut := beforeComment_plain_append unquotable.plain false []
  rw [List.append_nil, beforeComment, List.append_nil] at uncut
  have trims : Trims value.toList value.toList :=
    ⟨⟨[], [], by simp, List.forall_mem_nil _, List.forall_mem_nil _⟩, unquotable.first,
      unquotable.last⟩
  have bare : Denotes value.toList value.toList := by
    refine .bare fun inner same => ?_
    have mark := unquotable.plain '"' (same ▸ List.mem_cons_self)
    exact mark.2 rfl
  rw [bareLine, String.toList_append, ofChars_assignment key_word, uncut, trims_iff.mp trims,
    denotes_iff.mp bare, String.ofList_toList]

end Line

/-- A line is read for what it says, so lines that say the same can stand for one another. -/
theorem ofText_eq_of_ofChars_eq {other : String} {front back : List (List Char)}
    {line replaced : List Char} (same : Line.ofChars line = Line.ofChars replaced)
    (lines_eq : lines text.toList = front ++ line :: back)
    (other_eq : lines other.toList = front ++ replaced :: back) : ofText text = ofText other := by
  have read (reader : Reader) (number : Nat) :
      reader.readLine number line = reader.readLine number replaced := by
    simp only [Reader.readLine, same]
  rw [ofText, ofText, lines_eq, other_eq, Reader.readLines_append, Reader.readLines_append]
  simp only [Reader.readLines, read]

theorem word_logLevel : Word "log_level".toList :=
  .of_all (by decide) (by decide)

/-- In the general settings the line sets the log level and nothing else. -/
theorem Reader.readLine_quoted_logLevel {reader : Reader} (unmarked : '"' ∉ value.toList)
    (vacant : Vacant rest) (current : reader.current = some .general) (number : Nat) :
    reader.readLine number (quotedLine "log_level" value ++ rest) =
      .ok { reader with config.logLevel := value } := by
  simp only [readLine, Line.ofChars_quotedLine word_logLevel unmarked vacant, assign, current,
    if_true]

/-- Whatever stands between the quotation marks, there is a text that assigns it. -/
theorem ofText_quoted_logLevel (unmarked : '"' ∉ value.toList) (single : '\n' ∉ value.toList)
    (vacant : Vacant rest) (rest_single : '\n' ∉ rest) :
    ofText (.ofList ("[general]\n".toList ++ (quotedLine "log_level" value ++ rest))) =
      .ok { logLevel := value } := by
  have header_single : '\n' ∉ "[general]".toList := by decide
  have line_single : '\n' ∉ quotedLine "log_level" value ++ rest := by
    simp [quotedLine, single, rest_single]
  have lines_eq : lines ("[general]\n".toList ++ (quotedLine "log_level" value ++ rest)) =
      ["[general]".toList, quotedLine "log_level" value ++ rest] := by
    rw [← lines_of_not_mem line_single]
    exact lines_append header_single _
  have opened : Reader.readLine {} 1 "[general]".toList = .ok { current := some .general } := by
    decide
  rw [ofText, String.toList_ofList, lines_eq, Reader.readLines, opened, ok_bind, Reader.readLines,
    Reader.readLine_quoted_logLevel unmarked vacant rfl, ok_bind]
  rfl

/-- A log level in quotation marks, with blanks and a comment behind it or not, is the log level of
the text when it is assigned last, whatever characters it holds; and the value of a market's key is
the same with and without quotation marks when none of its characters is special without them. -/
theorem quotation_intact :
    (∀ value rest, '"' ∉ value.toList → Vacant rest →
      (∀ text config front back, ofText text = .ok config →
        lines text.toList = front ++ (quotedLine "log_level" value ++ rest) :: back →
        Standing front (some .general) →
        (∀ between later after other, back = between ++ later :: after →
          ¬AssignsAfter (front ++ (quotedLine "log_level" value ++ rest) :: between) later .general
            "log_level" other) →
        config.logLevel = value) ∧
      ('\n' ∉ value.toList → '\n' ∉ rest →
        ofText (.ofList ("[general]\n".toList ++ (quotedLine "log_level" value ++ rest))) =
          .ok { logLevel := value })) ∧
    ∀ (key : Market.Key) value, Unquotable value →
      ∀ text other front back, lines text.toList = front ++ quotedLine key.name value :: back →
        lines other.toList = front ++ bareLine key.name value :: back →
        ofText text = ofText other := by
  refine ⟨?_, ?_⟩
  · intro value rest unmarked vacant
    refine ⟨?_, fun single rest_single => ofText_quoted_logLevel unmarked single vacant rest_single⟩
    intro text config front back described lines_eq standing last
    have said := Line.ofChars_eq_ok_iff.mp (Line.ofChars_quotedLine word_logLevel unmarked vacant)
    have assigns : LastAssigns (lines text.toList) .general "log_level" value :=
      ⟨front, _, back, lines_eq, ⟨standing, said⟩, last⟩
    obtain ⟨reader, read, -, rfl⟩ := ofText_eq_ok_iff.mp described
    exact ((Reader.follows_of_readLines read).logLevel.last value assigns).symm
  · intro key value unquotable text other front back lines_eq other_eq
    have unmarked : '"' ∉ value.toList := fun mem => (unquotable.plain '"' mem).2 rfl
    have quoted := Line.ofChars_quotedLine key.word_name unmarked (.blank (List.forall_mem_nil _))
    rw [List.append_nil] at quoted
    have bare := Line.ofChars_bareLine key.word_name unquotable
    exact ofText_eq_of_ofChars_eq (quoted.trans bare.symm) lines_eq other_eq

/-- Every special character in a log level, quotation marks in the comment behind it, and a numeral
with and without quotation marks. -/
theorem quotation_intact_of_special_characters :
    let value := " #[a]=b\r "
    let rest := " \t# \"x\" =".toList
    let opening := "[market.SOL]\nimf_factor = "
    let general := "\n[general]\nlog_level = \" #[a]=b\r \" \t# \"x\" ="
    let text := opening ++ "\"1_000\"" ++ general
    let other := opening ++ "1_000" ++ general
    '"' ∉ value.toList ∧ Vacant rest ∧ Unquotable "1_000" ∧
      (∃ config, ofText text = .ok config ∧ config.logLevel = value) ∧
      ofText text = ofText other := by
  intro value rest opening general text other
  have unmarked : '"' ∉ value.toList := by decide
  have vacant : Vacant ([' ', '\t'] ++ '#' :: " \"x\" =".toList) :=
    .comment _ (by simp [isBlank])
  have unquotable : Unquotable "1_000" :=
    ⟨by simp [Plain], by simp [isBlank], by simp [isBlank]⟩
  have opens : Opens "[general]".toList .general :=
    ⟨"general", Line.ofChars_eq_ok_iff.mp (by decide), Section.ofTitle_eq_ok_iff.mp (by decide)⟩
  have described : ofText text = .ok
      { logLevel := value
        markets := Markets.empty.insert "SOL" { name := "SOL", imfFactor := 1000 } } := by
    decide +kernel
  refine ⟨unmarked, vacant, unquotable, ⟨_, described, ?_⟩, ?_⟩
  · exact (quotation_intact.1 value rest unmarked vacant).1 text _
      ["[market.SOL]".toList, quotedLine "imf_factor" "1_000", "[general]".toList] [] described
      (by decide) (Standing.opens [_, _] opens) (by simp)
  · exact quotation_intact.2 (.field .imfFactor) "1_000" unquotable text other
      ["[market.SOL]".toList]
      ["[general]".toList, quotedLine "log_level" value ++ rest] (by decide) (by decide)

end Config
end SpotMargin
