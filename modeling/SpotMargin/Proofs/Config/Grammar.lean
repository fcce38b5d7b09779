import Mathlib.Algebra.Ring.Parity
import Mathlib.Data.List.TakeWhile
import SpotMargin.Config.Line

/-!
# The grammar of a line

What a line of a configuration text says, without the reader: where its comment begins, which
blanks do not count, and how headers, assignments and titles of sections are written.  The reader
accepts the lines of this grammar and no others, and gives them the same meaning
(`Line.ofChars_eq_ok_iff`, `Section.ofTitle_eq_ok_iff`).
-/

namespace SpotMargin
namespace Config

/-- Every number sign stands inside quotation marks. -/
def CommentFree (code : List Char) : Prop :=
  ∀ front back, code = front ++ '#' :: back → Odd (front.count '"')

/-- The characters without their comment, which begins at the first number sign outside quotation
marks. -/
inductive Uncommented : List Char → List Char → Prop
  | whole {code : List Char} : CommentFree code → Uncommented code code
  /-- A comment begins after an even number of quotation marks. -/
  | cut {code comment : List Char} : CommentFree code → Even (code.count '"') →
      Uncommented (code ++ '#' :: comment) code

/-- The number of quotation marks up to a place, one more when the characters start inside some. -/
private def marks (quoted : Bool) (front : List Char) : Nat :=
  front.count '"' + quoted.toNat

private theorem marks_cons (quoted : Bool) (c : Char) (front : List Char) :
    marks quoted (c :: front) % 2 = marks (if c = '"' then !quoted else quoted) front % 2 := by
  simp only [marks, List.count_cons, beq_iff_eq]
  split
  · cases quoted with
    | false => rfl
    | true => simp [Nat.add_assoc]
  · rfl

/-- Cutting the comment off leaves what has no comment. -/
private theorem exists_comment (quoted : Bool) (chars : List Char) :
    ∃ comment, chars = beforeComment quoted chars ++ comment ∧
      (∀ front back, beforeComment quoted chars = front ++ '#' :: back →
        Odd (marks quoted front)) ∧
      (comment = [] ∨
        comment.head? = some '#' ∧ Even (marks quoted (beforeComment quoted chars))) := by
  induction chars generalizing quoted with
  | nil => exact ⟨[], rfl, fun front back same => by simp [beforeComment] at same, .inl rfl⟩
  | cons c rest ih =>
      rw [beforeComment]
      split
      · rename_i sign
        obtain ⟨rfl, rfl⟩ := sign
        exact ⟨'#' :: rest, rfl, fun front back same => by simp at same, .inr ⟨rfl, by decide⟩⟩
      · rename_i inside
        obtain ⟨comment, rest_eq, free, ends⟩ := ih (if c = '"' then !quoted else quoted)
        refine ⟨comment, by rw [List.cons_append, ← rest_eq], ?_, ?_⟩
        · intro front back same
          cases front with
          | nil =>
              have sign := (List.cons.inj same).1
              cases quoted with
              | false => exact absurd ⟨sign, rfl⟩ inside
              | true => decide
          | cons first front =>
              obtain ⟨rfl, rest_same⟩ := List.cons.inj same
              have odd := free front back rest_same
              rwa [Nat.odd_iff, marks_cons, ← Nat.odd_iff]
        · refine ends.imp_right fun ⟨sign, even⟩ => ⟨sign, ?_⟩
          rwa [Nat.even_iff, marks_cons, ← Nat.even_iff]

/-- What has no comment stays when the comment is cut off. -/
private theorem beforeComment_append (quoted : Bool) {code comment : List Char}
    (free : ∀ front back, code = front ++ '#' :: back → Odd (marks quoted front))
    (ends : comment = [] ∨ comment.head? = some '#' ∧ Even (marks quoted code)) :
    beforeComment quoted (code ++ comment) = code := by
  induction code generalizing quoted with
  | nil =>
      rcases ends with rfl | ⟨sign, even⟩
      · rfl
      · obtain ⟨rest, rfl⟩ := List.head?_eq_some_iff.mp sign
        cases quoted with
        | false => rfl
        | true => exact absurd even (by decide)
  | cons c rest ih =>
      have inside : ¬(c = '#' ∧ quoted = false) := by
        rintro ⟨rfl, rfl⟩
        exact absurd (free [] rest rfl) (by decide)
      rw [List.cons_append, beforeComment, if_neg inside, List.cons.injEq]
      refine ⟨rfl, ih _ ?_ ?_⟩
      · intro front back same
        have odd := free (c :: front) back (by rw [same, List.cons_append])
        rwa [Nat.odd_iff, marks_cons, ← Nat.odd_iff] at odd
      · refine ends.imp_right fun ⟨sign, even⟩ => ⟨sign, ?_⟩
        rwa [Nat.even_iff, marks_cons, ← Nat.even_iff] at even

theorem uncommented_iff {chars code : List Char} :
    Uncommented chars code ↔ beforeComment false chars = code := by
  constructor
  · rintro (free | ⟨free, even⟩)
    · have uncut := beforeComment_append false free (.inl rfl)
      rwa [List.append_nil] at uncut
    · exact beforeComment_append false free (.inr ⟨rfl, even⟩)
  · rintro rfl
    obtain ⟨comment, chars_eq, free, rfl | ⟨sign, even⟩⟩ := exists_comment false chars
    · rw [List.append_nil] at chars_eq
      rw [← chars_eq]
      exact .whole (chars_eq ▸ free)
    · obtain ⟨rest, rfl⟩ := List.head?_eq_some_iff.mp sign
      nth_rewrite 1 [chars_eq]
      exact .cut free even

/-- The characters without the blanks at both ends. -/
structure Trims (chars core : List Char) : Prop where
  around : ∃ left right, chars = left ++ core ++ right ∧
    (∀ c ∈ left, isBlank c = true) ∧ ∀ c ∈ right, isBlank c = true
  first : ∀ c, core.head? = some c → isBlank c = false
  last : ∀ c, core.getLast? = some c → isBlank c = false

/-- Dropping blanks drops those in front and no more. -/
private theorem dropWhile_blank_append {blanks chars : List Char}
    (blank : ∀ c ∈ blanks, isBlank c = true)
    (first : ∀ c, chars.head? = some c → isBlank c = false) :
    (blanks ++ chars).dropWhile isBlank = chars := by
  rw [List.dropWhile_append_of_pos blank]
  cases chars with
  | nil => rfl
  | cons c rest => rw [List.dropWhile_cons_of_neg (by simp [first c rfl])]

private theorem exists_dropWhile_blank (chars : List Char) :
    ∃ blanks, chars = blanks ++ chars.dropWhile isBlank ∧ (∀ c ∈ blanks, isBlank c = true) ∧
      ∀ c, (chars.dropWhile isBlank).head? = some c → isBlank c = false := by
  refine ⟨chars.takeWhile isBlank, List.takeWhile_append_dropWhile.symm,
    fun c mem => List.all_eq_true.mp List.all_takeWhile c mem, ?_⟩
  intro c first
  have := List.head?_dropWhile_not isBlank chars
  rwa [first] at this

private theorem trimEnd_append_blank {core blanks : List Char}
    (blank : ∀ c ∈ blanks, isBlank c = true)
    (last : ∀ c, core.getLast? = some c → isBlank c = false) :
    trimEnd (core ++ blanks) = core := by
  have dropped : (blanks.reverse ++ core.reverse).dropWhile isBlank = core.reverse :=
    dropWhile_blank_append (by simpa using blank) (by simpa using last)
  rw [trimEnd, List.reverse_append, dropped, List.reverse_reverse]

theorem exists_trimEnd (chars : List Char) :
    ∃ blanks, chars = trimEnd chars ++ blanks ∧ (∀ c ∈ blanks, isBlank c = true) ∧
      ∀ c, (trimEnd chars).getLast? = some c → isBlank c = false := by
  obtain ⟨blanks, chars_eq, blank, first⟩ := exists_dropWhile_blank chars.reverse
  refine ⟨blanks.reverse, ?_, by simpa using blank, by simpa [trimEnd] using first⟩
  rw [trimEnd, ← List.reverse_append, ← chars_eq, List.reverse_reverse]

theorem trims_iff {chars core : List Char} : Trims chars core ↔ trim chars = core := by
  constructor
  · rintro ⟨⟨left, right, rfl, left_blank, right_blank⟩, first, last⟩
    rw [trim, List.append_assoc, List.dropWhile_append_of_pos left_blank]
    cases core with
    | nil =>
        rw [List.nil_append, List.dropWhile_eq_nil_iff.mpr right_blank]
        rfl
    | cons c rest =>
        rw [List.cons_append, List.dropWhile_cons_of_neg (by simp [first c rfl]),
          ← List.cons_append, trimEnd_append_blank right_blank last]
  · rintro rfl
    obtain ⟨left, chars_eq, left_blank, first⟩ := exists_dropWhile_blank chars
    obtain ⟨right, rest_eq, right_blank, last⟩ := exists_trimEnd (chars.dropWhile isBlank)
    refine ⟨⟨left, right, ?_, left_blank, right_blank⟩, ?_, last⟩
    · rw [List.append_assoc, trim, ← rest_eq, ← chars_eq]
    · intro c head
      apply first
      rw [rest_eq, List.head?_append, ← trim, head]
      rfl

/-- What is left of a line when its comment, and then the blanks at both ends, are cut off. -/
def Code (line core : List Char) : Prop :=
  ∃ code, Uncommented line code ∧ Trims code core

theorem code_iff {line core : List Char} :
    Code line core ↔ trim (beforeComment false line) = core := by
  simp [Code, uncommented_iff, trims_iff]

/-- The meaning of a written value: what stands between the quotation marks at its ends, or the
value itself when it has none. -/
inductive Denotes : List Char → List Char → Prop
  | quoted (inner : List Char) : Denotes ('"' :: (inner ++ ['"'])) inner
  | bare {value : List Char} : (∀ inner, value ≠ '"' :: (inner ++ ['"'])) → Denotes value value

theorem denotes_iff {value meaning : List Char} :
    Denotes value meaning ↔ unquote value = meaning := by
  constructor
  · rintro (inner | bare)
    · simp [unquote]
    · unfold unquote
      split
      · rename_i rest
        rw [if_neg]
        intro last
        obtain ⟨inner, rfl⟩ := List.getLast?_eq_some_iff.mp last
        exact bare inner rfl
      · rfl
  · rintro rfl
    unfold unquote
    split
    · rename_i rest
      split
      · rename_i last
        obtain ⟨inner, rfl⟩ := List.getLast?_eq_some_iff.mp last
        rw [List.dropLast_concat]
        exact .quoted inner
      · rename_i last
        refine .bare fun inner same => last ?_
        rw [(List.cons.inj same).2, List.getLast?_concat]
    · rename_i unmarked
      exact .bare fun inner same => unmarked _ same

namespace Line

/-- What a line says. -/
inductive Says (line : List Char) : Line → Prop
  | blank : Code line [] → Says line .blank
  /-- The title of a header stands in brackets; what follows them does not count. -/
  | header {title rest : List Char} : Code line ('[' :: (title ++ ']' :: rest)) → ']' ∉ title →
      Says line (.header (.ofList title))
  /-- The key and the value of an assignment stand before and after its first equals sign. -/
  | assignment {left right key value meaning : List Char} : Code line (left ++ '=' :: right) →
      left.head? ≠ some '[' → '=' ∉ left → Trims left key → Trims right value →
      Denotes value meaning → Says line (.assignment (.ofList key) (.ofList meaning))

/-- Why a line says nothing that has a meaning. -/
inductive Fails (line : List Char) : LineError → Prop
  | unterminatedHeader {rest : List Char} : Code line ('[' :: rest) → ']' ∉ rest →
      Fails line .unterminatedHeader
  | notAssignment {core : List Char} : Code line core → core ≠ [] → core.head? ≠ some '[' →
      '=' ∉ core → Fails line .notAssignment

theorem ofTrimmed_header (rest : List Char) :
    ofTrimmed ('[' :: rest) =
      match splitAt? ']' rest with
      | some (title, _) => .ok (.header (.ofList title))
      | none => .error .unterminatedHeader :=
  rfl

theorem ofTrimmed_assignment {core : List Char} (nonempty : core ≠ [])
    (unbracketed : core.head? ≠ some '[') :
    ofTrimmed core =
      match splitAt? '=' core with
      | some (key, value) =>
          .ok (.assignment (.ofList (trim key)) (.ofList (unquote (trim value))))
      | none => .error .notAssignment := by
  unfold ofTrimmed
  split
  · contradiction
  · exact absurd rfl unbracketed
  · rfl

/-- A line says something, or there is a reason why it does not. -/
theorem says_or_fails (chars : List Char) :
    (∃ line, Says chars line) ∨ ∃ cause, Fails chars cause := by
  obtain ⟨core, code⟩ : ∃ core, Code chars core := ⟨_, code_iff.mpr rfl⟩
  by_cases nonempty : core = []
  · exact .inl ⟨_, .blank (nonempty ▸ code)⟩
  by_cases bracketed : core.head? = some '['
  · obtain ⟨rest, rfl⟩ := List.head?_eq_some_iff.mp bracketed
    cases found : splitAt? ']' rest with
    | none => exact .inr ⟨_, .unterminatedHeader code (splitAt?_eq_none_iff.mp found)⟩
    | some parts =>
        obtain ⟨rfl, absent⟩ := splitAt?_eq_some_iff.mp found
        exact .inl ⟨_, .header code absent⟩
  · cases found : splitAt? '=' core with
    | none =>
        exact .inr ⟨_, .notAssignment code nonempty bracketed (splitAt?_eq_none_iff.mp found)⟩
    | some parts =>
        obtain ⟨rfl, absent⟩ := splitAt?_eq_some_iff.mp found
        refine .inl ⟨_, .assignment code ?_ absent (trims_iff.mpr rfl) (trims_iff.mpr rfl)
          (denotes_iff.mpr rfl)⟩
        intro head
        exact bracketed (by rw [List.head?_append, head]; rfl)

theorem ofChars_eq_ok {chars : List Char} {line : Line} (said : Says chars line) :
    ofChars chars = .ok line := by
  cases said with
  | blank code =>
      rw [ofChars, code_iff.mp code]
      rfl
  | header code absent =>
      rw [ofChars, code_iff.mp code, ofTrimmed_header, splitAt?_eq_some_iff.mpr ⟨rfl, absent⟩]
  | assignment code unbracketed absent key_trims value_trims denotes =>
      rename_i left right key value meaning
      have head : (left ++ '=' :: right).head? ≠ some '[' := by
        cases left with
        | nil => simp
        | cons c rest => exact unbracketed
      rw [ofChars, code_iff.mp code, ofTrimmed_assignment (by simp) head,
        splitAt?_eq_some_iff.mpr ⟨rfl, absent⟩]
      simp only [trims_iff.mp key_trims, trims_iff.mp value_trims, denotes_iff.mp denotes]

theorem ofChars_eq_error {chars : List Char} {cause : LineError} (failed : Fails chars cause) :
    ofChars chars = .error cause := by
  cases failed with
  | unterminatedHeader code absent =>
      rw [ofChars, code_iff.mp code, ofTrimmed_header, splitAt?_eq_none_iff.mpr absent]
  | notAssignment code nonempty unbracketed absent =>
      rw [ofChars, code_iff.mp code, ofTrimmed_assignment nonempty unbracketed,
        splitAt?_eq_none_iff.mpr absent]

/-- The reader gives a line the meaning that the grammar gives it. -/
theorem ofChars_eq_ok_iff {chars : List Char} {line : Line} :
    ofChars chars = .ok line ↔ Says chars line := by
  refine ⟨fun read => ?_, ofChars_eq_ok⟩
  rcases says_or_fails chars with ⟨other, said⟩ | ⟨cause, failed⟩
  · cases read.symm.trans (ofChars_eq_ok said)
    exact said
  · cases read.symm.trans (ofChars_eq_error failed)

theorem ofChars_eq_error_iff {chars : List Char} {cause : LineError} :
    ofChars chars = .error cause ↔ Fails chars cause := by
  refine ⟨fun read => ?_, ofChars_eq_error⟩
  rcases says_or_fails chars with ⟨line, said⟩ | ⟨other, failed⟩
  · cases read.symm.trans (ofChars_eq_ok said)
  · cases read.symm.trans (ofChars_eq_error failed)
    exact failed

/-- A line says one thing. -/
theorem Says.unique {chars : List Char} {line other : Line} (said : Says chars line)
    (other_said : Says chars other) : line = other :=
  Except.ok.inj ((ofChars_eq_ok said).symm.trans (ofChars_eq_ok other_said))

end Line

namespace Section

/-- The title of a section. -/
inductive Titled : List Char → Section → Prop
  /-- What follows a point does not count for the general settings. -/
  | general {rest : List Char} : rest = [] ∨ rest.head? = some '.' →
      Titled ("general".toList ++ rest) .general
  /-- The name of a market follows the first point, and may have points of its own. -/
  | market {name : List Char} : name ≠ [] →
      Titled ("market".toList ++ '.' :: name) (.market (.ofList name))

/-- Why a title opens no section. -/
inductive Untitled (title : String) : LineError → Prop
  | nameless : title = "market" ∨ title = "market." → Untitled title .namelessMarket
  /-- What stands before the first point is neither of the two words. -/
  | unknown {kind rest : List Char} : title.toList = kind ++ rest → '.' ∉ kind →
      rest = [] ∨ rest.head? = some '.' → kind ≠ "general".toList → kind ≠ "market".toList →
      Untitled title (.unknownSection title)

/-- A title is divided by its first point, if it has one. -/
private theorem exists_parts (title : List Char) :
    ∃ kind rest, title = kind ++ rest ∧ '.' ∉ kind ∧ (rest = [] ∨ rest.head? = some '.') := by
  cases found : splitAt? '.' title with
  | none => exact ⟨title, [], by simp, splitAt?_eq_none_iff.mp found, .inl rfl⟩
  | some parts =>
      obtain ⟨rfl, absent⟩ := splitAt?_eq_some_iff.mp found
      exact ⟨_, _, rfl, absent, .inr rfl⟩

private theorem ofTitle_eq {title : String} {kind rest : List Char}
    (title_eq : title.toList = kind ++ rest) (absent : '.' ∉ kind)
    (ends : rest = [] ∨ rest.head? = some '.') :
    ofTitle title =
      if kind = "market".toList then
        if rest.tail.isEmpty then .error .namelessMarket else .ok (.market (.ofList rest.tail))
      else if kind = "general".toList then
        .ok .general
      else
        .error (.unknownSection title) := by
  have parts : (splitAt? '.' title.toList).getD (title.toList, []) = (kind, rest.tail) := by
    rcases ends with rfl | point
    · rw [title_eq, List.append_nil, splitAt?_eq_none_iff.mpr absent]
      rfl
    · obtain ⟨name, rfl⟩ := List.head?_eq_some_iff.mp point
      rw [title_eq, splitAt?_eq_some_iff.mpr ⟨rfl, absent⟩]
      rfl
  rw [ofTitle, parts]

theorem titled_or_untitled (title : String) :
    (∃ opened, Titled title.toList opened) ∨ ∃ cause, Untitled title cause := by
  obtain ⟨kind, rest, title_eq, absent, ends⟩ := exists_parts title.toList
  by_cases general : kind = "general".toList
  · subst general
    exact .inl ⟨.general, title_eq ▸ Titled.general ends⟩
  by_cases market : kind = "market".toList
  · subst market
    rcases ends with rfl | point
    · exact .inr ⟨_, .nameless (.inl (String.toList_inj.mp title_eq))⟩
    · obtain ⟨name, rfl⟩ := List.head?_eq_some_iff.mp point
      by_cases nameless : name = []
      · subst nameless
        exact .inr ⟨_, .nameless (.inr (String.toList_inj.mp title_eq))⟩
      · exact .inl ⟨.market (.ofList name), title_eq ▸ Titled.market nameless⟩
  · exact .inr ⟨_, .unknown title_eq absent ends general market⟩

theorem ofTitle_of_titled {title : String} {opened : Section}
    (titled : Titled title.toList opened) : ofTitle title = .ok opened := by
  generalize title_eq : title.toList = chars at titled
  cases titled with
  | general ends =>
      rw [ofTitle_eq title_eq (by decide) ends]
      rfl
  | market named =>
      rw [ofTitle_eq title_eq (by decide) (.inr rfl)]
      simp [named]

theorem ofTitle_of_untitled {title : String} {cause : LineError}
    (untitled : Untitled title cause) : ofTitle title = .error cause := by
  cases untitled with
  | nameless same => rcases same with rfl | rfl <;> rfl
  | unknown title_eq absent ends not_general not_market =>
      rw [ofTitle_eq title_eq absent ends, if_neg not_market, if_neg not_general]

theorem ofTitle_eq_ok_iff {title : String} {opened : Section} :
    ofTitle title = .ok opened ↔ Titled title.toList opened := by
  refine ⟨fun read => ?_, ofTitle_of_titled⟩
  rcases titled_or_untitled title with ⟨other, titled⟩ | ⟨cause, untitled⟩
  · cases read.symm.trans (ofTitle_of_titled titled)
    exact titled
  · cases read.symm.trans (ofTitle_of_untitled untitled)

theorem ofTitle_eq_error_iff {title : String} {cause : LineError} :
    ofTitle title = .error cause ↔ Untitled title cause := by
  refine ⟨fun read => ?_, ofTitle_of_untitled⟩
  rcases titled_or_untitled title with ⟨opened, titled⟩ | ⟨other, untitled⟩
  · cases read.symm.trans (ofTitle_of_titled titled)
  · cases read.symm.trans (ofTitle_of_untitled untitled)
    exact untitled

end Section
end Config
end SpotMargin
