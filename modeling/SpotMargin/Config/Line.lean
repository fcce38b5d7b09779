import SpotMargin.Error

/-!
# Lines of a configuration text

A line is blank, the header of a section, or an assignment of a value to a key.  Before it is told
which, a comment is cut off its end and blanks off both ends.  A comment starts at the first number
sign that has an even number of quotation marks before it.
-/

namespace SpotMargin
namespace Config

/-- The lines of a text, without the line feeds between them. -/
def lines (text : List Char) : List (List Char) :=
  text.foldr
    (fun c lines =>
      if c = '\n' then
        [] :: lines
      else
        match lines with
        | [] => [[c]]
        | line :: rest => (c :: line) :: rest)
    [[]]

/-- The character is a space, a tab, a carriage return or a line feed. -/
def isBlank (c : Char) : Bool :=
  c = ' ' || c = '\t' || c = '\r' || c = '\n'

/-- The characters without the blanks at the end. -/
def trimEnd (chars : List Char) : List Char :=
  (chars.reverse.dropWhile isBlank).reverse

def trim (chars : List Char) : List Char :=
  trimEnd (chars.dropWhile isBlank)

/-- The characters before a comment, where `quoted` tells whether the first of them stands inside
quotation marks. -/
def beforeComment (quoted : Bool) : List Char → List Char
  | [] => []
  | c :: rest =>
      if c = '#' ∧ quoted = false then
        []
      else
        c :: beforeComment (if c = '"' then !quoted else quoted) rest

/-- The characters without the quotation marks that enclose them. -/
def unquote (chars : List Char) : List Char :=
  match chars with
  | '"' :: rest => if rest.getLast? = some '"' then rest.dropLast else chars
  | _ => chars

/-- The characters before the first `mark`, and those after it. -/
def splitAt? (mark : Char) : List Char → Option (List Char × List Char)
  | [] => none
  | c :: rest =>
      if c = mark then
        some ([], rest)
      else
        (splitAt? mark rest).map fun (before, after) => (c :: before, after)

/-- What a line says. -/
inductive Line
  | blank
  | header (title : String)
  /-- A key and the value that it is given, without enclosing quotation marks. -/
  | assignment (key value : String)
  deriving DecidableEq

namespace Line

/-- What a line says that has no comment and no blanks at its ends.  What follows the end of a
header is passed over. -/
def ofTrimmed : List Char → Except LineError Line
  | [] => .ok .blank
  | '[' :: rest =>
      match splitAt? ']' rest with
      | some (title, _) => .ok (.header (.ofList title))
      | none => .error .unterminatedHeader
  | chars =>
      match splitAt? '=' chars with
      | some (key, value) =>
          .ok (.assignment (.ofList (trim key)) (.ofList (unquote (trim value))))
      | none => .error .notAssignment

def ofChars (chars : List Char) : Except LineError Line :=
  ofTrimmed (trim (beforeComment false chars))

end Line

/-- A section of a configuration text. -/
inductive Section
  | general
  | market (name : String)
  deriving DecidableEq

/-- The section with the given title.  A title has two parts, divided by its first point; the second
is the name of a market, and means nothing for the general settings. -/
def Section.ofTitle (title : String) : Except LineError Section :=
  let (kind, name) := (splitAt? '.' title.toList).getD (title.toList, [])
  if kind = "market".toList then
    if name.isEmpty then .error .namelessMarket else .ok (.market (.ofList name))
  else if kind = "general".toList then
    .ok .general
  else
    .error (.unknownSection title)

@[simp]
theorem lines_nil : lines [] = [[]] :=
  rfl

theorem lines_ne_nil (text : List Char) : lines text ≠ [] := by
  cases text with
  | nil => simp
  | cons c rest =>
      simp only [lines, List.foldr_cons]
      split
      · simp
      · split <;> simp

@[simp]
theorem lines_lineFeed (rest : List Char) : lines ('\n' :: rest) = [] :: lines rest := by
  simp [lines]

theorem lines_cons {c : Char} (h : c ≠ '\n') (rest : List Char) :
    lines (c :: rest) = (c :: (lines rest).head (lines_ne_nil rest)) :: (lines rest).tail := by
  have nonempty := lines_ne_nil rest
  conv => lhs; rw [lines, List.foldr_cons, ← lines]
  rw [if_neg h]
  split
  · contradiction
  · simp_all

theorem lines_of_not_mem {line : List Char} (single : '\n' ∉ line) : lines line = [line] := by
  induction line with
  | nil => rfl
  | cons c rest ih =>
      simp only [List.mem_cons, not_or] at single
      simp [lines_cons (Ne.symm single.1), ih single.2]

/-- A line feed ends a line. -/
theorem lines_append {line : List Char} (single : '\n' ∉ line) (rest : List Char) :
    lines (line ++ '\n' :: rest) = line :: lines rest := by
  induction line with
  | nil => simp
  | cons c more ih =>
      simp only [List.mem_cons, not_or] at single
      rw [List.cons_append, lines_cons (Ne.symm single.1)]
      simp [ih single.2]

theorem splitAt?_eq_none_iff {mark : Char} {chars : List Char} :
    splitAt? mark chars = none ↔ mark ∉ chars := by
  induction chars with
  | nil => simp [splitAt?]
  | cons c rest ih =>
      by_cases here : c = mark
      · simp [splitAt?, here]
      · simp [splitAt?, here, ih, Ne.symm here]

/-- Splitting loses the mark and nothing else, and it is the first mark. -/
theorem splitAt?_eq_some_iff {mark : Char} {chars before after : List Char} :
    splitAt? mark chars = some (before, after) ↔
      chars = before ++ mark :: after ∧ mark ∉ before := by
  induction chars generalizing before with
  | nil => simp [splitAt?]
  | cons c rest ih =>
      by_cases here : c = mark
      · subst here
        cases before with
        | nil => simp [splitAt?]
        | cons b more =>
            simp only [splitAt?, if_true, Option.some.injEq, Prod.mk.injEq, reduceCtorEq,
              false_and, false_iff]
            rintro ⟨same, absent⟩
            exact absent ((List.cons.inj same).1 ▸ List.mem_cons_self)
      · cases before with
        | nil => simp [splitAt?, here]
        | cons b more =>
            simp only [splitAt?, here, if_false, Option.map_eq_some_iff, Prod.exists,
              Prod.mk.injEq, List.cons.injEq, List.cons_append, List.mem_cons, not_or]
            constructor
            · rintro ⟨front, back, found, ⟨rfl, rfl⟩, rfl⟩
              have split := ih.mp found
              exact ⟨⟨rfl, split.1⟩, Ne.symm here, split.2⟩
            · rintro ⟨⟨rfl, same⟩, -, absent⟩
              exact ⟨more, after, ih.mpr ⟨same, absent⟩, ⟨rfl, rfl⟩, rfl⟩

end Config
end SpotMargin
