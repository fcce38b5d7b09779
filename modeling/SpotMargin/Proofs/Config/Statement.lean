import SpotMargin.Proofs.Config.Grammar
import SpotMargin.Proofs.Config.Key

/-!
# Statements

What a line states in the section that it stands in, and the ways in which it can fail to.  Every
line does one or the other, and the reader follows: it carries the statement out, or fails with the
fault (`readLine_eq_ok_iff`, `readLine_eq_error_iff`).
-/

namespace SpotMargin

theorem MarginCategory.ofName_of_unknown {name : String}
    (unknown : ∀ category : MarginCategory, name ≠ category.name) :
    ofName name = .error (.unknownCategory name) := by
  simp only [ofName, unknown, if_false]

namespace Config

/-- What a line states. -/
inductive Statement
  | nothing
  | opens (opened : Section)
  | logLevel (name : String)
  | category (category : MarginCategory)
  | parameter (market : String) (key : Market.Key) (value : Fixed)

/-- A line of the section `current` makes the statement. -/
inductive Means (current : Option Section) (line : List Char) : Statement → Prop
  | nothing : Line.Says line .blank → Means current line .nothing
  | opens {title : String} {opened : Section} : Line.Says line (.header title) →
      Section.Titled title.toList opened → Means current line (.opens opened)
  | logLevel {name : String} : current = some .general →
      Line.Says line (.assignment "log_level" name) → Means current line (.logLevel name)
  | category {category : MarginCategory} : current = some .general →
      Line.Says line (.assignment "margin_category" category.name) →
      Means current line (.category category)
  | parameter {market value : String} {key : Market.Key} {n : Fixed} :
      current = some (.market market) → Line.Says line (.assignment key.name value) →
      Numeral.read value = .ok n → key.Takes n.toInt →
      Means current line (.parameter market key n)

/-- The line with the given number, in the section `current`, makes no statement, and this is its
fault. -/
inductive Rejects (current : Option Section) (number : Nat) (line : List Char) : Error → Prop
  | form {cause : LineError} : Line.Fails line cause →
      Rejects current number line (.line number cause)
  | title {title : String} {cause : LineError} : Line.Says line (.header title) →
      Section.Untitled title cause → Rejects current number line (.line number cause)
  /-- The assignment stands before the first header. -/
  | stray {key value : String} : current = none → Line.Says line (.assignment key value) →
      Rejects current number line (.line number (.strayKey key))
  | generalKey {key value : String} : current = some .general →
      Line.Says line (.assignment key value) → key ≠ "log_level" → key ≠ "margin_category" →
      Rejects current number line (.line number (.unknownGeneralKey key))
  /-- There is no such margin category; this fault does not name the line. -/
  | category {value : String} : current = some .general →
      Line.Says line (.assignment "margin_category" value) →
      (∀ category : MarginCategory, value ≠ category.name) →
      Rejects current number line (.unknownCategory value)
  | marketKey {market key value : String} : current = some (.market market) →
      Line.Says line (.assignment key value) → (∀ known : Market.Key, key ≠ known.name) →
      Rejects current number line (.line number (.unknownMarketKey key))
  | numeral {market value : String} {key : Market.Key} {cause : NumeralError} :
      current = some (.market market) → Line.Says line (.assignment key.name value) →
      Numeral.read value = .error cause →
      Rejects current number line (.line number (.numeral cause))
  | range {market value : String} {key : Market.Key} {n : Fixed} :
      current = some (.market market) → Line.Says line (.assignment key.name value) →
      Numeral.read value = .ok n → ¬key.Takes n.toInt →
      Rejects current number line (.line number (.outOfRange value))

variable {current : Option Section} {number : Nat} {line : List Char} {statement : Statement}
  {error : Error} {reader next : Reader}

/-- An assignment states something where it stands, or has a fault there. -/
private theorem assignment_means_or_rejects {key value : String} (current : Option Section)
    (number : Nat) (said : Line.Says line (.assignment key value)) :
    (∃ statement, Means current line statement) ∨ ∃ error, Rejects current number line error := by
  rcases current with _ | _ | market
  · exact .inr ⟨_, .stray rfl said⟩
  · by_cases level : key = "log_level"
    · subst level
      exact .inl ⟨_, .logLevel rfl said⟩
    by_cases category : key = "margin_category"
    · subst category
      by_cases known : ∃ category : MarginCategory, value = category.name
      · obtain ⟨category, rfl⟩ := known
        exact .inl ⟨_, .category rfl said⟩
      · exact .inr ⟨_, .category rfl said (not_exists.mp known)⟩
    · exact .inr ⟨_, .generalKey rfl said level category⟩
  · by_cases known : ∃ known : Market.Key, key = known.name
    · obtain ⟨known, rfl⟩ := known
      cases read : Numeral.read value with
      | error cause => exact .inr ⟨_, .numeral rfl said read⟩
      | ok n =>
          by_cases takes : known.Takes n.toInt
          · exact .inl ⟨_, .parameter rfl said read takes⟩
          · exact .inr ⟨_, .range rfl said read takes⟩
    · exact .inr ⟨_, .marketKey rfl said (not_exists.mp known)⟩

/-- Every line makes a statement or has a fault. -/
theorem means_or_rejects (current : Option Section) (number : Nat) (line : List Char) :
    (∃ statement, Means current line statement) ∨ ∃ error, Rejects current number line error := by
  rcases Line.says_or_fails line with ⟨meaning, said⟩ | ⟨cause, failed⟩
  · cases meaning with
    | blank => exact .inl ⟨_, .nothing said⟩
    | header title =>
        rcases Section.titled_or_untitled title with ⟨opened, titled⟩ | ⟨cause, untitled⟩
        · exact .inl ⟨_, .opens said titled⟩
        · exact .inr ⟨_, .title said untitled⟩
    | assignment key value => exact assignment_means_or_rejects current number said
  · exact .inr ⟨_, .form failed⟩

namespace Reader

/-- Carries a statement out. -/
def perform (reader : Reader) : Statement → Reader
  | .nothing => reader
  | .opens opened => reader.openSection opened
  | .logLevel name => { reader with config.logLevel := name }
  | .category category => { reader with config.category := category }
  | .parameter name key value =>
      { reader with config.markets :=
          reader.config.markets.update name fun market => market.setAt key value }

theorem readLine_of_means (means : Means reader.current line statement) (number : Nat) :
    reader.readLine number line = .ok (reader.perform statement) := by
  cases means with
  | nothing said => simp only [readLine, Line.ofChars_eq_ok said, perform]
  | opens said titled =>
      simp only [readLine, Line.ofChars_eq_ok said, Section.ofTitle_of_titled titled, perform]
  | logLevel stands said =>
      simp only [readLine, Line.ofChars_eq_ok said, assign, stands, if_true, perform]
  | category stands said =>
      simp only [readLine, Line.ofChars_eq_ok said, assign, stands, perform,
        MarginCategory.ofName_eq_ok_iff.mpr rfl]
      rfl
  | parameter stands said read takes =>
      simp only [readLine, Line.ofChars_eq_ok said, assign, stands, Market.assign_name, read,
        if_pos takes, perform, Markets.update]

theorem readLine_of_rejects (rejects : Rejects reader.current number line error) :
    reader.readLine number line = .error error := by
  cases rejects with
  | form failed => simp only [readLine, Line.ofChars_eq_error failed]
  | title said untitled =>
      simp only [readLine, Line.ofChars_eq_ok said, Section.ofTitle_of_untitled untitled]
  | stray stands said => simp only [readLine, Line.ofChars_eq_ok said, assign, stands]
  | generalKey stands said not_level not_category =>
      simp only [readLine, Line.ofChars_eq_ok said, assign, stands, not_level, not_category,
        if_false]
  | category stands said unknown =>
      simp only [readLine, Line.ofChars_eq_ok said, assign, stands,
        MarginCategory.ofName_of_unknown unknown]
      rfl
  | marketKey stands said unknown =>
      simp only [readLine, Line.ofChars_eq_ok said, assign, stands,
        Market.assign_of_unknown unknown]
  | numeral stands said read =>
      simp only [readLine, Line.ofChars_eq_ok said, assign, stands, Market.assign_name, read]
  | range stands said read out =>
      simp only [readLine, Line.ofChars_eq_ok said, assign, stands, Market.assign_name, read,
        if_neg out]

/-- The reader carries out what a line states. -/
theorem readLine_eq_ok_iff :
    reader.readLine number line = .ok next ↔
      ∃ statement, Means reader.current line statement ∧ next = reader.perform statement := by
  constructor
  · intro read
    rcases means_or_rejects reader.current number line with ⟨statement, means⟩ | ⟨error, rejects⟩
    · exact ⟨statement, means, Except.ok.inj (read.symm.trans (readLine_of_means means number))⟩
    · cases read.symm.trans (readLine_of_rejects rejects)
  · rintro ⟨statement, means, rfl⟩
    exact readLine_of_means means number

/-- The reader fails with the fault of a line. -/
theorem readLine_eq_error_iff :
    reader.readLine number line = .error error ↔ Rejects reader.current number line error := by
  refine ⟨fun failed => ?_, readLine_of_rejects⟩
  rcases means_or_rejects reader.current number line with ⟨statement, means⟩ | ⟨other, rejects⟩
  · cases failed.symm.trans (readLine_of_means means number)
  · cases failed.symm.trans (readLine_of_rejects rejects)
    exact rejects

end Reader

/-- Whatever the fault of a line is, it is the configuration that fails. -/
theorem Rejects.kind_eq (rejects : Rejects current number line error) :
    error.kind = .configuration := by
  cases rejects <;> rfl

end Config
end SpotMargin
