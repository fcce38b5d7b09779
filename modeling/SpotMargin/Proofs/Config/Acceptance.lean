import SpotMargin.Proofs.Config.Meaning

/-!
# The texts that are accepted

A text is accepted when every line has a meaning where it stands, and every market that the lines
describe is valid.  Of any other text the first line without a meaning decides the failure; only
when there is none, the fault of a market does.
-/

namespace SpotMargin
namespace Config

variable {lines front : List (List Char)} {line : List Char} {name : String} {error : Error}
  {reader : Reader} {text : String}

/-- The line has a meaning after the lines `front`. -/
def Accepted (front : List (List Char)) (line : List Char) : Prop :=
  ∃ current, Standing front current ∧ ∃ statement, Means current line statement

/-- Every line has a meaning where it stands. -/
def WellFormed (lines : List (List Char)) : Prop :=
  ∀ front line back, lines = front ++ line :: back → Accepted front line

/-- Every market that the lines open is valid as they describe it. -/
def DescribesValid (lines : List (List Char)) : Prop :=
  ∀ name market, (∃ line ∈ lines, Opens line (.market name)) → Describes lines name market →
    market.Valid

theorem wellFormed_nil : WellFormed [] := by
  intro front line back same
  simp at same

theorem wellFormed_concat_iff :
    WellFormed (lines ++ [line]) ↔ WellFormed lines ∧ Accepted lines line := by
  constructor
  · intro wellFormed
    refine ⟨?_, wellFormed lines line [] rfl⟩
    intro front item back lines_eq
    exact wellFormed front item (back ++ [line]) (by simp [lines_eq])
  · rintro ⟨wellFormed, accepted⟩ front item back lines_eq
    rcases concat_eq_append_cons_iff.mp lines_eq with ⟨rfl, rfl, rfl⟩ | ⟨rest, rfl, rfl⟩
    · exact accepted
    · exact wellFormed front item rest rfl

/-- Where a line has no meaning, there is a first line that has none. -/
theorem exists_first_malformed (malformed : ¬WellFormed lines) :
    ∃ front line back, lines = front ++ line :: back ∧ WellFormed front ∧ ¬Accepted front line := by
  induction lines using List.reverseRecOn with
  | nil => exact absurd wellFormed_nil malformed
  | append_singleton lines last ih =>
      by_cases wellFormed : WellFormed lines
      · refine ⟨lines, last, [], rfl, wellFormed, fun accepted => malformed ?_⟩
        exact wellFormed_concat_iff.mpr ⟨wellFormed, accepted⟩
      · obtain ⟨front, line, back, rfl, front_wellFormed, rejected⟩ := ih wellFormed
        exact ⟨front, line, back ++ [last], by simp, front_wellFormed, rejected⟩

namespace Reader

/-- The reader stands in the section that its lines stand in. -/
theorem Follows.accepted_iff (follows : Follows lines reader) :
    Accepted lines line ↔ ∃ statement, Means reader.current line statement := by
  constructor
  · rintro ⟨current, standing, means⟩
    rwa [standing.unique follows.standing] at means
  · intro means
    exact ⟨reader.current, follows.standing, means⟩

/-- The reader comes to the end of well-formed lines and of no others. -/
theorem exists_readLines_eq_ok_iff :
    (∃ reader, readLines {} 1 lines = .ok reader) ↔ WellFormed lines := by
  induction lines using List.reverseRecOn with
  | nil => exact iff_of_true ⟨{}, rfl⟩ wellFormed_nil
  | append_singleton lines line ih =>
      rw [wellFormed_concat_iff, ← ih]
      simp only [readLines_concat, bind_eq_ok_iff]
      constructor
      · rintro ⟨next, reader, read, line_read⟩
        obtain ⟨statement, means, -⟩ := readLine_eq_ok_iff.mp line_read
        exact ⟨⟨reader, read⟩, (follows_of_readLines read).accepted_iff.mpr ⟨statement, means⟩⟩
      · rintro ⟨⟨reader, read⟩, accepted⟩
        obtain ⟨statement, means⟩ := (follows_of_readLines read).accepted_iff.mp accepted
        exact ⟨reader.perform statement, reader, read, readLine_of_means means _⟩

/-- The reader fails with the fault of the first line without a meaning, and does not come to the
lines that follow it. -/
theorem readLines_of_malformed (wellFormed : WellFormed front) (malformed : ¬Accepted front line) :
    ∃ current error, Standing front current ∧ Rejects current (front.length + 1) line error ∧
      ∀ rest, readLines {} 1 (front ++ line :: rest) = .error error := by
  obtain ⟨reader, read⟩ := exists_readLines_eq_ok_iff.mpr wellFormed
  have follows := follows_of_readLines read
  rcases means_or_rejects reader.current (front.length + 1) line with means | ⟨error, rejects⟩
  · exact absurd (follows.accepted_iff.mpr means) malformed
  · refine ⟨reader.current, error, follows.standing, rejects, fun rest => ?_⟩
    rw [readLines_append, read, ok_bind, readLines, Nat.add_comm 1, readLine_of_rejects rejects]
    rfl

end Reader

theorem Rejects.ne_market {current : Option Section} {number : Nat}
    (rejects : Rejects current number line error) (label : String) (cause : MarketError) :
    error ≠ .market label cause := by
  cases rejects <;> simp

/-- The first line without a meaning decides the failure. -/
theorem ofText_of_malformed (wellFormed : WellFormed front) (malformed : ¬Accepted front line) :
    ∃ current error, Standing front current ∧ Rejects current (front.length + 1) line error ∧
      ∀ text rest, Config.lines text.toList = front ++ line :: rest →
        ofText text = .error error := by
  obtain ⟨current, error, standing, rejects, failed⟩ :=
    Reader.readLines_of_malformed wellFormed malformed
  refine ⟨current, error, standing, rejects, fun text rest lines_eq => ?_⟩
  rw [ofText, lines_eq, failed rest]
  rfl

/-- A text of well-formed lines fails only with the fault of a market that they describe. -/
theorem check_of_ofText_eq_error (wellFormed : WellFormed (Config.lines text.toList))
    (failed : ofText text = .error error) :
    ∃ name market, (∃ line ∈ Config.lines text.toList, Opens line (.market name)) ∧
      Describes (Config.lines text.toList) name market ∧ market.check = .error error := by
  obtain ⟨reader, read⟩ := Reader.exists_readLines_eq_ok_iff.mpr wellFormed
  have meaning := (Reader.follows_of_readLines read).meaning
  rw [ofText, read, ok_bind] at failed
  cases checked : reader.config.markets.check with
  | ok passed =>
      rw [checked] at failed
      cases failed
  | error fault =>
      rw [checked] at failed
      cases failed
      obtain ⟨name, market, found, market_failed⟩ :=
        reader.config.markets.ensures_check.fault_of_eq_error checked
      have mem : name ∈ reader.config.markets.names := Markets.mem_names_iff.mpr ⟨market, found⟩
      exact ⟨name, market, (meaning.names name).mp mem, meaning.markets name market found,
        market_failed⟩

/-- A text is accepted when its lines are well-formed and describe valid markets. -/
theorem exists_ofText_eq_ok_iff :
    (∃ config, ofText text = .ok config) ↔
      WellFormed (Config.lines text.toList) ∧ DescribesValid (Config.lines text.toList) := by
  constructor
  · rintro ⟨config, described⟩
    obtain ⟨reader, read, checked, -⟩ := ofText_eq_ok_iff.mp described
    refine ⟨Reader.exists_readLines_eq_ok_iff.mp ⟨reader, read⟩, ?_⟩
    intro name market opened describes
    have meaning := (Reader.follows_of_readLines read).meaning
    obtain ⟨held, found⟩ := Markets.mem_names_iff.mp ((meaning.names name).mpr opened)
    rw [describes.unique (meaning.markets name held found)]
    exact reader.config.markets.ensures_check.result_of_eq_ok checked name held found
  · rintro ⟨wellFormed, valid⟩
    cases described : ofText text with
    | ok config => exact ⟨config, rfl⟩
    | error error =>
        obtain ⟨name, market, opened, describes, failed⟩ :=
          check_of_ofText_eq_error wellFormed described
        rw [Market.check_eq_ok_iff.mpr (valid name market opened describes)] at failed
        cases failed

/-- A text of other lines fails with the fault of a line. -/
theorem rejects_of_ofText_eq_error (malformed : ¬WellFormed (Config.lines text.toList))
    (failed : ofText text = .error error) :
    ∃ current number line, Rejects current number line error := by
  obtain ⟨front, line, back, lines_eq, wellFormed, rejected⟩ := exists_first_malformed malformed
  obtain ⟨current, fault, -, rejects, fails⟩ := ofText_of_malformed wellFormed rejected
  rw [fails text back lines_eq] at failed
  cases failed
  exact ⟨current, _, line, rejects⟩

theorem kind_of_ofText_eq_error (failed : ofText text = .error error) :
    error.kind = .configuration := by
  by_cases wellFormed : WellFormed (Config.lines text.toList)
  · obtain ⟨name, market, -, -, market_failed⟩ := check_of_ofText_eq_error wellFormed failed
    exact Market.kind_of_check_eq_error market_failed
  · obtain ⟨current, number, line, rejects⟩ := rejects_of_ofText_eq_error wellFormed failed
    exact rejects.kind_eq

theorem wellFormed_of_ofText_eq_market {label : String} {cause : MarketError}
    (failed : ofText text = .error (.market label cause)) :
    WellFormed (Config.lines text.toList) := by
  by_contra malformed
  obtain ⟨current, number, line, rejects⟩ := rejects_of_ofText_eq_error malformed failed
  exact rejects.ne_market label cause rfl

/-- Reading a text gives a configuration exactly when every line has a meaning where it stands and
every market that the lines describe is valid, and otherwise it is the configuration that fails.
The first line without a meaning decides the failure, whatever follows it; a market does so only
when there is no such line, and then it is one that the lines describe. -/
theorem ofText_acceptance (text : String) :
    ((∃ config, ofText text = .ok config) ↔
      WellFormed (Config.lines text.toList) ∧ DescribesValid (Config.lines text.toList)) ∧
    (∀ error, ofText text = .error error → error.kind = .configuration) ∧
    (∀ front line back, Config.lines text.toList = front ++ line :: back → WellFormed front →
      ¬Accepted front line →
      ∃ current error, Standing front current ∧ Rejects current (front.length + 1) line error ∧
        ∀ other rest, Config.lines other.toList = front ++ line :: rest →
          ofText other = .error error) ∧
    (∀ label cause, ofText text = .error (.market label cause) →
      WellFormed (Config.lines text.toList)) ∧
    (∀ error, WellFormed (Config.lines text.toList) → ofText text = .error error →
      ∃ name market, (∃ line ∈ Config.lines text.toList, Opens line (.market name)) ∧
        Describes (Config.lines text.toList) name market ∧ market.check = .error error) := by
  refine ⟨exists_ofText_eq_ok_iff, fun _ => kind_of_ofText_eq_error, ?_,
    fun _ _ => wellFormed_of_ofText_eq_market, fun _ => check_of_ofText_eq_error⟩
  intro front line back _ wellFormed malformed
  exact ofText_of_malformed wellFormed malformed

/-- The market of the first two lines is not valid; the third line has no meaning. -/
theorem ofText_acceptance_of_two_faults :
    let front := ["[market.SOL]".toList, "imf_factor = -1".toList]
    let line := "price = 3".toList
    ofText "[market.SOL]\nimf_factor = -1" = .error (.market "SOL" (.negative .imfFactor)) ∧
      WellFormed front ∧ ¬Accepted front line ∧
      ofText "[market.SOL]\nimf_factor = -1\nprice = 3" =
        .error (.line 3 (.unknownMarketKey "price")) ∧
      ∃ current error, Standing front current ∧ Rejects current 3 line error ∧
        ∀ other rest, Config.lines other.toList = front ++ line :: rest →
          ofText other = .error error := by
  intro front line
  have invalid : ofText "[market.SOL]\nimf_factor = -1" =
      .error (.market "SOL" (.negative .imfFactor)) := by decide +kernel
  have meaningless : ofText "[market.SOL]\nimf_factor = -1\nprice = 3" =
      .error (.line 3 (.unknownMarketKey "price")) := by decide +kernel
  have wellFormed : WellFormed front := by
    have accepted := (ofText_acceptance "[market.SOL]\nimf_factor = -1").2.2.2.1 _ _ invalid
    rwa [show Config.lines "[market.SOL]\nimf_factor = -1".toList = front by decide] at accepted
  have lines_eq : Config.lines "[market.SOL]\nimf_factor = -1\nprice = 3".toList =
      front ++ [line] := by decide
  have malformed : ¬Accepted front line := by
    intro accepted
    have both : WellFormed (front ++ [line]) := wellFormed_concat_iff.mpr ⟨wellFormed, accepted⟩
    obtain ⟨reader, read⟩ := Reader.exists_readLines_eq_ok_iff.mpr both
    have failed : Reader.readLines {} 1 (front ++ [line]) =
        .error (.line 3 (.unknownMarketKey "price")) := by decide +kernel
    cases read.symm.trans failed
  exact ⟨invalid, wellFormed, malformed, meaningless,
    (ofText_acceptance _).2.2.1 front line [] lines_eq wellFormed malformed⟩

end Config
end SpotMargin
