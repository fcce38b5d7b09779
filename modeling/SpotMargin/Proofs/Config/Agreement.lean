import SpotMargin.Proofs.Config.Acceptance
import SpotMargin.Proofs.Json.RoundTrip

/-!
# Markets in both formats

A market can be written as the section of a configuration text and as a JSON object.  Reading either
gives a valid market back, and fails for any other, though not always with the same fault: a text
fails at the line of the decimal places before the market is checked.  `ofText_agrees_ofJson` says
it for all orders of the lines.
-/

namespace SpotMargin

namespace Config

/-- The character stands for itself wherever it stands in a line. -/
def isPlain (c : Char) : Bool :=
  !(isBlank c || c = '[' || c = '=' || c = '#' || c = '"')

/-- There are characters, and all of them are plain. -/
structure Word (chars : List Char) : Prop where
  nonempty : chars ≠ []
  plain : ∀ c ∈ chars, isPlain c = true

variable {chars : List Char} {c : Char}

theorem isBlank_of_isPlain (plain : isPlain c = true) : isBlank c = false := by
  simp_all [isPlain]

theorem isPlain_of_isDigit (digit : c.isDigit = true) : isPlain c = true := by
  have ne {other : Char} (special : other.isDigit = false) : c ≠ other := by
    rintro rfl
    rw [digit] at special
    cases special
  simp [isPlain, isBlank, ne]

namespace Word

theorem of_all (nonempty : chars ≠ []) (plain : chars.all isPlain = true) : Word chars :=
  ⟨nonempty, List.all_eq_true.mp plain⟩

theorem not_mem (word : Word chars) (special : isPlain c = false) : c ∉ chars := by
  intro mem
  rw [word.plain c mem] at special
  cases special

theorem mem_of_head?_append (word : Word chars) {rest : List Char}
    (head : (chars ++ rest).head? = some c) : c ∈ chars := by
  cases chars with
  | nil => exact absurd rfl word.nonempty
  | cons first more =>
      cases head
      exact List.mem_cons_self

theorem mem_of_getLast?_append (word : Word chars) {front : List Char}
    (last : (front ++ chars).getLast? = some c) : c ∈ chars := by
  rw [List.getLast?_append, List.getLast?_eq_some_getLast word.nonempty, Option.some_or] at last
  cases last
  exact List.getLast_mem word.nonempty

/-- Blanks around a word do not count. -/
theorem trims (word : Word chars) {left right : List Char}
    (left_blank : ∀ c ∈ left, isBlank c = true) (right_blank : ∀ c ∈ right, isBlank c = true) :
    Trims (left ++ chars ++ right) chars where
  around := ⟨left, right, rfl, left_blank, right_blank⟩
  first := fun c head => isBlank_of_isPlain (word.plain c (List.mem_of_head? head))
  last := fun c last => isBlank_of_isPlain (word.plain c (List.mem_of_getLast? last))

end Word

theorem word_write (n : Int) : Word (Numeral.write n).toList := by
  rw [Numeral.toList_write]
  have digits_word : Word (Numeral.digits n.natAbs) :=
    ⟨Numeral.digits_ne_nil _, fun c mem => isPlain_of_isDigit (Numeral.isDigit_of_mem_digits mem)⟩
  by_cases negative : n < 0
  · rw [Numeral.chars_of_neg negative]
    refine ⟨by simp, fun c mem => ?_⟩
    rcases List.mem_cons.mp mem with rfl | digit
    · rfl
    · exact digits_word.plain c digit
  · rw [Numeral.chars_of_nonneg (Int.not_lt.mp negative)]
    exact digits_word

/-- A line without a number sign is all code, up to blanks at its ends. -/
theorem code_of_not_mem (uncommented : '#' ∉ chars)
    (first : ∀ c, chars.head? = some c → isBlank c = false)
    (last : ∀ c, chars.getLast? = some c → isBlank c = false) : Code chars chars := by
  refine ⟨chars, .whole fun front back same => ?_, ⟨[], [], by simp, by simp, by simp⟩, first, last⟩
  exact absurd (by simp [same]) uncommented

/-- A key and a value that are words make an assignment. -/
theorem Line.says_assignment {key value : String} (key_word : Word key.toList)
    (value_word : Word value.toList) :
    Says (key ++ " = " ++ value).toList (.assignment key value) := by
  have line_eq : (key ++ " = " ++ value).toList =
      (key.toList ++ [' ']) ++ '=' :: (' ' :: value.toList) := by simp
  have uncommented : '#' ∉ (key ++ " = " ++ value).toList := by
    simp [key_word.not_mem, value_word.not_mem, isPlain]
  have code : Code (key ++ " = " ++ value).toList (key ++ " = " ++ value).toList := by
    refine code_of_not_mem uncommented (fun c head => ?_) (fun c last => ?_)
    · rw [String.toList_append, String.toList_append, List.append_assoc] at head
      exact isBlank_of_isPlain (key_word.plain c (key_word.mem_of_head?_append head))
    · rw [String.toList_append] at last
      exact isBlank_of_isPlain (value_word.plain c (value_word.mem_of_getLast?_append last))
  have unbracketed : (key.toList ++ [' ']).head? ≠ some '[' := fun head =>
    key_word.not_mem (by decide) (key_word.mem_of_head?_append head)
  have first_mark : '=' ∉ key.toList ++ [' '] := by
    simp [key_word.not_mem, isPlain]
  have key_trims : Trims ([] ++ key.toList ++ [' ']) key.toList :=
    key_word.trims (by simp) (List.forall_mem_singleton.mpr rfl)
  have value_trims : Trims ([' '] ++ value.toList ++ []) value.toList :=
    value_word.trims (List.forall_mem_singleton.mpr rfl) (by simp)
  have bare : Denotes value.toList value.toList := .bare fun inner same =>
    value_word.not_mem (by decide) (same ▸ List.mem_cons_self)
  rw [List.append_nil] at value_trims
  rw [line_eq] at code ⊢
  have said := Says.assignment code unbracketed first_mark key_trims value_trims bare
  rwa [String.ofList_toList, String.ofList_toList] at said

/-- A title without a closing bracket or a number sign makes a header. -/
theorem Line.says_header {title : String} (closed : ']' ∉ title.toList)
    (uncommented : '#' ∉ title.toList) :
    Says ("[" ++ title ++ "]").toList (.header title) := by
  have line_eq : ("[" ++ title ++ "]").toList = '[' :: (title.toList ++ ']' :: []) := by simp
  have code : Code ("[" ++ title ++ "]").toList ('[' :: (title.toList ++ ']' :: [])) := by
    rw [line_eq]
    refine code_of_not_mem (by simp [uncommented]) ?_ ?_
    · rintro c ⟨⟩
      rfl
    · intro c last
      rw [← List.cons_append, List.getLast?_concat] at last
      cases last
      rfl
  have said := Says.header code closed
  rwa [String.ofList_toList] at said

/-- The lines of a text are those that it was put together from. -/
theorem lines_intercalate {first : String} {rest : List String}
    (single : ∀ line ∈ first :: rest, '\n' ∉ line.toList) :
    lines ("\n".intercalate (first :: rest)).toList = (first :: rest).map String.toList := by
  have feed : "\n".toList = ['\n'] := rfl
  rw [String.toList_intercalate, feed]
  induction rest generalizing first with
  | nil => simp [lines_of_not_mem (single first List.mem_cons_self)]
  | cons second rest ih =>
      have tail_eq := ih fun line mem => single line (List.mem_cons_of_mem _ mem)
      rw [List.map_cons, List.map_cons, List.intercalate_cons_cons, List.append_assoc,
        List.singleton_append, lines_append (single first List.mem_cons_self), ← List.map_cons,
        tail_eq]

namespace Reader

/-- Blank lines change nothing. -/
theorem readLines_replicate_nil (reader : Reader) (number blanks : Nat) :
    reader.readLines number (List.replicate blanks []) = .ok reader := by
  induction blanks generalizing number with
  | zero => rfl
  | succ blanks ih => exact ih (number + 1)

end Reader
end Config

namespace Market

variable {market held : Market} {key : Key} {order : List Key} {name : String}

/-- The integer under a key, as a fixed-point one. -/
def fixedAt (market : Market) (key : Key) : Fixed :=
  .ofInt (market.valueAt key)

@[simp]
theorem toInt_fixedAt (market : Market) (key : Key) :
    (market.fixedAt key).toInt = market.valueAt key := by
  refine Fixed.toInt_ofInt_of_inRange ?_
  cases key with
  | index =>
      have := market.index.toNat_lt
      simp only [Fixed.InRange, valueAt]
      omega
  | decimals =>
      have := market.decimals.toNat_lt
      simp only [Fixed.InRange, valueAt]
      omega
  | field parameter => exact (market.get parameter).inRange

theorem Key.takes_valueAt (other : key ≠ .decimals) (market : Market) :
    key.Takes (market.valueAt key) := by
  cases key with
  | index =>
      have := market.index.toNat_lt
      simp only [Takes, valueAt]
      omega
  | decimals => contradiction
  | field parameter => trivial

theorem Key.decimals_takes_iff :
    Key.decimals.Takes (market.valueAt .decimals) ↔
      market.decimals ≤ Precision.balanceDecimals := by
  rw [UInt32.le_iff_toNat_le]
  change 0 ≤ (market.decimals.toNat : Int) ∧ (market.decimals.toNat : Int) ≤ 19 ↔
    market.decimals.toNat ≤ 19
  omega

theorem Key.word_name (key : Key) : Config.Word key.name.toList := by
  cases key with
  | index => exact .of_all (by decide) (by decide)
  | decimals => exact .of_all (by decide) (by decide)
  | field parameter => cases parameter <;> exact .of_all (by decide) (by decide)

/-- The line that gives the market its value under the key. -/
def line (market : Market) (key : Key) : String :=
  key.name ++ " = " ++ Numeral.write (market.valueAt key)

/-- The section of a configuration text that describes the market: its header, the lines of the
keys in the given order, and any number of blank lines at the end. -/
def toSection (market : Market) (order : List Key) (blanks : Nat) : String :=
  "\n".intercalate (("[" ++ ("market." ++ market.name) ++ "]") ::
    (order.map market.line ++ List.replicate blanks ""))

theorem read_write_valueAt :
    Numeral.read (Numeral.write (market.valueAt key)) = .ok (market.fixedAt key) := by
  rw [← toInt_fixedAt]
  exact Numeral.read_numeral (market.fixedAt key)

theorem means_line (takes : key.Takes (market.valueAt key)) (name : String) :
    Config.Means (some (.market name)) (market.line key).toList
      (.parameter name key (market.fixedAt key)) := by
  refine .parameter rfl (Config.Line.says_assignment key.word_name (Config.word_write _))
    read_write_valueAt ?_
  rwa [toInt_fixedAt]

theorem rejects_line (out : ¬key.Takes (market.valueAt key)) (name : String) (number : Nat) :
    Config.Rejects (some (.market name)) number (market.line key).toList
      (.line number (.outOfRange (Numeral.write (market.valueAt key)))) := by
  refine .range rfl (Config.Line.says_assignment key.word_name (Config.word_write _))
    read_write_valueAt ?_
  rwa [toInt_fixedAt]

theorem lineFeed_not_mem_line (market : Market) (key : Key) :
    '\n' ∉ (market.line key).toList := by
  have key_plain : '\n' ∉ key.name.toList := key.word_name.not_mem (by decide)
  have value_plain : '\n' ∉ (Numeral.write (market.valueAt key)).toList :=
    (Config.word_write _).not_mem (by decide)
  simp only [line, String.toList_append, List.mem_append, key_plain, value_plain, or_false,
    false_or]
  decide

/-! ## Reading a section -/

/-- The market with what another has under the keys. -/
def setAll (held market : Market) (keys : List Key) : Market :=
  keys.foldl (fun held key => held.setAt key (market.fixedAt key)) held

@[simp]
theorem name_setAll (held market : Market) (keys : List Key) :
    (held.setAll market keys).name = held.name := by
  induction keys generalizing held with
  | nil => rfl
  | cons key rest ih => exact (ih _).trans (name_setAt held key _)

theorem valueAt_setAll (taken : ∀ key ∈ order, key.Takes (market.valueAt key)) (held : Market)
    (key : Key) :
    (held.setAll market order).valueAt key =
      if key ∈ order then market.valueAt key else held.valueAt key := by
  induction order generalizing held with
  | nil => rfl
  | cons first rest ih =>
      rw [setAll, List.foldl_cons, ← setAll,
        ih fun key mem => taken key (List.mem_cons_of_mem _ mem)]
      by_cases later : key ∈ rest
      · rw [if_pos later, if_pos (List.mem_cons_of_mem _ later)]
      · by_cases here : key = first
        · subst here
          have takes := taken key List.mem_cons_self
          rw [← toInt_fixedAt] at takes
          rw [if_neg later, if_pos List.mem_cons_self, valueAt_setAt_self takes, toInt_fixedAt]
        · have absent : key ∉ first :: rest := by simp [here, later]
          rw [if_neg later, if_neg absent, valueAt_setAt_of_ne here]

/-- Under all keys a market is all but its name. -/
theorem setAll_eq (complete : ∀ key, key ∈ order)
    (taken : ∀ key ∈ order, key.Takes (market.valueAt key)) (held : Market) :
    held.setAll market order = { market with name := held.name } := by
  refine ext_valueAt (name_setAll held market order) fun key => ?_
  rw [valueAt_setAll taken, if_pos (complete key)]
  exact (valueAt_with_name market held.name key).symm

/-- The reader in the section of the market, which is all that has been read. -/
def reader (market : Market) : Config.Reader where
  config := { markets := Markets.empty.insert market.name market }
  current := some (.market market.name)

theorem perform_reader (held : Market) (key : Key) (value : Fixed) :
    held.reader.perform (.parameter held.name key value) = (held.setAt key value).reader := by
  simp [reader, Config.Reader.perform, Markets.update, Markets.insert_insert]

/-- The lines of keys that can be taken set what the market has under them. -/
theorem readLines_map_line (taken : ∀ key ∈ order, key.Takes (market.valueAt key)) (held : Market)
    (number : Nat) :
    held.reader.readLines number (order.map fun key => (market.line key).toList) =
      .ok (held.setAll market order).reader := by
  -- A line leaves the reader in the same section, with another market held there.
  induction order generalizing held number with
  | nil => rfl
  | cons first rest ih =>
      have means := means_line (taken first List.mem_cons_self) held.name
      rw [List.map_cons, Config.Reader.readLines, Config.Reader.readLine_of_means means, ok_bind,
        perform_reader, ih fun key mem => taken key (List.mem_cons_of_mem _ mem)]
      rfl

/-- Too many decimal places fail the first line that gives them. -/
theorem readLines_map_line_of_decimals {front back : List Key} (absent : .decimals ∉ front)
    (above : ¬market.decimals ≤ Precision.balanceDecimals) (held : Market) (number : Nat) :
    held.reader.readLines number
        ((front ++ .decimals :: back).map fun key => (market.line key).toList) =
      .error (.line (number + front.length)
        (.outOfRange (Numeral.write (market.valueAt .decimals)))) := by
  have taken : ∀ key ∈ front, key.Takes (market.valueAt key) := by
    intro key mem
    refine key.takes_valueAt ?_ market
    rintro rfl
    exact absent mem
  have rejects := rejects_line (mt Key.decimals_takes_iff.mp above)
    (held.setAll market front).name (number + front.length)
  rw [List.map_append, Config.Reader.readLines_append, readLines_map_line taken, ok_bind,
    List.length_map, List.map_cons, Config.Reader.readLines,
    Config.Reader.readLine_of_rejects rejects]
  rfl

section Text

variable (named : market.name ≠ "")
  (fits : ∀ c ∈ market.name.toList, c ≠ ']' ∧ c ≠ '#' ∧ c ≠ '\n')

include fits in
theorem lines_toSection (order : List Key) (blanks : Nat) :
    Config.lines (market.toSection order blanks).toList =
      ("[" ++ ("market." ++ market.name) ++ "]").toList ::
        ((order.map fun key => (market.line key).toList) ++ List.replicate blanks []) := by
  rw [toSection, Config.lines_intercalate]
  · simp
  · intro line mem
    rcases List.mem_cons.mp mem with rfl | mem
    · simpa using fun feed => (fits _ feed).2.2 rfl
    · rcases List.mem_append.mp mem with written | blank
      · obtain ⟨key, -, rfl⟩ := List.mem_map.mp written
        exact lineFeed_not_mem_line market key
      · rw [List.eq_of_mem_replicate blank]
        exact List.not_mem_nil

include named fits in
theorem means_header :
    Config.Means none ("[" ++ ("market." ++ market.name) ++ "]").toList
      (.opens (.market market.name)) := by
  have nonempty : market.name.toList ≠ [] := by simpa using named
  have closed : ']' ∉ ("market." ++ market.name).toList := by
    simpa using fun mem => (fits _ mem).1 rfl
  have uncommented : '#' ∉ ("market." ++ market.name).toList := by
    simpa using fun mem => (fits _ mem).2.1 rfl
  have titled := Config.Section.Titled.market nonempty
  rw [String.ofList_toList] at titled
  refine .opens (Config.Line.says_header closed uncommented) ?_
  rwa [String.toList_append]

include named fits in
/-- The header leads on to the lines of the keys, and nothing follows these. -/
theorem readLines_toSection (order : List Key) (blanks : Nat) :
    Config.Reader.readLines {} 1 (Config.lines (market.toSection order blanks).toList) =
      (reader { name := market.name }).readLines 2
        (order.map fun key => (market.line key).toList) := by
  have opened : ({} : Config.Reader).perform (.opens (.market market.name)) =
      reader { name := market.name } := rfl
  rw [lines_toSection fits, Config.Reader.readLines,
    Config.Reader.readLine_of_means (means_header named fits), opened, ok_bind,
    Config.Reader.readLines_append]
  cases (reader { name := market.name }).readLines 2
      (order.map fun key => (market.line key).toList) with
  | error error => rfl
  | ok last => exact last.readLines_replicate_nil _ blanks

include named fits in
/-- A text with few decimal places is read as the market, if its check passes. -/
theorem ofText_toSection (complete : ∀ key, key ∈ order)
    (few : market.decimals ≤ Precision.balanceDecimals) (blanks : Nat) :
    Config.ofText (market.toSection order blanks) = do
      market.check
      return { markets := Markets.empty.insert market.name market } := by
  have taken : ∀ key ∈ order, key.Takes (market.valueAt key) := by
    intro key _
    by_cases decimals : key = .decimals
    · subst decimals
      exact Key.decimals_takes_iff.mpr few
    · exact key.takes_valueAt decimals market
  rw [Config.ofText, readLines_toSection named fits, readLines_map_line taken, ok_bind,
    setAll_eq complete taken, reader, Markets.check_insert_empty]

include named fits in
/-- A text with too many decimal places fails at their line. -/
theorem ofText_toSection_of_decimals {front back : List Key}
    (order_eq : order = front ++ .decimals :: back) (absent : .decimals ∉ front)
    (above : ¬market.decimals ≤ Precision.balanceDecimals) (blanks : Nat) :
    Config.ofText (market.toSection order blanks) =
      .error (.line (2 + front.length)
        (.outOfRange (Numeral.write (market.valueAt .decimals)))) := by
  rw [Config.ofText, readLines_toSection named fits, order_eq,
    readLines_map_line_of_decimals absent above]
  rfl

include named fits in
theorem exists_ofText_toSection_eq_error (complete : ∀ key, key ∈ order)
    (above : ¬market.decimals ≤ Precision.balanceDecimals) (blanks : Nat) :
    ∃ error, Config.ofText (market.toSection order blanks) = .error error ∧
      error.kind = .configuration := by
  obtain ⟨front, back, order_eq, absent⟩ := List.eq_append_cons_of_mem (complete .decimals)
  exact ⟨_, ofText_toSection_of_decimals named fits order_eq absent above blanks, rfl⟩

end Text

/-- From the section of a market in a configuration text, with the lines of its keys in any order,
and from its object in JSON, the same is read.  A valid market is read back from both, and is all
that the text describes; any other fails both, with the same fault unless the decimal places are too
many, for which a text has a fault of its own. -/
theorem ofText_agrees_ofJson (name : String) (named : name ≠ "")
    (fits : ∀ c ∈ name.toList, c ≠ ']' ∧ c ≠ '#' ∧ c ≠ '\n') (market : Market)
    (order : List Key) (complete : ∀ key, key ∈ order) (blanks : Nat) :
    let renamed : Market := { market with name }
    let text := renamed.toSection order blanks
    (renamed.Valid →
      Config.ofText text = .ok { markets := Markets.empty.insert name renamed } ∧
        ofJson renamed.toJson = .ok renamed) ∧
    (¬renamed.Valid →
      ∃ error cause, Config.ofText text = .error error ∧ ofJson renamed.toJson = .error cause ∧
        error.kind = .configuration ∧ cause.kind = .configuration ∧
        (market.decimals ≤ Precision.balanceDecimals → error = cause)) := by
  intro renamed text
  have text_eq (few : market.decimals ≤ Precision.balanceDecimals) : Config.ofText text = do
      renamed.check
      return { markets := Markets.empty.insert name renamed } :=
    @ofText_toSection renamed order named fits complete few blanks
  rw [ofJson_toJson_eq]
  refine ⟨fun valid => ?_, fun invalid => ?_⟩
  · rw [text_eq valid.1, check_eq_ok_iff.mpr valid]
    exact ⟨rfl, rfl⟩
  · cases checked : renamed.check with
    | ok passed => exact absurd (check_eq_ok_iff.mp checked) invalid
    | error cause =>
        have kind_eq := kind_of_check_eq_error checked
        by_cases few : market.decimals ≤ Precision.balanceDecimals
        · rw [text_eq few, checked]
          exact ⟨cause, cause, rfl, rfl, kind_eq, kind_eq, fun _ => rfl⟩
        · obtain ⟨error, failed, error_kind⟩ :=
            @exists_ofText_toSection_eq_error renamed order named fits complete few blanks
          exact ⟨error, cause, failed, rfl, error_kind, kind_eq, fun few' => absurd few' few⟩

/-- A name with a point, quotation marks and a blank, and the keys backwards: a valid market, and
one with too many decimal places. -/
theorem ofText_agrees_ofJson_under_a_quoted_name :
    let order : List Key := Field.all.reverse.map .field ++ [.decimals, .index]
    let market : Market := { index := 7, name := "SOL \"2.0\"", borrowInterest := Fixed.greatest }
    let precise : Market := { name := "SOL \"2.0\"", decimals := 20 }
    let text := "[market.SOL \"2.0\"]\nscale_initial_asset_weight_start = 0\nimf_factor = 0\n" ++
      "maintenance_liability_weight = 10000\ninitial_liability_weight = 10000\n" ++
      "maintenance_asset_weight = 10000\ninitial_asset_weight = 10000\ndeposit_balance = 0\n" ++
      "cumulative_borrow_interest = 170141183460469231731687303715884105727\n" ++
      "cumulative_deposit_interest = 10000000000\ndecimals = 6\nmarket_index = 7\n"
    market.toSection order 1 = text ∧
      Config.ofText text = .ok { markets := Markets.empty.insert "SOL \"2.0\"" market } ∧
      ofJson market.toJson = .ok market ∧
      ∃ error cause, Config.ofText (precise.toSection order 0) = .error error ∧
        ofJson precise.toJson = .error cause ∧
        error.kind = .configuration ∧ cause.kind = .configuration := by
  intro order market precise text
  have complete : ∀ key, key ∈ order := by
    intro key
    cases key with
    | index => decide
    | decimals => decide
    | field parameter => cases parameter <;> decide
  have text_eq : market.toSection order 1 = text := by decide +kernel
  have agrees := ofText_agrees_ofJson "SOL \"2.0\"" (by decide) (by simp)
  obtain ⟨text_read, json_read⟩ := (agrees market order complete 1).1 (by decide)
  obtain ⟨error, cause, text_failed, json_failed, error_kind, cause_kind, -⟩ :=
    (agrees precise order complete 0).2 (by decide)
  exact ⟨text_eq, text_eq ▸ text_read, json_read, error, cause, text_failed, json_failed,
    error_kind, cause_kind⟩

end Market
end SpotMargin
