import SpotMargin.Proofs.Config.Standing

/-!
# The meaning of a text

What a text says about each market and about the general settings, and that reading it gives just
that.  The invariant of the reader is `Reader.Follows`: what has been read is what the lines so far
mean.  A line keeps it because it changes no more than what it opens or assigns (`LineEffect`).

No character is special beyond those of the grammar, so the characters of a text may as well be
bytes.
-/

namespace SpotMargin

namespace Markets

/-- A check passes when every market is valid, and fails with the fault of one that is not. -/
private theorem ensures_forM_check (entries : List (String × Market)) :
    Ensures
      (fun error => ∃ name market, (name, market) ∈ entries ∧ market.check = .error error)
      (fun _ => ∀ name market, (name, market) ∈ entries → market.Valid)
      (entries.forM fun entry => entry.2.check) := by
  induction entries with
  | nil =>
      intro name market mem
      cases mem
  | cons entry rest ih =>
      obtain ⟨first, head⟩ := entry
      rw [show ((first, head) :: rest).forM (fun entry => entry.2.check) =
        head.check >>= fun _ => rest.forM fun entry => entry.2.check from rfl]
      cases checked : head.check with
      | error error => exact ⟨first, head, List.mem_cons_self, checked⟩
      | ok passed =>
          have valid : head.Valid := Market.check_eq_ok_iff.mp checked
          refine ih.imp ?_ ?_
          · intro _ rest_valid name market mem
            rcases List.mem_cons.mp mem with here | later
            · cases here
              exact valid
            · exact rest_valid name market later
          · rintro error ⟨name, market, mem, failed⟩
            exact ⟨name, market, List.mem_cons_of_mem _ mem, failed⟩

theorem ensures_check (markets : Markets) :
    Ensures
      (fun error => ∃ name market, markets.find? name = some market ∧ market.check = .error error)
      (fun _ => ∀ name market, markets.find? name = some market → market.Valid)
      markets.check := by
  simp only [← mem_entries_iff]
  exact ensures_forM_check markets.entries

end Markets

namespace Config

variable {lines : List (List Char)} {line : List Char} {name : String} {market : Market}

/-- The value is a numeral of the integer. -/
def Names (value : String) (n : Int) : Prop :=
  ∃ x, Numeral.read value = .ok x ∧ x.toInt = n

theorem Names.unique {value : String} {m n : Int} (named : Names value m)
    (other_named : Names value n) : m = n := by
  obtain ⟨x, read, rfl⟩ := named
  obtain ⟨y, other_read, rfl⟩ := other_named
  cases read.symm.trans other_read
  rfl

/-- The value is the name of the category. -/
def NamesCategory (value : String) (category : MarginCategory) : Prop :=
  value = category.name

/-- What the lines say about the market with the name: under each key it has what they assign to
the key last under any of its headers, or what the default market has. -/
structure Describes (lines : List (List Char)) (name : String) (market : Market) : Prop where
  name_eq : market.name = name
  values : ∀ key : Market.Key, Given lines (.market name) key.name Names
    (Market.valueAt {} key) (market.valueAt key)

/-- The lines say one thing about a market. -/
theorem Describes.unique {other : Market} (describes : Describes lines name market)
    (other_describes : Describes lines name other) : market = other := by
  refine Market.ext_valueAt (describes.name_eq.trans other_describes.name_eq.symm) fun key => ?_
  exact (describes.values key).unique (other_describes.values key) fun _ => Names.unique

/-- What the lines mean. -/
structure Meaning (lines : List (List Char)) (config : Config) : Prop where
  /-- There is a market for each name in a header, and no other. -/
  names : ∀ name, name ∈ config.markets.names ↔ ∃ line ∈ lines, Opens line (.market name)
  markets : ∀ name market, config.market? name = some market → Describes lines name market
  logLevel : Given lines .general "log_level" Eq ({} : Config).logLevel config.logLevel
  category : Given lines .general "margin_category" NamesCategory
    ({} : Config).category config.category

/-- The integer under a key of the market with the name, where the default market stands for one
that is not in the table. -/
def valueAt (config : Config) (name : String) (key : Market.Key) : Int :=
  ((config.market? name).getD {}).valueAt key

/-- What the line, which stands after `lines`, does to a configuration: it puts the market that it
opens into the table, changes the value that it assigns, and leaves all else as it is. -/
structure LineEffect (lines : List (List Char)) (line : List Char) (before after : Config) :
    Prop where
  names : ∀ name, name ∈ after.markets.names ↔
    name ∈ before.markets.names ∨ Opens line (.market name)
  others : ∀ name, ¬Opens line (.market name) →
    (∀ key value, ¬AssignsAfter lines line (.market name) key value) →
    after.market? name = before.market? name
  values : ∀ name (key : Market.Key), ValueEffect lines line (.market name) key.name Names
    (before.valueAt name key) (after.valueAt name key)
  logLevel : ValueEffect lines line .general "log_level" Eq before.logLevel after.logLevel
  category : ValueEffect lines line .general "margin_category" NamesCategory
    before.category after.category

@[simp]
theorem valueAt_update (config : Config) (name other : String) (change : Market → Market)
    (key : Market.Key) :
    ({ config with markets := config.markets.update name change } : Config).valueAt other key =
      if other = name then (change ((config.market? name).getD {})).valueAt key
      else config.valueAt other key := by
  rw [valueAt, market?, Markets.find?_update]
  split <;> rfl

namespace LineEffect

variable {config : Config}

/-- A line that opens no market and assigns nothing has no effect. -/
theorem of_plain (unopened : ∀ name, ¬Opens line (.market name))
    (plain : ∀ opened key value, ¬AssignsAfter lines line opened key value) :
    LineEffect lines line config config where
  names := by simp [unopened]
  others := fun _ _ _ => rfl
  values := fun _ _ => .keep (plain _ _) _
  logLevel := .keep (plain _ _) _
  category := .keep (plain _ _) _

theorem of_opens (opens : Opens line (.market name)) :
    LineEffect lines line config
      { config with
        markets := config.markets.update name (fun market => { market with name }) } where
  names := by
    intro other
    rw [Markets.mem_names_update, or_comm]
    refine or_congr_right ⟨?_, ?_⟩
    · rintro rfl
      exact opens
    · intro other_opens
      cases opens.unique other_opens
      rfl
  others := by
    intro other unopened _
    have distinct : other ≠ name := by
      rintro rfl
      exact unopened opens
    rw [market?, Markets.find?_update, if_neg distinct]
    rfl
  values := by
    intro other key
    have same : ({ config with
        markets := config.markets.update name (fun market => { market with name }) } :
          Config).valueAt other key = config.valueAt other key := by
      rw [valueAt_update]
      split
      · rename_i here
        rw [Market.valueAt_with_name, here]
        rfl
      · rfl
    rw [same]
    exact .keep (fun value assigns => assigns.not_opens _ opens) _
  logLevel := .keep (fun value assigns => assigns.not_opens _ opens) _
  category := .keep (fun value assigns => assigns.not_opens _ opens) _

/-- The line assigns nothing to another key or in another section. -/
private theorem keep_of_ne {α : Type} {names : String → α → Prop} {opened other : Section}
    {key other_key value : String} (assigns : AssignsAfter lines line opened key value)
    (distinct : ¬(opened = other ∧ key = other_key)) (a : α) :
    ValueEffect lines line other other_key names a a := by
  refine .keep (fun other_value other_assigns => distinct ?_) a
  obtain ⟨section_eq, key_eq, -⟩ := assigns.unique other_assigns
  exact ⟨section_eq, key_eq⟩

theorem of_logLevel {level : String}
    (assigns : AssignsAfter lines line .general "log_level" level) :
    LineEffect lines line config { config with logLevel := level } where
  names := by simp [assigns.not_opens]
  others := fun _ _ _ => rfl
  values := fun _ _ => keep_of_ne assigns (by simp) _
  logLevel := .assign assigns rfl
  category := keep_of_ne assigns (by decide) _

theorem of_category {category : MarginCategory}
    (assigns : AssignsAfter lines line .general "margin_category" category.name) :
    LineEffect lines line config { config with category } where
  names := by simp [assigns.not_opens]
  others := fun _ _ _ => rfl
  values := fun _ _ => keep_of_ne assigns (by simp) _
  logLevel := keep_of_ne assigns (by decide) _
  category := .assign assigns rfl

theorem of_parameter {key : Market.Key} {value : String} {n : Fixed}
    (known : name ∈ config.markets.names)
    (assigns : AssignsAfter lines line (.market name) key.name value)
    (read : Numeral.read value = .ok n) (takes : key.Takes n.toInt) :
    LineEffect lines line config
      { config with
        markets := config.markets.update name (fun market => market.setAt key n) } where
  names := by
    intro other
    rw [Markets.mem_names_update, or_iff_left (assigns.not_opens _), or_iff_right_of_imp]
    rintro rfl
    exact known
  others := by
    intro other _ plain
    have distinct : other ≠ name := by
      rintro rfl
      exact plain _ _ assigns
    rw [market?, Markets.find?_update, if_neg distinct]
    rfl
  values := by
    intro other other_key
    rw [valueAt_update]
    split
    · rename_i here
      subst here
      by_cases same : other_key = key
      · subst same
        rw [Market.valueAt_setAt_self takes]
        exact .assign assigns ⟨n, read, rfl⟩
      · rw [Market.valueAt_setAt_of_ne same]
        exact keep_of_ne assigns (fun h => same (Market.Key.name_injective h.2.symm)) _
    · rename_i other_market
      refine keep_of_ne assigns (fun h => other_market ?_) _
      cases h.1
      rfl
  logLevel := keep_of_ne assigns (by simp) _
  category := keep_of_ne assigns (by simp) _

/-- What a line states is all that it does. -/
theorem of_means {reader : Reader} {statement : Statement}
    (standing : Standing lines reader.current)
    (known : ∀ name, reader.current = some (.market name) → name ∈ reader.config.markets.names)
    (means : Means reader.current line statement) :
    LineEffect lines line reader.config (reader.perform statement).config := by
  cases means with
  | nothing said =>
      refine of_plain (fun name opens => ?_) fun opened key value assigns => ?_
      · exact not_isHeader_of_said said (by simp) opens.isHeader
      · cases said.unique assigns.2
  | opens said titled =>
      rename_i title opened
      have opens : Opens line opened := ⟨title, said, titled⟩
      cases opened with
      | general =>
          refine of_plain (fun name other_opens => ?_) fun opened key value assigns => ?_
          · cases opens.unique other_opens
          · exact assigns.not_opens _ opens
      | market name => exact of_opens opens
  | logLevel stands said => exact of_logLevel ⟨stands ▸ standing, said⟩
  | category stands said => exact of_category ⟨stands ▸ standing, said⟩
  | parameter stands said read takes =>
      exact of_parameter (known _ stands) ⟨stands ▸ standing, said⟩ read takes

end LineEffect

/-! ## The reader -/

namespace Reader

variable {reader : Reader} {statement : Statement}

/-- The reader has read the lines, and what it has is what they mean. -/
structure Follows (lines : List (List Char)) (reader : Reader) : Prop where
  standing : Standing lines reader.current
  names : ∀ name, name ∈ reader.config.markets.names ↔ ∃ line ∈ lines, Opens line (.market name)
  named : ∀ name market, reader.config.market? name = some market → market.name = name
  values : ∀ name (key : Market.Key), Given lines (.market name) key.name Names
    (Market.valueAt {} key) (reader.config.valueAt name key)
  logLevel : Given lines .general "log_level" Eq ({} : Config).logLevel reader.config.logLevel
  category : Given lines .general "margin_category" NamesCategory
    ({} : Config).category reader.config.category

theorem Follows.nil : Follows [] {} where
  standing := standing_nil
  names := by
    intro name
    rw [Markets.mem_names_iff]
    constructor
    · rintro ⟨market, found⟩
      cases found
    · rintro ⟨line, mem, -⟩
      cases mem
  named := by
    intro name market found
    cases found
  values := fun _ _ => .of_unopened (by simp) _ _ _
  logLevel := .of_unopened (by simp) _ _ _
  category := .of_unopened (by simp) _ _ _

/-- The market of the current section is in the table. -/
theorem Follows.known (follows : Follows lines reader)
    (current : reader.current = some (.market name)) : name ∈ reader.config.markets.names :=
  (follows.names name).mpr (current ▸ follows.standing).exists_opens

theorem Follows.standing_perform (follows : Follows lines reader)
    (means : Means reader.current line statement) :
    Standing (lines ++ [line]) (reader.perform statement).current := by
  have keep {meaning : Line} (said : Line.Says line meaning)
      (other : ∀ title, meaning ≠ .header title) : Standing (lines ++ [line]) reader.current :=
    follows.standing.keep (not_isHeader_of_said said other)
  cases means with
  | nothing said => exact keep said (by simp)
  | opens said titled =>
      rename_i title opened
      have current : (reader.openSection opened).current = some opened := by
        cases opened <;> rfl
      rw [perform, current]
      exact .opens lines ⟨title, said, titled⟩
  | logLevel stands said => exact keep said (by simp)
  | category stands said => exact keep said (by simp)
  | parameter stands said read takes => exact keep said (by simp)

theorem Follows.named_perform (follows : Follows lines reader)
    (means : Means reader.current line statement) :
    ∀ name market, (reader.perform statement).config.market? name = some market →
      market.name = name := by
  cases means with
  | nothing said => exact follows.named
  | opens said titled =>
      rename_i title opened
      cases opened with
      | general => exact follows.named
      | market opened_name =>
          intro name market found
          rw [perform, openSection, market?, Markets.find?_update] at found
          split at found
          · rename_i here
            cases found
            exact here.symm
          · exact follows.named name market found
  | logLevel stands said => exact follows.named
  | category stands said => exact follows.named
  | parameter stands said read takes =>
      intro name market found
      rw [perform, market?, Markets.find?_update] at found
      split at found
      · rename_i here
        subst here
        obtain ⟨old, old_found⟩ := Markets.mem_names_iff.mp (follows.known stands)
        cases found
        rw [old_found, Option.getD_some, Market.name_setAt]
        exact follows.named _ old old_found
      · exact follows.named name market found

/-- A line leads on to what it means after the lines before it. -/
theorem Follows.concat (follows : Follows lines reader)
    (means : Means reader.current line statement) :
    Follows (lines ++ [line]) (reader.perform statement) := by
  have effect := LineEffect.of_means follows.standing (fun _ => follows.known) means
  exact
    { standing := follows.standing_perform means
      names := by
        intro name
        simp only [effect.names, follows.names, List.mem_append, List.mem_singleton, or_and_right,
          exists_or, exists_eq_left]
      named := follows.named_perform means
      values := fun name key => (follows.values name key).concat (effect.values name key)
      logLevel := follows.logLevel.concat effect.logLevel
      category := follows.category.concat effect.category }

/-- What the reader has is what the lines mean. -/
theorem Follows.meaning (follows : Follows lines reader) : Meaning lines reader.config where
  names := follows.names
  markets := by
    intro name market found
    refine ⟨follows.named name market found, fun key => ?_⟩
    have given := follows.values name key
    rwa [valueAt, found] at given
  logLevel := follows.logLevel
  category := follows.category

theorem readLines_append (reader : Reader) (number : Nat) (front back : List (List Char)) :
    reader.readLines number (front ++ back) =
      (reader.readLines number front >>= fun next =>
        next.readLines (number + front.length) back) := by
  induction front generalizing reader number with
  | nil => rfl
  | cons line front ih =>
      rw [List.cons_append, readLines, readLines]
      cases read : reader.readLine number line with
      | error error => rfl
      | ok next =>
          rw [ok_bind, ok_bind, ih]
          simp only [List.length_cons, Nat.add_assoc, Nat.add_comm 1]

theorem readLines_concat (reader : Reader) (number : Nat) (lines : List (List Char))
    (line : List Char) :
    reader.readLines number (lines ++ [line]) =
      (reader.readLines number lines >>= fun next =>
        next.readLine (number + lines.length) line) := by
  rw [readLines_append]
  congr
  funext next
  rw [readLines]
  cases next.readLine (number + lines.length) line <;> rfl

/-- A run of the reader keeps up with the lines. -/
theorem follows_of_readLines (read : readLines {} 1 lines = .ok reader) :
    Follows lines reader := by
  -- What a line means depends on the lines before it, so the lines are taken off the end.
  induction lines using List.reverseRecOn generalizing reader with
  | nil =>
      cases read
      exact .nil
  | append_singleton lines line ih =>
      rw [readLines_concat, bind_eq_ok_iff] at read
      obtain ⟨before, front_read, line_read⟩ := read
      obtain ⟨statement, means, rfl⟩ := readLine_eq_ok_iff.mp line_read
      exact (ih front_read).concat means

end Reader

theorem ofText_eq_ok_iff {text : String} {config : Config} :
    ofText text = .ok config ↔
      ∃ reader, Reader.readLines {} 1 (Config.lines text.toList) = .ok reader ∧
        reader.config.markets.check = .ok () ∧ reader.config = config := by
  simp only [ofText, bind_eq_ok_iff, pure, Except.pure, Except.ok.injEq]
  constructor
  · rintro ⟨reader, read, ⟨⟩, checked, same⟩
    exact ⟨reader, read, checked, same⟩
  · rintro ⟨reader, read, checked, same⟩
    exact ⟨reader, read, (), checked, same⟩

/-- The reader comes to the configuration line by line, and each line has its effect and no
other. -/
def Stepwise (lines : List (List Char)) (config : Config) : Prop :=
  ∀ front line back, lines = front ++ line :: back →
    ∃ before after last : Reader,
      Reader.readLines {} 1 front = .ok before ∧
      before.readLine (front.length + 1) line = .ok after ∧
      after.readLines (front.length + 2) back = .ok last ∧ last.config = config ∧
      LineEffect front line before.config after.config

theorem stepwise_of_readLines {reader : Reader} (read : Reader.readLines {} 1 lines = .ok reader) :
    Stepwise lines reader.config := by
  intro front line back lines_eq
  rw [lines_eq, Reader.readLines_append, bind_eq_ok_iff] at read
  obtain ⟨before, front_read, rest_read⟩ := read
  rw [Reader.readLines, bind_eq_ok_iff, Nat.add_comm 1] at rest_read
  obtain ⟨after, line_read, back_read⟩ := rest_read
  obtain ⟨statement, means, rfl⟩ := Reader.readLine_eq_ok_iff.mp line_read
  have follows := Reader.follows_of_readLines front_read
  exact ⟨before, _, reader, front_read, line_read, back_read, rfl,
    .of_means follows.standing (fun _ => follows.known) means⟩

/-- The configuration that a text describes is what its lines mean, all its markets are valid, and
no line does more than open what it opens and assign what it assigns. -/
theorem ofText_meaning {text : String} {config : Config} (described : ofText text = .ok config) :
    Meaning (Config.lines text.toList) config ∧
      (∀ name market, config.market? name = some market → market.Valid) ∧
      Stepwise (Config.lines text.toList) config := by
  obtain ⟨reader, read, checked, rfl⟩ := ofText_eq_ok_iff.mp described
  exact ⟨(Reader.follows_of_readLines read).meaning,
    reader.config.markets.ensures_check.result_of_eq_ok checked, stepwise_of_readLines read⟩

/-- Sections that are opened again, a name with a point, and a key that is assigned twice. -/
theorem ofText_meaning_of_reopened_sections :
    let text := "[market.SOL.PERP]\ndecimals = 9 # at first\nimf_factor = \"1_000\"\n" ++
      "[general]\nlog_level = debug\n[market.BTC]\nmarket_index = 2\n" ++
      "[market.SOL.PERP] again\ndecimals = 8\n"
    let config : Config :=
      { logLevel := "debug"
        markets := (Markets.empty.insert "SOL.PERP"
          { name := "SOL.PERP", decimals := 8, imfFactor := 1000 }).insert "BTC"
          { name := "BTC", index := 2 } }
    ofText text = .ok config ∧ Meaning (Config.lines text.toList) config ∧
      (∀ name market, config.market? name = some market → market.Valid) ∧
      Stepwise (Config.lines text.toList) config := by
  intro text config
  have described : ofText text = .ok config := by decide +kernel
  exact ⟨described, ofText_meaning described⟩

end Config
end SpotMargin
