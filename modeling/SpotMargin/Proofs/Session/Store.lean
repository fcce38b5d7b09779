import SpotMargin.Proofs.Config.Acceptance
import SpotMargin.Proofs.Scenario.Failures
import SpotMargin.Proofs.Session.Atomic

/-!
# The markets of a session

The table of a session is the one that the last load gave, with the markets that have been put into
it since.  Which steps wrote an entry last is said on the steps alone (`Written`), and look-ups find
just that; an entry that no step has put over since it was loaded is valid (`after_remembers`).
-/

namespace SpotMargin

namespace Config

variable {text : String} {config : Config} {name : String} {market : Market}

theorem named_of_ofText (described : ofText text = .ok config)
    (found : config.market? name = some market) : market.name = name := by
  obtain ⟨reader, read, -, rfl⟩ := ofText_eq_ok_iff.mp described
  exact (Reader.follows_of_readLines read).named name market found

theorem valid_of_ofText (described : ofText text = .ok config)
    (found : config.market? name = some market) : market.Valid := by
  obtain ⟨reader, -, checked, rfl⟩ := ofText_eq_ok_iff.mp described
  exact reader.config.markets.ensures_check.result_of_eq_ok checked name market found

end Config

namespace Session

/-- The step loads a text that describes the configuration. -/
def Step.Loads (step : Step) (config : Config) : Prop :=
  ∃ text, step = .load text ∧ Config.ofText text = .ok config

/-- None of the steps loads a text that is accepted. -/
def LoadFree (steps : List Step) : Prop :=
  ∀ step ∈ steps, ∀ config, ¬step.Loads config

/-- None of the steps puts a market under the name. -/
def PutFree (name : String) (steps : List Step) : Prop :=
  ∀ market, .withMarket name market ∉ steps

/-- Puts the market of a step into the table; most steps have none. -/
def Step.put (markets : Markets) : Step → Markets
  | .withMarket name market => markets.insert name { market with name }
  | _ => markets

/-- The table of the last accepted load, and the steps after it; before any such load, the empty
table and all steps. -/
inductive Since : List Step → Markets → List Step → Prop
  | start {steps : List Step} : LoadFree steps → Since steps .empty steps
  | load {front later : List Step} {step : Step} {config : Config} : step.Loads config →
      LoadFree later → Since (front ++ step :: later) config.markets later

/-- What has brought an entry into a table. -/
inductive Origin
  | load
  | put

/-- The market is the last that was written under the name, by the last load or since. -/
inductive Written (steps : List Step) (name : String) : Origin → Market → Prop
  | load {base : Markets} {later : List Step} {market : Market} : Since steps base later →
      base.find? name = some market → PutFree name later → Written steps name .load market
  | put {base : Markets} {front back : List Step} {market : Market} :
      Since steps base (front ++ .withMarket name market :: back) → PutFree name back →
      Written steps name .put { market with name }

variable {steps later : List Step} {base : Markets} {name : String} {market : Market}
  {state : State} {step : Step} {config : Config}

theorem Since.concat (since : Since steps base later) (quiet : ∀ config, ¬step.Loads config) :
    Since (steps ++ [step]) base (later ++ [step]) := by
  have extend {steps : List Step} (free : LoadFree steps) : LoadFree (steps ++ [step]) := by
    intro other mem
    rcases List.mem_append.mp mem with before | last
    · exact free other before
    · rw [List.mem_singleton.mp last]
      exact quiet
  cases since with
  | start free => exact .start (extend free)
  | load loads free =>
      rw [List.append_assoc, List.cons_append]
      exact .load loads (extend free)

theorem exists_since (steps : List Step) : ∃ base later, Since steps base later := by
  induction steps using List.reverseRecOn with
  | nil => exact ⟨_, _, .start fun step mem => by cases mem⟩
  | append_singleton steps step ih =>
      by_cases loads : ∃ config, step.Loads config
      · obtain ⟨config, loads⟩ := loads
        exact ⟨_, _, .load loads fun step mem => by cases mem⟩
      · obtain ⟨base, later, since⟩ := ih
        exact ⟨base, _, since.concat (not_exists.mp loads)⟩

/-- The steps put no market under the name, or there is a last one that they put there. -/
theorem putFree_or_exists_last (name : String) (steps : List Step) :
    PutFree name steps ∨
      ∃ front market back,
        steps = front ++ .withMarket name market :: back ∧ PutFree name back := by
  induction steps with
  | nil => exact .inl fun market mem => by cases mem
  | cons first rest ih =>
      rcases ih with free | ⟨front, market, back, rfl, free⟩
      · by_cases here : ∃ market, first = .withMarket name market
        · obtain ⟨market, rfl⟩ := here
          exact .inr ⟨[], market, rest, rfl, free⟩
        · refine .inl fun market mem => ?_
          rcases List.mem_cons.mp mem with same | later
          · exact here ⟨market, same.symm⟩
          · exact free market later
      · exact .inr ⟨first :: front, market, back, rfl, free⟩

theorem Step.put_of_isReadOnly (reads : step.isReadOnly = true) (markets : Markets) :
    step.put markets = markets := by
  cases step with
  | withMarket name market => cases reads
  | _ => rfl

theorem find?_put_of_ne (other : ∀ market, step ≠ .withMarket name market) (markets : Markets) :
    (step.put markets).find? name = markets.find? name := by
  cases step with
  | withMarket put_name market =>
      have distinct : name ≠ put_name := by
        rintro rfl
        exact other market rfl
      rw [Step.put, Markets.find?_insert, if_neg distinct]
  | _ => rfl

theorem find?_foldl_put (free : PutFree name steps) (base : Markets) :
    (steps.foldl Step.put base).find? name = base.find? name := by
  induction steps generalizing base with
  | nil => rfl
  | cons first rest ih =>
      have other (market : Market) : first ≠ .withMarket name market := by
        rintro rfl
        exact free market List.mem_cons_self
      rw [List.foldl_cons, ih fun market mem => free market (List.mem_cons_of_mem _ mem),
        find?_put_of_ne other]

theorem find?_foldl_put_last {front back : List Step} (free : PutFree name back)
    (base : Markets) :
    ((front ++ .withMarket name market :: back).foldl Step.put base).find? name =
      some { market with name } := by
  rw [List.foldl_append, List.foldl_cons, find?_foldl_put free, Step.put,
    Markets.find?_insert_self]

namespace State

theorem config_step_of_loads (loads : step.Loads config) (state : State) :
    (state.step step).state.config = config := by
  obtain ⟨text, rfl, described⟩ := loads
  have concluded := congrArg Prod.snd (step_eq_conclude state (.load text))
  rw [perform, Logged.result_bind, Config.result_load, described] at concluded
  exact congrArg State.config concluded

theorem markets_step (quiet : ∀ config, ¬step.Loads config) (state : State) :
    (state.step step).state.config.markets = step.put state.config.markets := by
  by_cases reads : step.isReadOnly = true
  · rw [state_of_isReadOnly reads, Step.put_of_isReadOnly reads]
  have concluded := congrArg Prod.snd (step_eq_conclude state step)
  cases step with
  | load text =>
      rw [perform, Logged.result_bind, Config.result_load] at concluded
      cases described : Config.ofText text with
      | ok config => exact absurd ⟨text, rfl, described⟩ (quiet config)
      | error error =>
          rw [described] at concluded
          exact congrArg (·.config.markets) concluded
  | applyLogging =>
      rw [perform, Logged.result_bind, Logged.result_lift] at concluded
      cases named : state.config.level <;> rw [named] at concluded <;>
        exact congrArg (·.config.markets) concluded
  | setLevel level =>
      rw [perform, Logged.result_bind, Logged.result_lift] at concluded
      cases named : Log.Level.ofName level <;> rw [named] at concluded <;>
        exact congrArg (·.config.markets) concluded
  | withMarket name market => rfl
  | setLogLevel level => rfl
  | setCategory category => rfl
  | _ => exact absurd rfl reads

theorem markets_after (free : LoadFree steps) (state : State) :
    (state.after steps).config.markets = steps.foldl Step.put state.config.markets := by
  induction steps generalizing state with
  | nil => rfl
  | cons first rest ih =>
      have rest_free : LoadFree rest := fun step mem => free step (List.mem_cons_of_mem _ mem)
      rw [after, List.foldl_cons, ← after, ih rest_free,
        markets_step (free first List.mem_cons_self), List.foldl_cons]

/-- The table is the one loaded last, with what has been put into it since. -/
theorem markets_after_since (since : Since steps base later) :
    (after {} steps).config.markets = later.foldl Step.put base := by
  cases since with
  | start free => exact markets_after free {}
  | load loads free =>
      rw [after, List.foldl_append, List.foldl_cons, ← after, ← after, markets_after free,
        config_step_of_loads loads]

end State

theorem Written.find? {origin : Origin} (written : Written steps name origin market) :
    (State.after {} steps).config.market? name = some market := by
  cases written with
  | load since found free =>
      rw [Config.market?, State.markets_after_since since, find?_foldl_put free, found]
  | put since free =>
      rw [Config.market?, State.markets_after_since since, find?_foldl_put_last free]

/-- Whatever a look-up finds has been written last. -/
theorem exists_written (found : (State.after {} steps).config.market? name = some market) :
    ∃ origin, Written steps name origin market := by
  obtain ⟨base, later, since⟩ := exists_since steps
  rw [Config.market?, State.markets_after_since since] at found
  rcases putFree_or_exists_last name later with free | ⟨front, put, back, rfl, free⟩
  · rw [find?_foldl_put free] at found
    exact ⟨.load, .load since found free⟩
  · rw [find?_foldl_put_last free] at found
    cases found
    exact ⟨.put, .put since free⟩

theorem market?_after_eq_some_iff :
    (State.after {} steps).config.market? name = some market ↔
      ∃ origin, Written steps name origin market :=
  ⟨exists_written, fun ⟨_, written⟩ => written.find?⟩

/-- An entry that has been loaded comes from a text that describes it. -/
theorem Written.exists_load (written : Written steps name .load market) :
    ∃ text config, Config.ofText text = .ok config ∧ config.market? name = some market := by
  cases written with
  | load since found free =>
      cases since with
      | start => cases found
      | load loads =>
          obtain ⟨text, -, described⟩ := loads
          exact ⟨text, _, described, found⟩

theorem Written.name_eq {origin : Origin} (written : Written steps name origin market) :
    market.name = name := by
  cases origin with
  | load =>
      obtain ⟨text, config, described, found⟩ := written.exists_load
      exact Config.named_of_ofText described found
  | put =>
      cases written
      rfl

theorem Written.valid (written : Written steps name .load market) : market.Valid := by
  obtain ⟨text, config, described, found⟩ := written.exists_load
  exact Config.valid_of_ofText described found

namespace State

theorem answer_marketByName (state : State) (name : String) :
    (state.step (.marketByName name)).answer = .ok (.market (state.config.market? name)) :=
  rfl

theorem answer_marketByIndex (state : State) (index : UInt16) :
    (state.step (.marketByIndex index)).answer =
      .ok (.market (state.config.marketByIndex? index)) :=
  rfl

theorem answer_validate (found : state.config.market? name = some market) (valid : market.Valid) :
    (state.step (.validate name)).answer = .ok (.checked true) := by
  have concluded := congrArg Prod.fst (step_eq_conclude state (.validate name))
  rw [perform, found, Logged.result_bind, Logged.result_lift, Market.check_eq_ok_iff.mpr valid]
    at concluded
  exact concluded

/-- On a valid market a worst case fails for an argument or by leaving the range. -/
theorem kind_of_worstCase_eq_error {position : Position} {price : StrictPrice} {error : Error}
    (found : state.config.market? name = some market) (valid : market.Valid)
    (failed : (state.step (.worstCase .standard name position price)).answer = .error error) :
    error.kind = .overflow ∨ error.kind = .argument := by
  have concluded :=
    congrArg Prod.fst (step_eq_conclude state (.worstCase .standard name position price))
  rw [failed, perform, found, Logged.result_bind] at concluded
  cases valued :
      (MarketMath.standard.worstCase position market price state.config.category).result with
  | ok scenario =>
      rw [valued] at concluded
      cases concluded
  | error cause =>
      rw [valued] at concluded
      cases concluded
      rcases MarketMath.worstCase_error_cases valid valued with ⟨-, leaves⟩ | ⟨-, cause, rfl⟩
      · exact .inl leaves.kind_eq
      · exact .inr rfl

end State

/-- The table of a state that a session has come to by the steps, as the steps tell and as later
steps find it. -/
structure Remembers (steps : List Step) (state : State) : Prop where
  since : ∃ base later, Since steps base later
  /-- The table is the one of that load with what has been put into it since. -/
  table : ∀ base later, Since steps base later → state.config.markets = later.foldl Step.put base
  /-- Markets are named as they are found. -/
  named : ∀ name market, (name, market) ∈ state.config.markets.entries → market.name = name
  /-- A name finds what has been written last under it. -/
  found : ∀ name market, (state.step (.marketByName name)).answer = .ok (.market (some market)) ↔
    ∃ origin, Written steps name origin market
  /-- A name under which nothing has been written finds nothing. -/
  absent : ∀ name, (state.step (.marketByName name)).answer = .ok (.market none) ↔
    ∀ origin market, ¬Written steps name origin market
  /-- A number finds nothing when no market has it. -/
  unnumbered : ∀ index, (state.step (.marketByIndex index)).answer = .ok (.market none) ↔
    ∀ entry ∈ state.config.markets.entries, entry.2.index ≠ index
  /-- A number that some market has finds a market with that number. -/
  numbered : ∀ index, (∃ entry ∈ state.config.markets.entries, entry.2.index = index) →
    ∃ name market, (name, market) ∈ state.config.markets.entries ∧ market.index = index ∧
      (state.step (.marketByIndex index)).answer = .ok (.market (some market))
  /-- Of loaded entries, those that have not been put over are valid, and are valued without a
  failure that the market would be to blame for. -/
  loaded : ∀ name market, Written steps name .load market → market.Valid ∧
    (state.step (.validate name)).answer = .ok (.checked true) ∧
    ∀ position price error,
      (state.step (.worstCase .standard name position price)).answer = .error error →
        error.kind = .overflow ∨ error.kind = .argument

/-- However long a session has been, its table is what the last load and the steps since have made
of it, look-ups find just what was written last, and what a load wrote last is valid. -/
theorem after_remembers (steps : List Step) : Remembers steps (State.after {} steps) where
  since := exists_since steps
  table := fun _ _ => State.markets_after_since
  named := by
    intro name market mem
    obtain ⟨origin, written⟩ := exists_written (Markets.mem_entries_iff.mp mem)
    exact written.name_eq
  found := by
    intro name market
    rw [State.answer_marketByName, Except.ok.injEq, Answer.market.injEq, market?_after_eq_some_iff]
  absent := by
    intro name
    rw [State.answer_marketByName, Except.ok.injEq, Answer.market.injEq,
      Option.eq_none_iff_forall_ne_some]
    simp only [ne_eq, market?_after_eq_some_iff, not_exists]
    exact forall_comm
  unnumbered := by
    intro index
    rw [State.answer_marketByIndex, Except.ok.injEq, Answer.market.injEq, Config.marketByIndex?,
      Markets.findIndex?_eq_none_iff]
  numbered := by
    rintro index ⟨entry, mem, index_eq⟩
    cases found : (State.after {} steps).config.marketByIndex? index with
    | none => exact absurd index_eq (Markets.findIndex?_eq_none_iff.mp found entry mem)
    | some market =>
        obtain ⟨name, held, market_index⟩ := Markets.exists_of_findIndex?_eq_some found
        exact ⟨name, market, held, market_index, by rw [State.answer_marketByIndex, found]⟩
  loaded := by
    intro name market written
    refine ⟨written.valid, State.answer_validate written.find? written.valid, ?_⟩
    intro position price error failed
    exact State.kind_of_worstCase_eq_error written.find? written.valid failed

/-- A market that a load puts over, a load that is refused, and a loaded market that another puts
over which is not valid. -/
theorem after_remembers_reloaded_markets :
    let text := "[market.SOL]\nmarket_index = 4\n[market.BTC]"
    let steps : List Step := [.withMarket "SOL" { initialAssetWeight := 20000 }, .load text,
      .load "[market.ETH", .withMarket "BTC" { index := 7, decimals := 40 }]
    let state := State.after {} steps
    Written steps "SOL" .load { name := "SOL", index := 4 } ∧
      Written steps "BTC" .put { name := "BTC", index := 7, decimals := 40 } ∧
      (state.step (.marketByName "ETH")).answer = .ok (.market none) ∧
      (state.step (.marketByIndex 4)).answer =
        .ok (.market (some { name := "SOL", index := 4 })) ∧
      (state.step (.validate "SOL")).answer = .ok (.checked true) := by
  intro text steps state
  have loads : Step.Loads (.load text)
      { markets := (Markets.empty.insert "SOL" { name := "SOL", index := 4 }).insert "BTC"
          { name := "BTC" } } := ⟨text, rfl, by decide +kernel⟩
  have refused : Config.ofText "[market.ETH" = .error (.line 1 .unterminatedHeader) := by
    decide +kernel
  have free : LoadFree [.load "[market.ETH", .withMarket "BTC" { index := 7, decimals := 40 }] := by
    rintro step mem config ⟨other, rfl, described⟩
    simp only [List.mem_cons, Step.load.injEq, reduceCtorEq, List.not_mem_nil, or_false] at mem
    subst mem
    cases refused.symm.trans described
  have since : Since steps _ _ := @Since.load [_] _ _ _ loads free
  have sol : Written steps "SOL" .load { name := "SOL", index := 4 } :=
    .load since (by decide) (by simp [PutFree])
  have btc : Written steps "BTC" .put { name := "BTC", index := 7, decimals := 40 } :=
    @Written.put _ _ _ [_] [] _ since (by simp [PutFree])
  have remembers := after_remembers steps
  have table := remembers.table _ _ since
  refine ⟨sol, btc, ?_, ?_, (remembers.loaded _ _ sol).2.1⟩
  · rw [State.answer_marketByName, Config.market?, table]
    rfl
  · rw [State.answer_marketByIndex, Config.marketByIndex?, table]
    rfl

end Session
end SpotMargin
