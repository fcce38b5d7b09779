import SpotMargin.Config.Reader
import SpotMargin.Scenario

/-!
# Sessions

A session carries a configuration and the level of a logger through a list of steps.  A step that
fails leaves both as they were.
-/

namespace SpotMargin
namespace Session

/-- What a session carries from step to step. -/
structure State where
  config : Config := {}
  /-- The level of the logger, which need not be the one that the configuration names. -/
  level : Log.Level := .warn
  deriving DecidableEq, Inhabited

/-- A step of a session. -/
inductive Step
  | load (text : String)
  /-- Puts a market into the table, valid or not. -/
  | withMarket (name : String) (market : Market)
  /-- Names a log level in the configuration; the logger keeps its own. -/
  | setLogLevel (name : String)
  | setCategory (category : MarginCategory)
  /-- Sets the logger to the level that the configuration names. -/
  | applyLogging
  | setLevel (name : String)
  | marketByName (name : String)
  | marketByIndex (index : UInt16)
  /-- Checks the market with the given name, if there is one. -/
  | validate (name : String)
  /-- Values a position in the market with the given name, if there is one, in the margin category
  of the configuration. -/
  | worstCase (math : MarketMath) (name : String) (position : Position) (price : StrictPrice)

/-- What a step answers when it succeeds. -/
inductive Answer
  | done
  | market (found : Option Market)
  /-- Whether there is such a market, which is valid then. -/
  | checked (found : Bool)
  | scenario (found : Option Scenario)
  deriving DecidableEq

/-- The step only reads the state. -/
def Step.isReadOnly : Step → Bool
  | marketByName _ | marketByIndex _ | validate _ | worstCase _ _ _ _ => true
  | load _ | withMarket _ _ | setLogLevel _ | setCategory _ | applyLogging | setLevel _ => false

/-- What became of a step. -/
structure Outcome where
  answer : Except Error Answer
  /-- The events that the logger kept. -/
  events : List Log.Event
  state : State

namespace State

/-- Carries out a step: the answer and the state after it. -/
def perform (state : State) : Step → Logged (Answer × State)
  | .load text => do
      let config ← Config.load text
      return (.done, { state with config })
  | .withMarket name market =>
      return (.done, { state with config := state.config.withMarket name market })
  | .setLogLevel name =>
      return (.done, { state with config.logLevel := name })
  | .setCategory category =>
      return (.done, { state with config.category := category })
  | .applyLogging => do
      let level ← state.config.level
      return (.done, { state with level })
  | .setLevel name => do
      let level ← Log.Level.ofName name
      return (.done, { state with level })
  | .marketByName name =>
      return (.market (state.config.market? name), state)
  | .marketByIndex index =>
      return (.market (state.config.marketByIndex? index), state)
  | .validate name =>
      match state.config.market? name with
      | none => return (.checked false, state)
      | some market => do
          market.check
          return (.checked true, state)
  | .worstCase math name position price =>
      match state.config.market? name with
      | none => return (.scenario none, state)
      | some market => do
          let scenario ← math.worstCase position market price state.config.category
          return (.scenario (some scenario), state)

/-- Carries out a step, where a failure leaves the state as it was.  The logger drops events by the
level that it has before the step. -/
def step (state : State) (step : Step) : Outcome :=
  let performed := state.perform step
  let events := Log.kept state.level performed.events
  match performed.result with
  | .ok (answer, next) => { answer := .ok answer, events, state := next }
  | .error error => { answer := .error error, events, state }

/-- Carries out steps in order. -/
def run (state : State) : List Step → List Outcome
  | [] => []
  | first :: rest =>
      let outcome := state.step first
      outcome :: outcome.state.run rest

/-- The state after steps in order. -/
def after (state : State) (steps : List Step) : State :=
  steps.foldl (fun state step => (state.step step).state) state

@[simp]
theorem run_nil (state : State) : state.run [] = [] :=
  rfl

@[simp]
theorem run_cons (state : State) (first : Step) (rest : List Step) :
    state.run (first :: rest) = state.step first :: (state.step first).state.run rest :=
  rfl

theorem run_append (state : State) (front back : List Step) :
    state.run (front ++ back) = state.run front ++ (state.after front).run back := by
  induction front generalizing state with
  | nil => rfl
  | cons first rest ih => simp [after, ih]

end State
end Session
end SpotMargin
