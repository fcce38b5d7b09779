import SpotMargin.Session

/-!
# Steps are atomic

A step that fails leaves the state as it was, and so does a step that only reads.  Nothing has to be
taken back for that: `inPlace` carries a step out on a state that is written as the step goes, and
comes to the same (`inPlace_eq`), since no step fails once it has written.  So a session does not
notice when its failing and its reading steps are left out (`run_atomic`).
-/

namespace SpotMargin
namespace Session

/-- Carries a step out on a state that is written as it goes.  A failure takes nothing back. -/
def Step.inPlace : Step → ExceptT Error (StateM State) Answer
  | load text => do
      let config ← ofExcept (Config.ofText text)
      modify fun state => { state with config }
      return .done
  | withMarket name market => do
      modify fun state => { state with config := state.config.withMarket name market }
      return .done
  | setLogLevel name => do
      modify fun state => { state with config.logLevel := name }
      return .done
  | setCategory category => do
      modify fun state => { state with config.category := category }
      return .done
  | applyLogging => do
      let level ← ofExcept (← get).config.level
      modify fun state => { state with level }
      return .done
  | setLevel name => do
      let level ← ofExcept (Log.Level.ofName name)
      modify fun state => { state with level }
      return .done
  | marketByName name =>
      return .market ((← get).config.market? name)
  | marketByIndex index =>
      return .market ((← get).config.marketByIndex? index)
  | validate name => do
      match (← get).config.market? name with
      | none => return .checked false
      | some market =>
          ofExcept market.check
          return .checked true
  | worstCase math name position price => do
      match (← get).config.market? name with
      | none => return .scenario none
      | some market =>
          let category := (← get).config.category
          let valued := math.worstCase position market price category
          return .scenario (some (← ofExcept valued.result))

namespace State

/-- What a step performed in a state comes to: an answer with the state after it, or a failure with
the old state. -/
def conclude (state : State) : Except Error (Answer × State) → Except Error Answer × State
  | .ok (answer, next) => (.ok answer, next)
  | .error error => (.error error, state)

theorem step_eq_conclude (state : State) (step : Step) :
    ((state.step step).answer, (state.step step).state) =
      state.conclude (state.perform step).result := by
  unfold State.step conclude
  generalize state.perform step = performed
  obtain ⟨result, events⟩ := performed
  cases result <;> rfl

/-- Reading the state does not change it. -/
private theorem run_get_bind (next : State → ExceptT Error (StateM State) Answer)
    (state : State) : (get >>= next).run.run state = (next state).run.run state :=
  rfl

/-- A step that is written as it goes comes to the same. -/
theorem inPlace_eq (state : State) (step : Step) :
    step.inPlace.run.run state = ((state.step step).answer, (state.step step).state) := by
  rw [step_eq_conclude]
  cases step with
  | load text =>
      rw [perform, Step.inPlace, Logged.result_bind, Config.result_load]
      cases Config.ofText text <;> rfl
  | applyLogging =>
      rw [perform, Step.inPlace, run_get_bind, Logged.result_bind]
      cases state.config.level <;> rfl
  | setLevel name =>
      rw [perform, Step.inPlace, Logged.result_bind]
      cases Log.Level.ofName name <;> rfl
  | validate name =>
      rw [perform, Step.inPlace, run_get_bind]
      cases state.config.market? name with
      | none => rfl
      | some market =>
          simp only [Logged.result_bind, Logged.result_lift]
          cases market.check <;> rfl
  | worstCase math name position price =>
      rw [perform, Step.inPlace, run_get_bind]
      cases state.config.market? name with
      | none => rfl
      | some market =>
          rw [Logged.result_bind]
          dsimp only
          rw [run_get_bind]
          generalize (math.worstCase position market price state.config.category).result = valued
          cases valued <;> rfl
  | _ => rfl

theorem state_of_error {state : State} {step : Step} {error : Error}
    (failed : (state.step step).answer = .error error) : (state.step step).state = state := by
  have concluded := step_eq_conclude state step
  cases performed : (state.perform step).result with
  | ok result =>
      rw [performed, conclude, failed] at concluded
      cases concluded
  | error error =>
      rw [performed] at concluded
      exact congrArg Prod.snd concluded

theorem state_of_isReadOnly {step : Step} (reads : step.isReadOnly = true) (state : State) :
    (state.step step).state = state := by
  have concluded := congrArg Prod.snd (step_eq_conclude state step)
  cases step with
  | marketByName name => exact concluded
  | marketByIndex index => exact concluded
  | validate name =>
      rw [perform] at concluded
      cases found : state.config.market? name with
      | none => rwa [found] at concluded
      | some market =>
          rw [found, Logged.result_bind, Logged.result_lift] at concluded
          cases checked : market.check <;> rwa [checked] at concluded
  | worstCase math name position price =>
      rw [perform] at concluded
      cases found : state.config.market? name with
      | none => rwa [found] at concluded
      | some market =>
          rw [found, Logged.result_bind] at concluded
          cases valued : (math.worstCase position market price state.config.category).result <;>
            rwa [valued] at concluded
  | _ => cases reads

/-- The steps that `keep` selects by what becomes of them, each with its outcome. -/
def selected (state : State) (keep : Step × Outcome → Bool) (steps : List Step) :
    List (Step × Outcome) :=
  (steps.zip (state.run steps)).filter keep

variable {keep : Step × Outcome → Bool}

/-- Steps that leave the state alone are not missed when they are left out. -/
theorem run_selected
    (idle : ∀ (state : State) (step : Step), keep (step, state.step step) = false →
      (state.step step).state = state)
    (start : State) (steps : List Step) :
    start.run ((start.selected keep steps).map Prod.fst) =
        (start.selected keep steps).map Prod.snd ∧
      start.after ((start.selected keep steps).map Prod.fst) = start.after steps := by
  induction steps generalizing start with
  | nil => exact ⟨rfl, rfl⟩
  | cons first rest ih =>
      have later := ih (start.step first).state
      cases kept : keep (first, start.step first) with
      | true => simpa [selected, kept, after] using later
      | false =>
          rw [idle start first kept] at later
          simpa [selected, kept, after, idle start first kept] using later

/-- The step did something: it succeeded, and it is not one that only reads. -/
def acted (item : Step × Outcome) : Bool :=
  item.2.answer.isOk && !item.1.isReadOnly

/-- A step that fails or only reads leaves the state as it was, also when the state is written as
the step goes; and the other steps answer, log and leave behind the same without any such step. -/
theorem run_atomic (start : State) (steps : List Step) :
    (∀ front step back, steps = front ++ step :: back →
      let before := start.after front
      let outcome := before.step step
      start.run steps = start.run front ++ outcome :: outcome.state.run back ∧
        step.inPlace.run.run before = (outcome.answer, outcome.state) ∧
        ((∃ error, outcome.answer = .error error) ∨ step.isReadOnly = true →
          outcome.state = before)) ∧
    start.run ((start.selected acted steps).map Prod.fst) =
      (start.selected acted steps).map Prod.snd ∧
    start.after ((start.selected acted steps).map Prod.fst) = start.after steps := by
  refine ⟨?_, run_selected ?_ start steps⟩
  · rintro front step back rfl
    refine ⟨by rw [run_append, run_cons], inPlace_eq _ step, ?_⟩
    rintro (⟨error, failed⟩ | reads)
    · exact state_of_error failed
    · exact state_of_isReadOnly reads _
  · intro state step idle
    rw [acted, Bool.and_eq_false_iff, Bool.not_eq_false'] at idle
    rcases idle with failed | reads
    · cases answered : (state.step step).answer with
      | ok answer =>
          rw [answered] at failed
          cases failed
      | error error => exact state_of_error answered
    · exact state_of_isReadOnly reads state

/-- A text with a market that is not valid and a level that does not exist, among steps that act. -/
theorem run_atomic_past_failures :
    let put := Step.withMarket "SOL" { decimals := 9 }
    let load := Step.load "[market.BTC]\nmarket_index = 3\nimf_factor = -1"
    let steps := [put, load, .setLevel "loud", .marketByName "SOL", .setLevel "debug"]
    let before := State.after {} [put]
    steps = [put] ++ load :: [.setLevel "loud", .marketByName "SOL", .setLevel "debug"] ∧
      (before.step load).answer = .error (.market "BTC" (.negative .imfFactor)) ∧
      (before.step load).state = before ∧
      (State.selected {} acted steps).map Prod.fst = [put, .setLevel "debug"] ∧
      State.run {} [put, .setLevel "debug"] = (State.selected {} acted steps).map Prod.snd := by
  intro put load steps before
  have failed : (before.step load).answer = .error (.market "BTC" (.negative .imfFactor)) :=
    rfl
  have acting : (State.selected {} acted steps).map Prod.fst = [put, .setLevel "debug"] :=
    rfl
  have atomic := run_atomic {} steps
  refine ⟨rfl, failed, (atomic.1 [put] load _ rfl).2.2 (.inl ⟨_, failed⟩), acting, ?_⟩
  rw [← acting]
  exact atomic.2.1

end State
end Session
end SpotMargin
