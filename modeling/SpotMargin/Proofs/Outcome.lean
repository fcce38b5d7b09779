import SpotMargin.Log.Logged

/-!
# Outcomes of computations

What a computation that may fail is known to end with.  `Ensures fault post x` speaks of both ends:
a result of `x` satisfies `post`, and a failure of `x` satisfies `fault`.  A sequence of steps is
followed through `Ensures.bind`, with one statement for each step.
-/

namespace SpotMargin

variable {α β : Type} {fault other : Error → Prop} {post weaker : α → Prop}

/-- The computation ends with a result that satisfies `post`, or with a failure that satisfies
`fault`. -/
def Ensures (fault : Error → Prop) (post : α → Prop) (x : Except Error α) : Prop :=
  match x with
  | .ok result => post result
  | .error error => fault error

namespace Ensures

@[simp]
theorem ok_iff {result : α} : Ensures fault post (.ok result) ↔ post result :=
  Iff.rfl

@[simp]
theorem error_iff {error : Error} : Ensures fault post (.error error) ↔ fault error :=
  Iff.rfl

@[simp]
theorem pure_iff {result : α} : Ensures fault post (pure result) ↔ post result :=
  Iff.rfl

theorem iff_forall {x : Except Error α} :
    Ensures fault post x ↔
      (∀ result, x = .ok result → post result) ∧ ∀ error, x = .error error → fault error := by
  cases x <;> simp

theorem result_of_eq_ok {x : Except Error α} {result : α} (ensures : Ensures fault post x)
    (returned : x = .ok result) : post result := by
  subst returned
  exact ensures

theorem fault_of_eq_error {x : Except Error α} {error : Error} (ensures : Ensures fault post x)
    (failed : x = .error error) : fault error := by
  subst failed
  exact ensures

theorem imp {x : Except Error α} (ensures : Ensures fault post x)
    (results : ∀ result, post result → weaker result)
    (faults : ∀ error, fault error → other error) : Ensures other weaker x := by
  cases x with
  | ok result => exact results result ensures
  | error error => exact faults error ensures

theorem mono {x : Except Error α} (ensures : Ensures fault post x)
    (results : ∀ result, post result → weaker result) : Ensures fault weaker x :=
  ensures.imp results fun _ same => same

theorem bind {x : Except Error α} {next : α → Except Error β} {last : β → Prop}
    (first : Ensures fault post x) (rest : ∀ a, post a → Ensures fault last (next a)) :
    Ensures fault last (x >>= next) := by
  cases x with
  | ok a => exact rest a first
  | error error => exact first

/-- A result that is known of is the one that is returned. -/
theorem and_returned {x : Except Error α} (ensures : Ensures fault post x) :
    Ensures fault (fun result => x = .ok result ∧ post result) x := by
  cases x with
  | ok result => exact ⟨rfl, ensures⟩
  | error error => exact ensures

/-- The results of computations that report events are followed in the same way. -/
theorem logged_bind {x : Logged α} {next : α → Logged β} {last : β → Prop}
    (first : Ensures fault post x.result)
    (rest : ∀ a, post a → Ensures fault last (next a).result) :
    Ensures fault last (x >>= next).result := by
  rw [Logged.result_bind]
  exact first.bind rest

/-- Nothing needs to be known about the result of the first step. -/
theorem bind_any {x : Except Error α} {next : α → Except Error β} {last : β → Prop}
    (first : Ensures fault (fun _ => True) x) (rest : ∀ a, Ensures fault last (next a)) :
    Ensures fault last (x >>= next) :=
  first.bind fun a _ => rest a

theorem foldlM_any {step : α → β → Except Error α}
    (steps : ∀ a b, Ensures fault (fun _ => True) (step a b)) (items : List β) (start : α) :
    Ensures fault (fun _ => True) (items.foldlM step start) := by
  induction items generalizing start with
  | nil => trivial
  | cons item items ih => exact (steps start item).bind_any ih

end Ensures

@[simp]
theorem ok_bind (a : α) (next : α → Except Error β) : (Except.ok a >>= next) = next a :=
  rfl

/-- A sequence of two steps returns exactly when both steps return. -/
@[simp]
theorem bind_eq_ok_iff {x : Except Error α} {next : α → Except Error β} {result : β} :
    (x >>= next) = .ok result ↔ ∃ a, x = .ok a ∧ next a = .ok result := by
  cases x with
  | ok a =>
      constructor
      · intro returned
        exact ⟨a, rfl, returned⟩
      · rintro ⟨_, same, returned⟩
        cases same
        exact returned
  | error error =>
      constructor
      · intro returned
        cases returned
      · rintro ⟨_, same, _⟩
        cases same

/-- A sequence of two steps fails exactly when one of them is reached and fails. -/
theorem bind_eq_error_iff {x : Except Error α} {next : α → Except Error β} {error : Error} :
    (x >>= next) = .error error ↔ x = .error error ∨ ∃ a, x = .ok a ∧ next a = .error error := by
  cases x with
  | ok a =>
      constructor
      · intro failed
        exact .inr ⟨a, rfl, failed⟩
      · rintro (⟨⟨⟩⟩ | ⟨_, ⟨⟩, failed⟩)
        exact failed
  | error cause =>
      constructor
      · rintro ⟨⟩
        exact .inl rfl
      · rintro (⟨⟨⟩⟩ | ⟨_, ⟨⟩, _⟩)
        rfl

section Passes

variable {x : Except Error α} {check : α → Except Error Unit} {result : α} {error : Error}

theorem passes_eq_ok_iff :
    (do
      let a ← x
      check a
      return a) = .ok result ↔ x = .ok result ∧ check result = .ok () := by
  rw [bind_eq_ok_iff]
  constructor
  · rintro ⟨a, returned, passed⟩
    obtain ⟨⟨⟩, passed, same⟩ := bind_eq_ok_iff.mp passed
    cases same
    exact ⟨returned, passed⟩
  · rintro ⟨returned, passed⟩
    exact ⟨result, returned, bind_eq_ok_iff.mpr ⟨(), passed, rfl⟩⟩

theorem passes_eq_error_iff :
    (do
      let a ← x
      check a
      return a) = .error error ↔
      x = .error error ∨ ∃ a, x = .ok a ∧ check a = .error error := by
  have last (a : α) : (do check a; return a) = .error error ↔ check a = .error error := by
    rw [bind_eq_error_iff]
    constructor
    · rintro (failed | ⟨_, _, ⟨⟩⟩)
      exact failed
    · exact .inl
  simp only [bind_eq_error_iff (x := x), last]

end Passes

section MapError

variable {x y : Except Error α} {change : Error → Error}

theorem mapError_bind (x : Except Error α) (next : α → Except Error β) (change : Error → Error) :
    (x >>= next).mapError change = x.mapError change >>= fun a => (next a).mapError change := by
  cases x with
  | ok a => rfl
  | error error => rfl

/-- Computations that agree up to a change of their failures have the same result or both fail. -/
theorem ok_or_error_of_mapError_eq (same : y.mapError change = x.mapError change) :
    (∃ result, x = .ok result ∧ y = .ok result) ∨
      ∃ error other, x = .error error ∧ y = .error other ∧ change other = change error := by
  cases x with
  | ok result =>
      cases y with
      | ok other => exact .inl ⟨result, rfl, same⟩
      | error error => cases same
  | error error =>
      cases y with
      | ok other => cases same
      | error other => exact .inr ⟨error, other, rfl, rfl, Except.error.inj same⟩

end MapError

end SpotMargin
