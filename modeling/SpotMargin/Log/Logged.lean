import SpotMargin.Log.Basic

/-!
# Computations that report events

A `Logged` computation yields a result or a failure, and in both cases the events that it reported
on the way, before any logger has dropped some.  Each operation comes with its two projections.
-/

namespace SpotMargin

/-- A result or a failure, with the events reported on the way. -/
structure Logged (α : Type) where
  result : Except Error α
  events : List Log.Event

namespace Logged

variable {α β : Type}

@[ext]
theorem ext {x y : Logged α} (result : x.result = y.result) (events : x.events = y.events) :
    x = y := by
  cases x
  cases y
  simp_all

protected def pure (a : α) : Logged α :=
  ⟨.ok a, []⟩

/-- Continues with the result, if there is one; the events of the continuation come last. -/
protected def bind (x : Logged α) (next : α → Logged β) : Logged β :=
  match x.result with
  | .ok a => ⟨(next a).result, x.events ++ (next a).events⟩
  | .error error => ⟨.error error, x.events⟩

instance : Monad Logged where
  pure := Logged.pure
  bind := Logged.bind

/-- A computation that reports nothing. -/
def ofExcept (x : Except Error α) : Logged α :=
  ⟨x, []⟩

instance : MonadLift (Except Error) Logged where
  monadLift := ofExcept

def report (event : Log.Event) : Logged Unit :=
  ⟨.ok (), [event]⟩

def reject (event : Log.Event) (error : Error) : Logged α :=
  ⟨.error error, [event]⟩

@[simp]
theorem result_pure (a : α) : (pure a : Logged α).result = .ok a :=
  rfl

@[simp]
theorem result_bind (x : Logged α) (next : α → Logged β) :
    (x >>= next).result = x.result >>= fun a => (next a).result := by
  change (Logged.bind x next).result = _
  unfold Logged.bind
  cases x.result <;> rfl

@[simp]
theorem result_lift (x : Except Error α) : (liftM x : Logged α).result = x :=
  rfl

@[simp]
theorem events_lift (x : Except Error α) : (liftM x : Logged α).events = [] :=
  rfl

@[simp]
theorem result_report (event : Log.Event) : (report event).result = .ok () :=
  rfl

@[simp]
theorem events_report (event : Log.Event) : (report event).events = [event] :=
  rfl

@[simp]
theorem result_reject (event : Log.Event) (error : Error) :
    (reject event error : Logged α).result = .error error :=
  rfl

@[simp]
theorem events_reject (event : Log.Event) (error : Error) :
    (reject event error : Logged α).events = [event] :=
  rfl

theorem result_forM (items : List α) (step : α → Logged Unit) :
    (items.forM step).result = items.forM fun item => (step item).result := by
  induction items with
  | nil => rfl
  | cons item rest ih =>
      change (step item >>= fun _ => rest.forM step).result = _
      rw [result_bind]
      simp only [ih]
      rfl

private theorem bind_pure (x : Logged α) : x.bind Logged.pure = x := by
  unfold Logged.bind
  split <;> ext1 <;> simp_all [Logged.pure]

private theorem pure_bind (a : α) (next : α → Logged β) : (Logged.pure a).bind next = next a :=
  rfl

private theorem bind_assoc {γ : Type} (x : Logged α) (next : α → Logged β) (last : β → Logged γ) :
    (x.bind next).bind last = x.bind fun a => (next a).bind last := by
  unfold Logged.bind
  cases x.result with
  | error => rfl
  | ok a =>
      dsimp only
      cases (next a).result <;> simp

instance : LawfulMonad Logged :=
  LawfulMonad.mk' Logged bind_pure pure_bind bind_assoc

end Logged
end SpotMargin
