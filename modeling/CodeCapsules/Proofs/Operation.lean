import CodeCapsules.Operation

/-!
Contract: what an answer and an operation come to when their events are left
aside.

Owns:
- the outcome of answers that are put together;
- `Answered`, an outcome that is not a halt;
- `result`, the outcome of an operation with the device it leaves, and one law
  for each way in which operations are put together.

Does not own: events. Two operations with the same result may report
differently.
-/

namespace CodeCapsules

namespace Outcome

variable {ε ε' α : Type}

@[simp]
theorem mapCause_ok (rename : ε → ε') (value : α) :
    mapCause rename (.ok value : Outcome ε α) = .ok value := rfl

@[simp]
theorem mapCause_refused (rename : ε → ε') (cause : ε) :
    mapCause rename (.error (.refused cause) : Outcome ε α) = .error (.refused (rename cause)) :=
  rfl

@[simp]
theorem ofExcept_ok (value : α) : ofExcept (.ok value : Except ε α) = .ok value := rfl

@[simp]
theorem ofExcept_error (cause : ε) : ofExcept (.error cause : Except ε α) = refuse cause := rfl

@[simp]
theorem bind_ok {β : Type} (value : α) (next : α → Except ε β) :
    ((.ok value : Except ε α) >>= next) = next value := rfl

@[simp]
theorem bind_error {β : Type} (stop : ε) (next : α → Except ε β) :
    ((.error stop : Except ε α) >>= next) = .error stop := rfl

theorem bind_eq_ok {β : Type} {first : Except ε α} {next : α → Except ε β} {value : β} :
    (first >>= next) = .ok value ↔ ∃ middle, first = .ok middle ∧ next middle = .ok value := by
  cases first with
  | ok middle => simp
  | error stop => simp

/-- A check in front of an answer that produced a value was passed. -/
theorem guard_eq_ok {condition : Prop} [Decidable condition] {cause : ε}
    {next : PUnit → Except ε α} {rest : Except ε α} {value : α} :
    (if condition then throw cause >>= next else rest) = .ok value ↔
      ¬ condition ∧ rest = .ok value := by
  split
  · rename_i holds
    exact ⟨nofun, fun passed => absurd holds passed.1⟩
  · rename_i passed
    exact ⟨fun returned => ⟨passed, returned⟩, fun both => both.2⟩

theorem mapError_eq_ok {rename : ε → ε'} {answer : Except ε α} {value : α} :
    answer.mapError rename = .ok value ↔ answer = .ok value := by
  cases answer with
  | ok given =>
      show Except.ok given = Except.ok value ↔ Except.ok given = Except.ok value
      rw [Except.ok.injEq, Except.ok.injEq]
  | error cause =>
      show Except.error (rename cause) = Except.ok value ↔ Except.error cause = Except.ok value
      simp only [reduceCtorEq]

theorem ofExcept_eq_ok {answer : Except ε α} {value : α} :
    ofExcept answer = .ok value ↔ answer = .ok value := by
  cases answer with
  | ok given => simp
  | error cause => simp [refuse]

theorem mapCause_eq_ok {rename : ε → ε'} {outcome : Outcome ε α} {value : α} :
    mapCause rename outcome = .ok value ↔ outcome = .ok value := by
  cases outcome with
  | ok given => simp
  | error stop => simp [mapCause]

/-- The outcome is a value or a refusal, not a halt. -/
def Answered (outcome : Outcome ε α) : Prop :=
  ∀ halt, outcome ≠ .error (.halted halt)

@[simp]
theorem answered_ok (value : α) : Answered (.ok value : Outcome ε α) := nofun

@[simp]
theorem answered_refuse (cause : ε) : Answered (refuse cause : Outcome ε α) := nofun

@[simp]
theorem answered_ofExcept (answer : Except ε α) : Answered (ofExcept answer) := by
  cases answer with
  | ok value => simp
  | error cause => simp

theorem not_answered_halt (halted : Halt) : ¬ Answered (halt halted : Outcome ε α) :=
  fun answered => answered halted rfl

@[simp]
theorem answered_mapCause (rename : ε → ε') (outcome : Outcome ε α) :
    Answered (mapCause rename outcome) ↔ Answered outcome := by
  cases outcome with
  | ok value => simp
  | error stop =>
      cases stop with
      | refused cause => exact ⟨fun _ => answered_refuse cause, fun _ => answered_refuse _⟩
      | halted halt =>
          exact ⟨fun answered => absurd rfl (answered halt),
            fun answered => absurd rfl (answered halt)⟩

@[simp]
theorem answered_map {β : Type} (change : α → β) (outcome : Outcome ε α) :
    Answered (Except.map change outcome : Outcome ε β) ↔ Answered outcome := by
  cases outcome with
  | ok value => exact ⟨fun _ => nofun, fun _ => nofun⟩
  | error stop => simp [Answered, Except.map]

/-- A refusal stays one, whatever value was asked for. -/
theorem Answered.error {β : Type} {stop : Stop ε}
    (answered : Answered (.error stop : Outcome ε α)) : Answered (.error stop : Outcome ε β) :=
  fun halt halted => answered halt (congrArg Except.error (Except.error.inj halted))

/-- Two steps are answered if the first is, and the second wherever the first
leads. -/
theorem Answered.bind {β : Type} {first : Outcome ε α} {next : α → Outcome ε β}
    (firstAnswered : Answered first)
    (nextAnswered : ∀ value, first = .ok value → Answered (next value)) :
    Answered (first >>= next) := by
  cases first with
  | ok value => exact nextAnswered value rfl
  | error stop => exact firstAnswered.error

end Outcome

namespace Logged

variable {ε α β : Type}

@[simp]
theorem outcome_pure (value : α) : (pure value : Logged ε α).outcome = .ok value := rfl

@[simp]
theorem outcome_report (event : Event) : (report event : Logged ε Unit).outcome = .ok () := rfl

@[simp]
theorem outcome_refuse (cause : ε) :
    (refuse cause : Logged ε α).outcome = Outcome.refuse cause := rfl

@[simp]
theorem outcome_ofOutcome (outcome : Outcome ε α) : (ofOutcome outcome).outcome = outcome := rfl

/-- The outcome of two answers in sequence does not depend on their events. -/
@[simp]
theorem outcome_bind (first : Logged ε α) (next : α → Logged ε β) :
    (first >>= next).outcome = first.outcome >>= fun value => (next value).outcome := by
  show (andThen first next).outcome = _
  unfold andThen
  cases first.outcome with
  | ok value => rfl
  | error stop => rfl

end Logged

namespace Operation

variable {δ δ' ε ε' α β : Type}

/-- The outcome of an operation and the device it leaves. -/
def result (operation : Operation δ ε α) (device : δ) : Outcome ε α × δ :=
  ((operation device).1.outcome, (operation device).2)

/-- What follows the first of two operations: the second, if the first
produced its value. -/
def continueWith (next : α → Operation δ ε β) : Outcome ε α × δ → Outcome ε β × δ
  | (.ok value, device) => (next value).result device
  | (.error stop, device) => (.error stop, device)

@[simp]
theorem continueWith_ok (next : α → Operation δ ε β) (value : α) (device : δ) :
    continueWith next (.ok value, device) = (next value).result device := rfl

@[simp]
theorem continueWith_error (next : α → Operation δ ε β) (stop : Stop ε) (device : δ) :
    continueWith next (.error stop, device) = (.error stop, device) := rfl

@[simp]
theorem continueWith_refuse (next : α → Operation δ ε β) (cause : ε) (device : δ) :
    continueWith next (Outcome.refuse cause, device) = (Outcome.refuse cause, device) := rfl

/-- The second operation runs on the device that the first leaves. -/
@[simp]
theorem result_bind (first : Operation δ ε α) (next : α → Operation δ ε β) (device : δ) :
    (first >>= next).result device = continueWith next (first.result device) := by
  show result (andThen first next) device = _
  unfold result andThen
  rcases first device with ⟨⟨outcome, events⟩, after⟩
  cases outcome with
  | ok value => rfl
  | error stop => rfl

@[simp]
theorem result_pure (value : α) (device : δ) :
    (pure value : Operation δ ε α).result device = (.ok value, device) := rfl

@[simp]
theorem result_map (f : α → β) (operation : Operation δ ε α) (device : δ) :
    (f <$> operation).result device =
      ((operation.result device).1.map f, (operation.result device).2) := by
  show (operation >>= fun value => pure (f value)).result device = _
  rw [result_bind]
  rcases operation.result device with ⟨outcome, after⟩
  cases outcome with
  | ok value => rfl
  | error stop => rfl

@[simp]
theorem result_device (device : δ) :
    (Operation.device : Operation δ ε δ).result device = (.ok device, device) := rfl

@[simp]
theorem result_ofLogged (answer : Logged ε α) (device : δ) :
    (ofLogged answer : Operation δ ε α).result device = (answer.outcome, device) := rfl

@[simp]
theorem result_ofOutcome (outcome : Outcome ε α) (device : δ) :
    (ofOutcome outcome : Operation δ ε α).result device = (outcome, device) := rfl

@[simp]
theorem result_report (event : Event) (device : δ) :
    (report event : Operation δ ε Unit).result device = (.ok (), device) := rfl

@[simp]
theorem result_refuse (cause : ε) (device : δ) :
    (refuse cause : Operation δ ε α).result device = (Outcome.refuse cause, device) := rfl

@[simp]
theorem result_mapCause (rename : ε → ε') (operation : Operation δ ε α) (device : δ) :
    (operation.mapCause rename).result device =
      ((operation.result device).1.mapCause rename, (operation.result device).2) := rfl

@[simp]
theorem result_within (get : δ' → δ) (set : δ' → δ → δ') (operation : Operation δ ε α)
    (whole : δ') :
    (operation.within get set).result whole =
      ((operation.result (get whole)).1, set whole (operation.result (get whole)).2) := rfl

/-- A clean-up changes the device of an operation that stops short, never its
outcome. -/
theorem result_orCleanUp (operation : Operation δ ε α) (cleanUp : Operation δ ε' Unit)
    (device : δ) :
    (operation.orCleanUp cleanUp).result device =
      match operation.result device with
      | (.ok value, after) => (.ok value, after)
      | (.error stop, after) => (.error stop, (cleanUp.result after).2) := by
  unfold result orCleanUp
  rcases operation device with ⟨⟨outcome, events⟩, after⟩
  cases outcome with
  | ok value => rfl
  | error stop => rfl

end Operation

end CodeCapsules
