import CodeCapsules.Proofs.Operation
import CodeCapsules.Script.Basic

/-!
Contract: what a script does to a disk.

Owns:
- `Silent`, scripts that write nothing;
- `Succeeds`, scripts that end with a value, and the parts of such a run;
- `Careful`, scripts that fail only before they write;
- `PathMap`, a disk that is a map from paths to contents.

Main statement: a sequence of scripts succeeds exactly if its parts do, one on
the disk that the other leaves.
-/

namespace CodeCapsules

namespace Script

variable {α β δ ε σ : Type} [Disk σ]

/-! ## Sequences -/

theorem run_andThen (next : α → Script β) (script : Script α) (disk : σ) :
    (script.andThen next).run disk =
      match (script.run disk).1.outcome with
      | .ok value =>
        (⟨((next value).run (script.run disk).2).1.outcome,
            (script.run disk).1.lines ++ ((next value).run (script.run disk).2).1.lines,
            (script.run disk).1.events ++ ((next value).run (script.run disk).2).1.events⟩,
          ((next value).run (script.run disk).2).2)
      | .error stop =>
        (⟨.error stop, (script.run disk).1.lines, (script.run disk).1.events⟩,
          (script.run disk).2) := by
  induction script generalizing disk with
  | finish outcome =>
      cases outcome with
      | ok value => rfl
      | error stop => rfl
  | probe path rest inductionHypothesis => exact inductionHypothesis _ disk
  | fetch path rest inductionHypothesis => exact inductionHypothesis _ disk
  | store path contents rest inductionHypothesis => exact inductionHypothesis _ _
  | print line rest inductionHypothesis =>
      simp only [andThen, run, inductionHypothesis]
      cases (rest.run disk).1.outcome with
      | ok value => rfl
      | error stop => rfl
  | report event rest inductionHypothesis =>
      simp only [andThen, run, inductionHypothesis]
      cases (rest.run disk).1.outcome with
      | ok value => rfl
      | error stop => rfl

theorem run_contentsOf_bind (path : String) (next : Except DiskError Bytes → Script β)
    (disk : σ) :
    (contentsOf path >>= next).run disk = (next (Disk.read disk path)).run disk := rfl

/-! ## Scripts that write nothing -/

/-- The script has no write, whatever it is answered. -/
def Silent : Script α → Prop
  | .finish _ => True
  | .probe _ next => ∀ answer, (next answer).Silent
  | .fetch _ next => ∀ answer, (next answer).Silent
  | .store _ _ _ => False
  | .print _ next => next.Silent
  | .report _ next => next.Silent

theorem Silent.run_disk {script : Script α} (silent : script.Silent) (disk : σ) :
    (script.run disk).2 = disk := by
  induction script with
  | finish outcome => rfl
  | probe path rest inductionHypothesis => exact inductionHypothesis _ (silent _)
  | fetch path rest inductionHypothesis => exact inductionHypothesis _ (silent _)
  | store path contents rest inductionHypothesis => exact silent.elim
  | print line rest inductionHypothesis => exact inductionHypothesis silent
  | report event rest inductionHypothesis => exact inductionHypothesis silent

theorem Silent.bind {script : Script α} {next : α → Script β} (silent : script.Silent)
    (nextSilent : ∀ value, (next value).Silent) : (script >>= next).Silent := by
  show (script.andThen next).Silent
  induction script with
  | finish outcome =>
      cases outcome with
      | ok value => exact nextSilent value
      | error stop => trivial
  | probe path rest inductionHypothesis => exact fun answer => inductionHypothesis _ (silent answer)
  | fetch path rest inductionHypothesis => exact fun answer => inductionHypothesis _ (silent answer)
  | store path contents rest inductionHypothesis => exact silent.elim
  | print line rest inductionHypothesis => exact inductionHypothesis silent
  | report event rest inductionHypothesis => exact inductionHypothesis silent

theorem silent_noteAll (events : List Event) {script : Script α} (silent : script.Silent) :
    (noteAll events script).Silent := by
  induction events with
  | nil => exact silent
  | cons event rest inductionHypothesis => exact inductionHypothesis

theorem silent_pure (value : α) : (pure value : Script α).Silent := trivial

theorem silent_ofOutcome (rename : ε → Failure) (outcome : Outcome ε α) :
    (ofOutcome rename outcome).Silent := trivial

theorem silent_say (line : String) : (say line).Silent := trivial

theorem silent_contentsOf (path : String) : (contentsOf path).Silent := fun _ => trivial

theorem silent_isPresent (path : String) : (isPresent path).Silent := fun _ => trivial

theorem silent_ofLogged (rename : ε → Failure) (answer : Logged ε α) :
    (ofLogged rename answer).Silent :=
  silent_noteAll _ trivial

theorem silent_ofOperation (rename : ε → Failure) (operation : Operation δ ε α) (device : δ) :
    (ofOperation rename operation device).Silent :=
  silent_noteAll _ trivial

theorem silent_forM (act : α → Script Unit) (items : List α)
    (silent : ∀ item, (act item).Silent) : (items.forM act).Silent := by
  induction items with
  | nil => trivial
  | cons item rest inductionHypothesis => exact (silent item).bind fun _ => inductionHypothesis

theorem silent_mapM (act : α → Script β) (items : List α)
    (silent : ∀ item, (act item).Silent) : (items.mapM act).Silent := by
  have looping : ∀ made, (List.mapM.loop act items made).Silent := by
    induction items with
    | nil => exact fun _ => trivial
    | cons item rest inductionHypothesis =>
        exact fun made => (silent item).bind fun _ => inductionHypothesis _
  exact looping []

/-! ## Scripts that succeed -/

/-- On this disk the script ends with the value, prints the lines and leaves the
other disk. -/
def Succeeds (script : Script α) (disk : σ) (value : α) (lines : List String) (after : σ) : Prop :=
  (script.run disk).1.outcome = .ok value ∧ (script.run disk).1.lines = lines ∧
    (script.run disk).2 = after

section Succeeds

variable {disk after : σ} {value : α} {lines : List String}

theorem Succeeds.unique {script : Script α} {other : α} {otherLines : List String}
    {otherAfter : σ} (left : script.Succeeds disk value lines after)
    (right : script.Succeeds disk other otherLines otherAfter) :
    value = other ∧ lines = otherLines ∧ after = otherAfter :=
  ⟨Except.ok.inj (left.1.symm.trans right.1), left.2.1.symm.trans right.2.1,
    left.2.2.symm.trans right.2.2⟩

theorem succeeds_bind {script : Script α} {next : α → Script β} {value : β} :
    (script >>= next).Succeeds disk value lines after ↔
      ∃ middle first between rest, script.Succeeds disk middle first between ∧
        (next middle).Succeeds between value rest after ∧ lines = first ++ rest := by
  have runs := run_andThen next script disk
  constructor
  · rintro ⟨outcome, linesEq, diskEq⟩
    change ((script.andThen next).run disk).1.outcome = _ at outcome
    change ((script.andThen next).run disk).1.lines = _ at linesEq
    change ((script.andThen next).run disk).2 = _ at diskEq
    rw [runs] at outcome linesEq diskEq
    cases middle : (script.run disk).1.outcome with
    | error stop =>
        rw [middle] at outcome
        contradiction
    | ok middleValue =>
        rw [middle] at outcome linesEq diskEq
        exact ⟨middleValue, _, _, _, ⟨middle, rfl, rfl⟩, ⟨outcome, rfl, diskEq⟩, linesEq.symm⟩
  · rintro ⟨middle, first, between, rest, ⟨outcome, firstEq, betweenEq⟩,
      ⟨nextOutcome, restEq, afterEq⟩, linesEq⟩
    rw [outcome, firstEq, betweenEq] at runs
    refine ⟨?_, ?_, ?_⟩
    · show ((script.andThen next).run disk).1.outcome = _
      rw [runs]
      exact nextOutcome
    · show ((script.andThen next).run disk).1.lines = _
      rw [runs, linesEq, ← restEq]
    · show ((script.andThen next).run disk).2 = _
      rw [runs]
      exact afterEq

/-- A script that goes on to succeed, whatever it prints. -/
theorem Succeeds.exists_bind {script : Script α} {next : α → Script β} {made : β} {between : σ}
    (first : script.Succeeds disk value lines between)
    (second : ∃ rest, (next value).Succeeds between made rest after) :
    ∃ all, (script >>= next).Succeeds disk made all after := by
  obtain ⟨rest, continues⟩ := second
  exact ⟨_, succeeds_bind.mpr ⟨value, lines, between, rest, first, continues, rfl⟩⟩

@[simp]
theorem succeeds_finish {outcome : Outcome Failure α} :
    (finish outcome).Succeeds disk value lines after ↔
      outcome = .ok value ∧ lines = [] ∧ after = disk := by
  constructor
  · rintro ⟨outcome, linesEq, diskEq⟩
    exact ⟨outcome, linesEq.symm, diskEq.symm⟩
  · rintro ⟨outcome, rfl, rfl⟩
    exact ⟨outcome, rfl, rfl⟩

@[simp]
theorem succeeds_pure {made : α} :
    (pure made : Script α).Succeeds disk value lines after ↔
      value = made ∧ lines = [] ∧ after = disk := by
  rw [show (pure made : Script α) = finish (.ok made) from rfl, succeeds_finish, Except.ok.injEq,
    eq_comm]

@[simp]
theorem not_succeeds_fail {failure : Failure} :
    ¬ (fail failure : Script α).Succeeds disk value lines after := by
  rintro ⟨outcome, -, -⟩
  contradiction

@[simp]
theorem succeeds_ofOutcome {rename : ε → Failure} {outcome : Outcome ε α} :
    (ofOutcome rename outcome).Succeeds disk value lines after ↔
      outcome = .ok value ∧ lines = [] ∧ after = disk := by
  rw [ofOutcome, succeeds_finish, Outcome.mapCause_eq_ok]

@[simp]
theorem succeeds_ofExcept {rename : ε → Failure} {answer : Except ε α} :
    (ofExcept rename answer).Succeeds disk value lines after ↔
      answer = .ok value ∧ lines = [] ∧ after = disk := by
  rw [ofExcept, succeeds_ofOutcome, Outcome.ofExcept_eq_ok]

theorem succeeds_noteAll (events : List Event) {script : Script α} :
    (noteAll events script).Succeeds disk value lines after ↔
      script.Succeeds disk value lines after := by
  induction events with
  | nil => rfl
  | cons event rest inductionHypothesis => exact inductionHypothesis

@[simp]
theorem succeeds_ofLogged {rename : ε → Failure} {answer : Logged ε α} :
    (ofLogged rename answer).Succeeds disk value lines after ↔
      answer.outcome = .ok value ∧ lines = [] ∧ after = disk := by
  rw [ofLogged, succeeds_noteAll, succeeds_ofOutcome]

@[simp]
theorem succeeds_ofOperation {rename : ε → Failure} {operation : Operation δ ε α} {device : δ}
    {made : α × δ} :
    (ofOperation rename operation device).Succeeds disk made lines after ↔
      operation.result device = (.ok made.1, made.2) ∧ lines = [] ∧ after = disk := by
  rw [ofOperation, succeeds_noteAll, succeeds_ofOutcome]
  unfold Operation.result
  rcases operation device with ⟨⟨outcome, events⟩, left⟩
  obtain ⟨value, wanted⟩ := made
  cases outcome with
  | ok result => simp [Except.map]
  | error stop => simp [Except.map]

@[simp]
theorem succeeds_note {event : Event} {done : Unit} :
    (note event).Succeeds disk done lines after ↔ lines = [] ∧ after = disk := by
  show (pure () : Script Unit).Succeeds disk done lines after ↔ _
  simp

@[simp]
theorem succeeds_isPresent {path : String} {answer : Bool} :
    (isPresent path).Succeeds disk answer lines after ↔
      answer = Disk.contains disk path ∧ lines = [] ∧ after = disk :=
  succeeds_pure

@[simp]
theorem succeeds_contentsOf {path : String} {answer : Except DiskError Bytes} :
    (contentsOf path).Succeeds disk answer lines after ↔
      answer = Disk.read disk path ∧ lines = [] ∧ after = disk :=
  succeeds_pure

@[simp]
theorem succeeds_say {line : String} {done : Unit} :
    (say line).Succeeds disk done lines after ↔ lines = [line] ∧ after = disk := by
  constructor
  · rintro ⟨-, linesEq, diskEq⟩
    exact ⟨linesEq.symm, diskEq.symm⟩
  · rintro ⟨rfl, rfl⟩
    exact ⟨rfl, rfl, rfl⟩

theorem succeeds_forM_say (texts : List String) {done : Unit} :
    (texts.forM say).Succeeds disk done lines after ↔ lines = texts ∧ after = disk := by
  induction texts generalizing lines with
  | nil => exact succeeds_pure.trans (by simp)
  | cons text rest inductionHypothesis =>
      show (say text >>= fun _ => rest.forM say).Succeeds _ _ _ _ ↔ _
      rw [succeeds_bind]
      constructor
      · rintro ⟨_, first, between, others, said, saidOthers, linesEq⟩
        obtain ⟨rfl, rfl⟩ := succeeds_say.mp said
        obtain ⟨rfl, afterEq⟩ := inductionHypothesis.mp saidOthers
        exact ⟨linesEq, afterEq⟩
      · rintro ⟨rfl, afterEq⟩
        exact ⟨(), [text], disk, rest, succeeds_say.mpr ⟨rfl, rfl⟩,
          inductionHypothesis.mpr ⟨rfl, afterEq⟩, rfl⟩

end Succeeds

/-! ## Scripts that fail before they write -/

/-- On this disk, the script does not fail once it has written. -/
def Careful (script : Script α) (disk : σ) : Prop :=
  ∀ stop, (script.run disk).1.outcome = .error stop → (script.run disk).2 = disk

section Careful

variable {disk after : σ} {script : Script α}

theorem Silent.careful (silent : script.Silent) (disk : σ) : script.Careful disk :=
  fun _ _ => silent.run_disk disk

theorem Succeeds.careful {value : α} {lines : List String}
    (succeeds : script.Succeeds disk value lines after) : script.Careful disk := by
  intro stop failed
  rw [succeeds.1] at failed
  contradiction

theorem Silent.bind_careful {next : α → Script β} (silent : script.Silent)
    (careful : ∀ value, (next value).Careful disk) : (script >>= next).Careful disk := by
  intro stop failed
  change ((script.andThen next).run disk).1.outcome = _ at failed
  show ((script.andThen next).run disk).2 = _
  rw [run_andThen, silent.run_disk] at failed ⊢
  cases outcome : (script.run disk).1.outcome with
  | error cause => rfl
  | ok value =>
      rw [outcome] at failed
      exact careful value stop failed

end Careful

end Script

/-! ## Maps from paths to contents -/

/-- A disk on which every write is done. -/
structure PathMap where
  contents : String → Option Bytes

namespace PathMap

/-- The disk with these contents under a path. -/
def put (disk : PathMap) (path : String) (bytes : Bytes) : PathMap :=
  ⟨fun other => if other = path then some bytes else disk.contents other⟩

instance : Disk PathMap where
  contains disk path := (disk.contents path).isSome
  read disk path :=
    match disk.contents path with
    | some bytes => .ok bytes
    | none => .error .notFound
  write disk path bytes := (.ok (), disk.put path bytes)

variable {disk : PathMap} {path : String} {bytes : Bytes}

@[simp]
theorem contents_put_self : (disk.put path bytes).contents path = some bytes := if_pos rfl

theorem contents_put_of_ne {other : String} (apart : other ≠ path) :
    (disk.put path bytes).contents other = disk.contents other := if_neg apart

theorem read_eq_ok : Disk.read disk path = .ok bytes ↔ disk.contents path = some bytes := by
  show (match disk.contents path with
    | some bytes => Except.ok bytes
    | none => Except.error DiskError.notFound) = _ ↔ _
  cases disk.contents path with
  | none => simp
  | some found => simp

end PathMap

end CodeCapsules
