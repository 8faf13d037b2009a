import CodeCapsules.Proofs.Walk

/-!
Contract: reading as a conversation, in which each answer decides what is asked
next.

An archive answers an address always alike. Whoever answers an inquiry may go by
everything that was asked before, so that inquiries tell which addresses are
asked for, and cover archives that change their mind.

Owns:
- `Inquiry`, a tree of questions for single bytes, and `Reading`, an inquiry
  that may fail;
- the value of an inquiry against an archive, and its value with the addresses
  asked under any answers;
- `Rises`, inquiries whose questions rise inside a range whatever is answered.

Main statement: an inquiry has the value that it has against any archive which
gives the answers that were given, and there is such an archive if no address is
asked twice.
-/

namespace CodeCapsules.Flash

/-- Bytes that are asked for one by one, where each answer decides how it goes
on. -/
inductive Inquiry (α : Type) where
  | done (value : α)
  | ask (address : CodeAddress) (next : Except Error UInt8 → Inquiry α)

/-- The answer to an address, given the addresses that were asked before. -/
abbrev Responder : Type := List CodeAddress → CodeAddress → Except Error UInt8

namespace Inquiry

variable {α β : Type}

/-- Goes on with `next` where the first inquiry is done. -/
def andThen : Inquiry α → (α → Inquiry β) → Inquiry β
  | .done value, next => next value
  | .ask address rest, next => .ask address fun answer => (rest answer).andThen next

instance : Monad Inquiry where
  pure := .done
  bind := andThen

/-- The value if an archive answers. -/
def against (archive : Archive) : Inquiry α → α
  | .done value => value
  | .ask address next => (next (archive.readByte address)).against archive

/-- The value under any answers, and all addresses that are asked then, behind
those that were asked before. -/
def answer (respond : Responder) : Inquiry α → List CodeAddress → α × List CodeAddress
  | .done value, asked => (value, asked)
  | .ask address next, asked => (next (respond asked address)).answer respond (asked ++ [address])

@[simp]
theorem against_pure (archive : Archive) (value : α) :
    (pure value : Inquiry α).against archive = value := rfl

@[simp]
theorem against_bind (archive : Archive) (first : Inquiry α) (next : α → Inquiry β) :
    (first >>= next).against archive = (next (first.against archive)).against archive := by
  show (andThen first next).against archive = _
  induction first with
  | done value => rfl
  | ask address rest inductionHypothesis => exact inductionHypothesis _

/-! ## Replays -/

/-- The archive gives every answer that was given on the way to `asked`. -/
def Replays (archive : Archive) (respond : Responder) (asked : List CodeAddress) : Prop :=
  ∀ (earlier : List CodeAddress) (address : CodeAddress) (later : List CodeAddress),
    asked = earlier ++ address :: later → archive.readByte address = respond earlier address

theorem prefix_answer (respond : Responder) (inquiry : Inquiry α) (asked : List CodeAddress) :
    asked <+: (inquiry.answer respond asked).2 := by
  induction inquiry generalizing asked with
  | done value => exact List.prefix_refl asked
  | ask address next inductionHypothesis =>
      exact (List.prefix_append asked [address]).trans (inductionHypothesis _ (asked ++ [address]))

/-- The value depends only on the answers that were given. -/
theorem answer_eq_against {archive : Archive} {respond : Responder} {inquiry : Inquiry α}
    {asked : List CodeAddress}
    (replays : Replays archive respond (inquiry.answer respond asked).2) :
    (inquiry.answer respond asked).1 = inquiry.against archive := by
  induction inquiry generalizing asked with
  | done value => rfl
  | ask address next inductionHypothesis =>
      obtain ⟨later, askedEq⟩ := prefix_answer respond (next (respond asked address))
        (asked ++ [address])
      have given : archive.readByte address = respond asked address :=
        replays asked address later (by rw [answer, ← askedEq]; simp)
      rw [against, given]
      exact inductionHypothesis _ replays

/-- If no address is asked twice, the answers are those of an archive. -/
theorem exists_replay (respond : Responder) {asked : List CodeAddress} (once : asked.Nodup) :
    ∃ archive, Replays archive respond asked := by
  refine ⟨⟨0, fun index => .error (.fileIndexOutOfRange index 0),
    fun address => respond (asked.takeWhile (· ≠ address)) address⟩, ?_⟩
  rintro earlier address later rfl
  have before : ∀ other ∈ earlier, other ≠ address := by
    rintro other member rfl
    exact (List.nodup_append.mp once).2.2 other member other (by simp) rfl
  show respond _ address = respond earlier address
  rw [List.takeWhile_append_of_pos (by simpa using before), List.takeWhile_cons_of_neg (by simp),
    List.append_nil]

/-! ## Rising questions -/

/-- Whatever is answered, the addresses that are asked rise from `low` on and stay
below `high`. In the end `ends` holds of the value and of a bound below which
everything was asked. -/
def Rises (high : Nat) (ends : Nat → α → Prop) : Nat → Inquiry α → Prop
  | low, .done value => ends low value
  | low, .ask address next =>
      low ≤ address.value.toNat ∧ address.value.toNat < high ∧
        ∀ answer, Rises high ends (address.value.toNat + 1) (next answer)

theorem Rises.bind {high low : Nat} {middle : Nat → α → Prop} {ends : Nat → β → Prop}
    {first : Inquiry α} {next : α → Inquiry β} (firstRises : first.Rises high middle low)
    (nextRises : ∀ bound value, middle bound value → (next value).Rises high ends bound) :
    (first >>= next).Rises high ends low := by
  show (andThen first next).Rises high ends low
  induction first generalizing low with
  | done value => exact nextRises low value firstRises
  | ask address rest inductionHypothesis =>
      obtain ⟨lowLe, highLt, restRises⟩ := firstRises
      exact ⟨lowLe, highLt, fun answer => inductionHypothesis answer (restRises answer)⟩

/-- The addresses that are asked, under any answers. -/
theorem Rises.answer {high low : Nat} {ends : Nat → α → Prop} {inquiry : Inquiry α}
    (rises : inquiry.Rises high ends low) (respond : Responder) (asked : List CodeAddress) :
    ∃ added, (inquiry.answer respond asked).2 = asked ++ added ∧
      added.Pairwise (fun earlier later => earlier.value.toNat < later.value.toNat) ∧
      ∀ address ∈ added, low ≤ address.value.toNat ∧ address.value.toNat < high := by
  induction inquiry generalizing low asked with
  | done value => exact ⟨[], (List.append_nil asked).symm, .nil, nofun⟩
  | ask address next inductionHypothesis =>
      obtain ⟨lowLe, highLt, nextRises⟩ := rises
      obtain ⟨added, askedEq, rising, inside⟩ :=
        inductionHypothesis _ (nextRises (respond asked address)) (asked ++ [address])
      refine ⟨address :: added, ?_, List.pairwise_cons.mpr ⟨fun later member => ?_, rising⟩,
        List.forall_mem_cons.mpr ⟨⟨lowLe, highLt⟩, fun later member => ?_⟩⟩
      · rw [Inquiry.answer, askedEq, List.append_assoc]
        rfl
      · exact (inside later member).1
      · have bounds := inside later member
        omega

end Inquiry

/-! ## Readings -/

/-- An inquiry that may fail. -/
abbrev Reading (ε α : Type) : Type := ExceptT (Stop ε) Inquiry α

namespace Reading

variable {ε ε' α β : Type}

def against (archive : Archive) (reading : Reading ε α) : Outcome ε α :=
  Inquiry.against archive reading.run

/-- An outcome that is known without a question. -/
def ofOutcome (outcome : Outcome ε α) : Reading ε α := ExceptT.mk (.done outcome)

/-- The same reading with the cause of a refusal renamed. -/
def mapCause (rename : ε → ε') (reading : Reading ε α) : Reading ε' α :=
  ExceptT.mk (reading.run >>= fun outcome => .done (Outcome.mapCause rename outcome))

def byte (address : CodeAddress) : Reading Error UInt8 :=
  ExceptT.mk (.ask address fun answer => .done (Outcome.ofExcept answer))

def word (address : CodeAddress) : Reading Error UInt16 := do
  let low ← byte address
  let high ← byte ⟨← ofOutcome (sum32 address.value 1)⟩
  return low.toUInt16 ||| (high.toUInt16 <<< 8)

/-- So many bytes from the place `index` behind an address on. -/
def bytesFrom (address : CodeAddress) (index : Nat) : (count : Nat) → Reading Error Bytes
  | 0 => return []
  | count + 1 => do
    let first ← byte ⟨← ofOutcome (sum32 address.value index.toUInt32)⟩
    let rest ← bytesFrom address (index + 1) count
    return first :: rest

section Against

variable (archive : Archive)

@[simp]
theorem against_pure (value : α) :
    (pure value : Reading ε α).against archive = .ok value := rfl

@[simp]
theorem against_bind (first : Reading ε α) (next : α → Reading ε β) :
    (first >>= next).against archive =
      first.against archive >>= fun value => (next value).against archive := by
  show Inquiry.against archive (first.run >>= ExceptT.bindCont next) = _
  rw [Inquiry.against_bind]
  show _ = Inquiry.against archive first.run >>= _
  cases Inquiry.against archive first.run with
  | ok value => rfl
  | error stop => rfl

@[simp]
theorem against_ofOutcome (outcome : Outcome ε α) :
    (ofOutcome outcome).against archive = outcome := rfl

@[simp]
theorem against_mapCause (rename : ε → ε') (reading : Reading ε α) :
    (reading.mapCause rename).against archive = (reading.against archive).mapCause rename :=
  Inquiry.against_bind archive reading.run _

@[simp]
theorem against_byte (address : CodeAddress) :
    (byte address).against archive = Outcome.ofExcept (archive.readByte address) := rfl

theorem against_word (address : CodeAddress) :
    (word address).against archive = archive.readWord address := by
  simp only [word, against_bind, against_byte, against_ofOutcome, against_pure]
  rfl

theorem against_bytesFrom (address : CodeAddress) (index count : Nat) :
    (bytesFrom address index count).against archive =
      (archive.readFrom address index count).2.map fun _ =>
        (archive.readFrom address index count).1 := by
  induction count generalizing index with
  | zero => rfl
  | succ count inductionHypothesis =>
      simp only [bytesFrom, against_bind, against_ofOutcome, against_byte, against_pure,
        inductionHypothesis]
      rw [Store.readFrom_succ]
      cases (sum32 address.value index.toUInt32 : Outcome Error UInt32) with
      | error stop => rfl
      | ok sum =>
          simp only [Outcome.bind_ok]
          cases (Outcome.ofExcept (archive.readByte ⟨sum⟩) : Outcome Error UInt8) with
          | error stop => rfl
          | ok first =>
              simp only [Outcome.bind_ok]
              cases (archive.readFrom address (index + 1) count).2 with
              | error stop => rfl
              | ok done => rfl

theorem against_bytes (address : CodeAddress) (count : Nat) :
    (bytesFrom address 0 count).against archive = archive.readBytes address count :=
  against_bytesFrom archive address 0 count

end Against

/-- Whatever is answered, the addresses that are asked rise from `low` on and lie
below both `high` and `finish`. -/
def Spans (high low finish : Nat) (reading : Reading ε α) : Prop :=
  reading.run.Rises high (fun bound _ => bound ≤ finish) low

section Spans

variable {high low middle finish : Nat}

theorem Spans.bind {first : Reading ε α} {next : α → Reading ε β}
    (firstSpans : first.Spans high low middle) (ahead : middle ≤ finish)
    (nextSpans : ∀ bound value, bound ≤ middle → (next value).Spans high bound finish) :
    (first >>= next).Spans high low finish := by
  apply Inquiry.Rises.bind firstSpans
  intro bound outcome below
  cases outcome with
  | ok value => exact nextSpans bound value below
  | error stop => exact Nat.le_trans below ahead

theorem spans_pure (value : α) (below : low ≤ finish) :
    (pure value : Reading ε α).Spans high low finish := below

theorem ofOutcome_ok_bind (value : α) (next : α → Reading ε β) :
    (ofOutcome (.ok value) >>= next) = next value := rfl

theorem Spans.mapCause {reading : Reading ε α} (spans : reading.Spans high low finish)
    (rename : ε → ε') : (reading.mapCause rename).Spans high low finish :=
  Inquiry.Rises.bind spans fun _ _ below => below

variable {address : CodeAddress} {start : Nat}

theorem spans_byte (standing : address.value.toNat = start) (lowLe : low ≤ start)
    (highLt : start < high) : (byte address).Spans high low (start + 1) := by
  subst standing
  exact ⟨lowLe, highLt, fun _ => Nat.le_refl _⟩

theorem spans_word (standing : address.value.toNat = start) (lowLe : low ≤ start)
    (highLt : start + 1 < high) (addressable : high ≤ UInt32.size) :
    (word address).Spans high low (start + 2) := by
  subst standing
  unfold word
  refine (spans_byte rfl lowLe (by omega)).bind (by omega) fun bound first below => ?_
  rw [show (1 : UInt32) = (1 : Nat).toUInt32 from rfl, sum32_place (by omega), ofOutcome_ok_bind]
  have next := toNat_add_place address.value 1 (by omega)
  exact (spans_byte next below highLt).bind (Nat.le_refl _) fun bound second below =>
    spans_pure _ below

theorem spans_bytesFrom {index count : Nat} (standing : address.value.toNat = start)
    (lowLe : low ≤ start + index) (highLe : start + index + count ≤ high)
    (addressable : high ≤ UInt32.size) :
    (bytesFrom address index count).Spans high low (start + index + count) := by
  subst standing
  induction count generalizing index low with
  | zero => exact lowLe
  | succ count inductionHypothesis =>
      have place := toNat_add_place address.value index (by omega)
      unfold bytesFrom
      rw [sum32_place (by omega), ofOutcome_ok_bind]
      refine (spans_byte place lowLe (by omega)).bind (by omega) fun bound first below => ?_
      have restSpans : (bytesFrom address (index + 1) count).Spans high bound
          (address.value.toNat + (index + 1) + count) := inductionHypothesis below (by omega)
      exact restSpans.bind (by omega) fun bound rest below => spans_pure _ (by omega)

end Spans

end Reading

end CodeCapsules.Flash
