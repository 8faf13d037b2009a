import CodeCapsules.Proofs.Agreement
import CodeCapsules.Proofs.Inquiry

/-!
Contract: the walk through a container, whoever answers for its bytes.

Owns:
- the walk as an inquiry, and that it is the walk;
- the addresses that its steps ask for;
- `Chained`, records that follow one another without a gap, and what any number
  of steps yields.

Main statement: whatever is answered, the walk asks only for bytes of the
container, each at most once, yields records that follow one another inside it
and at most one error behind them, and then nothing forever. So archives that
agree on the bytes of the container are walked alike.
-/

namespace CodeCapsules.Store

open Flash (Archive Inquiry Reading Responder)

namespace Scan

def askLength (scan : Scan) : Reading Error UInt16 := do
  let address ← Reading.ofOutcome (scan.container.addressOf scan.position)
  (Reading.word address).mapCause .flash

def askHash (scan : Scan) : Reading Error Hash := do
  let address ← Reading.ofOutcome (scan.container.addressOf (scan.position + 2))
  let bytes ← (Reading.bytesFrom address 0 Hash.size).mapCause .flash
  match bytes with
  | [first, second, third, fourth] => return ⟨first, second, third, fourth⟩
  | _ => Reading.ofOutcome (Outcome.halt .outOfBounds)

/-- A step of the walk as an inquiry, with its two readings of bytes asked for. -/
def askNext (scan : Scan) : Inquiry (Option Item × Scan) :=
  let ended := { scan with finished := true }
  if scan.finished ∨ scan.container.capacity < scan.position + terminatorSize then
    return (none, ended)
  else do
    match ← scan.askLength.run with
    | .error stop => return (some (.error stop), ended)
    | .ok length =>
      if length.toNat = 0 then return (none, ended)
      else if length.toNat < headerSize then
        return (some (scan.corrupt length (.shorterThanHeader length.toNat)), ended)
      else if scan.container.capacity < scan.position + length.toNat then
        let finish := scan.position + length.toNat
        return (some (scan.corrupt length (.pastEnd finish scan.container.capacity)), ended)
      else
        match ← scan.askHash.run with
        | .error stop => return (some (.error stop), ended)
        | .ok hash =>
          return (some (.ok ⟨scan.offset, ⟨length, hash⟩⟩),
            { scan with position := scan.position + length.toNat })

/-- So many steps of the walk: what each yields, and the walk after them. -/
def steps (scan : Scan) (archive : Archive) : Nat → List (Option Item) × Scan
  | 0 => ([], scan)
  | count + 1 =>
    let (item, after) := scan.next archive
    let (items, last) := after.steps archive count
    (item :: items, last)

def askSteps (scan : Scan) : Nat → Inquiry (List (Option Item) × Scan)
  | 0 => return ([], scan)
  | count + 1 => do
    let (item, after) ← scan.askNext
    let (items, last) ← after.askSteps count
    return (item :: items, last)

section Against

variable (archive : Archive) (scan : Scan)

theorem against_askLength : scan.askLength.against archive = scan.readLength archive := by
  simp only [askLength, Reading.against_bind, Reading.against_ofOutcome, Reading.against_mapCause,
    Reading.against_word]
  rfl

theorem against_askHash : scan.askHash.against archive = scan.readHash archive := by
  simp only [askHash, Reading.against_bind, Reading.against_ofOutcome, Reading.against_mapCause,
    Reading.against_bytes]
  unfold Scan.readHash
  refine congrArg _ (funext fun address => congrArg _ (funext fun bytes => ?_))
  match bytes with
  | [] | [_] | [_, _] | [_, _, _] => rfl
  | [first, second, third, fourth] => rfl
  | _ :: _ :: _ :: _ :: _ :: _ => rfl

/-- If an archive answers, the inquiry is the step of the walk. -/
theorem against_askNext : scan.askNext.against archive = scan.next archive := by
  unfold askNext Scan.next
  simp only
  split
  · rfl
  · have length := against_askLength archive scan
    have hash := against_askHash archive scan
    unfold Reading.against at length hash
    rw [Inquiry.against_bind, length]
    cases scan.readLength archive with
    | error stop => rfl
    | ok length =>
        simp only
        split
        · rfl
        split
        · rfl
        split
        · rfl
        · rw [Inquiry.against_bind, hash]
          cases scan.readHash archive with
          | error stop => rfl
          | ok hash => rfl

theorem against_askSteps (count : Nat) :
    (scan.askSteps count).against archive = scan.steps archive count := by
  induction count generalizing scan with
  | zero => rfl
  | succ count inductionHypothesis =>
      simp only [askSteps, steps, Inquiry.against_bind, Inquiry.against_pure, against_askNext,
        inductionHypothesis]

end Against

/-! ## What is asked -/

section Asking

variable {scan : Scan} {low : Nat}
  (addressable : scan.container.base.value.toNat + scan.container.capacity < UInt32.size)

include addressable

theorem spans_askLength
    (room : scan.position + terminatorSize ≤ scan.container.capacity)
    (lowLe : low ≤ scan.container.base.value.toNat + scan.position) :
    scan.askLength.Spans (scan.container.base.value.toNat + scan.container.capacity) low
      (scan.container.base.value.toNat + scan.position + terminatorSize) := by
  unfold terminatorSize at room ⊢
  have place := toNat_add_place scan.container.base.value scan.position (by omega)
  unfold askLength
  rw [addressOf_place (by omega), Reading.ofOutcome_ok_bind]
  exact (Reading.spans_word place lowLe (by omega) (by omega)).mapCause _

theorem spans_askHash
    (room : scan.position + headerSize ≤ scan.container.capacity)
    (lowLe : low ≤ scan.container.base.value.toNat + scan.position + terminatorSize) :
    scan.askHash.Spans (scan.container.base.value.toNat + scan.container.capacity) low
      (scan.container.base.value.toNat + scan.position + headerSize) := by
  unfold headerSize at room ⊢
  unfold terminatorSize at lowLe
  have sizeEq : Hash.size = 4 := rfl
  have place := toNat_add_place scan.container.base.value (scan.position + 2) (by omega)
  unfold askHash
  rw [addressOf_place (by omega), Reading.ofOutcome_ok_bind]
  refine ((Reading.spans_bytesFrom place (by omega) (by omega) (by omega)).mapCause _).bind
    (by omega) fun bound bytes below => ?_
  have finishes : bound ≤ scan.container.base.value.toNat + scan.position + 6 := by omega
  split
  · exact finishes
  · exact finishes

/-- A step asks for bytes of the container from its place on. If it goes on, it
has asked for nothing behind the record that it passed. -/
theorem rises_askNext
    (lowLe : scan.finished = false → low ≤ scan.container.base.value.toNat + scan.position) :
    scan.askNext.Rises (scan.container.base.value.toNat + scan.container.capacity)
      (fun bound result => result.2.container = scan.container ∧
        (result.2.finished = false →
          bound ≤ scan.container.base.value.toNat + result.2.position)) low := by
  unfold askNext
  simp only
  split
  · exact ⟨rfl, nofun⟩
  · rename_i goesOn
    have running : scan.finished = false :=
      Bool.eq_false_iff.mpr fun finished => goesOn (.inl finished)
    have room : scan.position + terminatorSize ≤ scan.container.capacity :=
      Nat.not_lt.mp fun full => goesOn (.inr full)
    refine Inquiry.Rises.bind (spans_askLength addressable room (lowLe running))
      fun bound outcome below => ?_
    cases outcome with
    | error stop => exact ⟨rfl, nofun⟩
    | ok length =>
        simp only
        split
        · exact ⟨rfl, nofun⟩
        split
        · exact ⟨rfl, nofun⟩
        split
        · exact ⟨rfl, nofun⟩
        · rename_i covers fits
          refine Inquiry.Rises.bind (spans_askHash addressable (by omega) below)
            fun bound outcome below => ?_
          cases outcome with
          | error stop => exact ⟨rfl, nofun⟩
          | ok hash =>
              refine ⟨rfl, fun _ => ?_⟩
              show bound ≤ _ + (scan.position + length.toNat)
              omega

end Asking

theorem rises_askSteps (scan : Scan) {low : Nat} (count : Nat)
    (addressable : scan.container.base.value.toNat + scan.container.capacity < UInt32.size)
    (lowLe : scan.finished = false → low ≤ scan.container.base.value.toNat + scan.position) :
    (scan.askSteps count).Rises (scan.container.base.value.toNat + scan.container.capacity)
      (fun _ _ => True) low := by
  -- The bound of the questions so far is carried to the next step as its lowest address.
  induction count generalizing scan low with
  | zero => trivial
  | succ count inductionHypothesis =>
      refine (rises_askNext addressable lowLe).bind fun bound result ⟨located, behind⟩ => ?_
      rw [← located] at addressable behind ⊢
      exact (inductionHypothesis _ addressable behind).bind fun _ _ _ => trivial

end Scan

/-! ## What is yielded -/

/-- Records that follow one another without a gap from a place on. -/
def Chained : Nat → List Record → Prop
  | _, [] => True
  | place, record :: rest => record.offset.value.toNat = place ∧ Chained record.finish rest

/-- Records that have a whole header and end in a container of this size. -/
def Whole (capacity : Nat) (listed : List Record) : Prop :=
  ∀ record ∈ listed, headerSize ≤ record.header.length.toNat ∧ record.finish ≤ capacity

section Chains

variable {place capacity : Nat} {listed : List Record}

theorem Chained.offset_ge (chained : Chained place listed) :
    ∀ record ∈ listed, place ≤ record.offset.value.toNat := by
  induction listed generalizing place with
  | nil => nofun
  | cons record rest inductionHypothesis =>
      obtain ⟨offsetEq, restChained⟩ := chained
      refine List.forall_mem_cons.mpr ⟨Nat.le_of_eq offsetEq.symm, fun later member => ?_⟩
      have behind := inductionHypothesis restChained later member
      unfold Record.finish at behind
      omega

theorem Chained.increasing (chained : Chained place listed) (whole : Whole capacity listed) :
    listed.Pairwise fun earlier later => earlier.offset.value.toNat < later.offset.value.toNat := by
  induction listed generalizing place with
  | nil => exact .nil
  | cons record rest inductionHypothesis =>
      obtain ⟨⟨covers, -⟩, restWhole⟩ := List.forall_mem_cons.mp whole
      refine List.pairwise_cons.mpr ⟨fun later member => ?_,
        inductionHypothesis chained.2 restWhole⟩
      have behind := chained.2.offset_ge later member
      unfold Record.finish at behind
      unfold headerSize at covers
      omega

theorem Chained.length_le (chained : Chained place listed) (whole : Whole capacity listed) :
    listed.length ≤ (capacity - place) / headerSize := by
  rw [Nat.le_div_iff_mul_le (by decide)]
  induction listed generalizing place with
  | nil => simp
  | cons record rest inductionHypothesis =>
      obtain ⟨⟨covers, inside⟩, restWhole⟩ := List.forall_mem_cons.mp whole
      have behind := inductionHypothesis chained.2 restWhole
      have offsetEq := chained.1
      rw [List.length_cons, Nat.succ_mul]
      unfold Record.finish at behind inside
      omega

end Chains

/-- A walk through the container that stands inside it or where it began. -/
structure Placed (container : Container) (scan : Scan) : Prop where
  located : scan.container = container
  inside : scan.position ≤ max container.capacity container.firstPlace

section Yielding

variable {archive : Archive} {container : Container} {scan : Scan}

theorem placed_start (container : Container) : Placed container (Scan.start container) :=
  ⟨rfl, Nat.le_max_right _ _⟩

theorem Placed.offset_eq (placed : Placed container scan) :
    scan.offset.value.toNat = scan.position := by
  have inside := placed.inside
  have first := container.firstPlace_le_one
  have reachable : container.capacity ≤ 65535 := container.reachable
  exact toNat_toUInt16 (by omega)

theorem Placed.next (placed : Placed container scan) (archive : Archive) :
    Placed container (scan.next archive).2 := by
  obtain ⟨rfl, inside⟩ := placed
  have shape := stepped_next scan archive
  cases stepped : scan.next archive with
  | mk item after =>
      rw [stepped] at shape
      cases shape with
      | ended => exact ⟨rfl, inside⟩
      | failed stop => exact ⟨rfl, inside⟩
      | passed header running covers fits => exact
          ⟨rfl, Nat.le_trans fits (Nat.le_max_left _ _)⟩

theorem Placed.steps (placed : Placed container scan) (archive : Archive) (count : Nat) :
    Placed container (scan.steps archive count).2 := by
  induction count generalizing scan with
  | zero => exact placed
  | succ count inductionHypothesis => exact inductionHypothesis (placed.next archive)

theorem steps_of_next {item : Option Item} {after : Scan}
    (stepped : scan.next archive = (item, after)) (count : Nat) :
    scan.steps archive (count + 1) =
      (item :: (after.steps archive count).1, (after.steps archive count).2) := by
  rw [Scan.steps, stepped]

theorem steps_of_finished (finished : scan.finished = true) (count : Nat) :
    scan.steps archive count = (List.replicate count none, scan) := by
  induction count with
  | zero => rfl
  | succ count inductionHypothesis =>
      rw [steps_of_next (next_of_finished finished), inductionHypothesis]
      rfl

/-- Steps yield records that follow one another, behind them at most one
refusal, and then nothing. -/
theorem Placed.exists_yields (placed : Placed container scan)
    (addressable : container.base.value.toNat + container.capacity < UInt32.size)
    (archive : Archive) (count : Nat) :
    ∃ (listed : List Record) (failure : Option Error) (idle : Nat),
      (scan.steps archive count).1 =
        listed.map (fun record => some (.ok record)) ++
          failure.toList.map (fun cause => some (Outcome.refuse cause)) ++
          List.replicate idle none ∧
      Chained scan.position listed ∧ Whole container.capacity listed := by
  induction count generalizing scan with
  | zero => exact ⟨[], none, 0, rfl, trivial, nofun⟩
  | succ count inductionHypothesis =>
      have shape := stepped_next scan archive
      have nextPlaced := placed.next archive
      cases stepped : scan.next archive with
      | mk item after =>
          rw [stepped] at shape nextPlaced
          rw [steps_of_next stepped]
          cases shape with
          | ended =>
              rw [steps_of_finished rfl]
              exact ⟨[], none, count + 1, rfl, trivial, nofun⟩
          | failed stop =>
              rw [steps_of_finished rfl]
              cases stop with
              | refused cause => exact ⟨[], some cause, count, rfl, trivial, nofun⟩
              | halted halt =>
                  rw [← placed.located] at addressable
                  exact absurd rfl (answered_next addressable stepped halt)
          | passed header running covers fits =>
              obtain ⟨listed, failure, idle, yielded, chained, whole⟩ :=
                inductionHypothesis nextPlaced
              have offsetEq := placed.offset_eq
              rw [placed.located] at fits
              refine ⟨⟨scan.offset, header⟩ :: listed, failure, idle,
                congrArg (some (Except.ok _) :: ·) yielded, ⟨offsetEq, ?_⟩,
                List.forall_mem_cons.mpr ⟨⟨covers, ?_⟩, whole⟩⟩
              · unfold Record.finish
                rw [offsetEq]
                exact chained
              · unfold Record.finish
                rw [offsetEq]
                exact fits

end Yielding

/-! ## Any number of steps -/

section Confined

variable {container : Container}

/-- The questions of a walk rise from one byte of the container to another. -/
theorem asked_rising (addressable : container.base.value.toNat + container.capacity < UInt32.size)
    (respond : Responder) (count : Nat) :
    let asked := (((Scan.start container).askSteps count).answer respond []).2
    asked.Pairwise (fun earlier later => earlier.value.toNat < later.value.toNat) ∧
      ∀ address ∈ asked, container.base.value.toNat ≤ address.value.toNat ∧
        address.value.toNat < container.base.value.toNat + container.capacity := by
  have rises : ((Scan.start container).askSteps count).Rises
      (container.base.value.toNat + container.capacity) (fun _ _ => True)
      container.base.value.toNat :=
    Scan.rises_askSteps (Scan.start container) count addressable fun _ => Nat.le_add_right _ _
  obtain ⟨asked, askedEq, rising, inside⟩ := rises.answer respond []
  rw [List.nil_append] at askedEq
  rw [← askedEq] at rising inside
  exact ⟨rising, inside⟩

theorem steps_of_replays {archive : Archive} {respond : Responder} {count : Nat}
    (replays : Inquiry.Replays archive respond
      (((Scan.start container).askSteps count).answer respond []).2) :
    (Scan.start container).steps archive count =
      (((Scan.start container).askSteps count).answer respond []).1 := by
  rw [Inquiry.answer_eq_against replays, Scan.against_askSteps]

/-- Archives that agree on the bytes of the container are walked alike. -/
theorem steps_congr (addressable : container.base.value.toNat + container.capacity < UInt32.size)
    {left right : Archive}
    (agree : ∀ address : CodeAddress, container.base.value.toNat ≤ address.value.toNat →
      address.value.toNat < container.base.value.toNat + container.capacity →
        left.readByte address = right.readByte address) (count : Nat) :
    (Scan.start container).steps left count = (Scan.start container).steps right count := by
  have inside := (asked_rising addressable (fun _ => right.readByte) count).2
  have answered : (Scan.start container).steps right count =
      (((Scan.start container).askSteps count).answer (fun _ => right.readByte) []).1 :=
    steps_of_replays fun _ _ _ _ => rfl
  rw [answered]
  refine steps_of_replays ?_
  intro earlier address later askedEq
  obtain ⟨behind, before⟩ := inside address (by rw [askedEq]; simp)
  exact agree address behind before

end Confined

/-- The walk is confined and finite, whoever answers for the bytes. After any
number of steps it has asked for bytes of the container only and for none of
them twice, so that it is the walk through any archive with these answers, and
there is one. It has yielded records that follow one another from the first
place on inside the container, behind them at most one refusal, and then
nothing. It stands at a place that its offset names. So two archives that agree
on the bytes of the container are walked alike. -/
theorem walk_is_confined_and_finite (container : Container)
    (addressable : container.base.value.toNat + container.capacity < UInt32.size)
    (respond : Responder) (count : Nat) :
    let walked := ((Scan.start container).askSteps count).answer respond []
    (∃ archive, Inquiry.Replays archive respond walked.2) ∧
    (∀ archive, Inquiry.Replays archive respond walked.2 →
      (Scan.start container).steps archive count = walked.1) ∧
    walked.2.Pairwise (fun earlier later => earlier.value.toNat < later.value.toNat) ∧
    (∀ address ∈ walked.2, container.base.value.toNat ≤ address.value.toNat ∧
      address.value.toNat < container.base.value.toNat + container.capacity) ∧
    (∃ (listed : List Record) (failure : Option Error) (idle : Nat),
      walked.1.1 =
        listed.map (fun record => some (.ok record)) ++
          failure.toList.map (fun cause => some (Outcome.refuse cause)) ++
          List.replicate idle none ∧
      Chained container.firstPlace listed ∧ Whole container.capacity listed ∧
      listed.Pairwise
        (fun earlier later => earlier.offset.value.toNat < later.offset.value.toNat) ∧
      listed.length ≤ (container.capacity - container.firstPlace) / headerSize) ∧
    walked.1.2.position ≤ max container.capacity container.firstPlace ∧
    walked.1.2.offset.value.toNat = walked.1.2.position ∧
    ∀ left right : Archive,
      (∀ address : CodeAddress, container.base.value.toNat ≤ address.value.toNat →
        address.value.toNat < container.base.value.toNat + container.capacity →
          left.readByte address = right.readByte address) →
        (Scan.start container).steps left count = (Scan.start container).steps right count := by
  intro walked
  obtain ⟨rising, inside⟩ := asked_rising addressable respond count
  have once : walked.2.Nodup := by
    refine List.Pairwise.imp ?_ rising
    rintro earlier _ before rfl
    exact Nat.lt_irrefl _ before
  obtain ⟨archive, replays⟩ := Inquiry.exists_replay respond once
  have walkedEq : (Scan.start container).steps archive count = walked.1 :=
    steps_of_replays replays
  have placed := (placed_start container).steps archive count
  obtain ⟨listed, failure, idle, yielded, chained, whole⟩ :=
    (placed_start container).exists_yields addressable archive count
  rw [walkedEq] at placed yielded
  exact ⟨⟨archive, replays⟩, fun _ => steps_of_replays, rising, inside,
    ⟨listed, failure, idle, yielded, chained, whole, chained.increasing whole,
      chained.length_le whole⟩,
    placed.inside, placed.offset_eq, fun _ _ agree => steps_congr addressable agree count⟩

/-- Answers every sixth question with a six and the others with zero, but refuses
the tenth. -/
def fickle : Responder := fun asked address =>
  if asked.length = 9 then .error (.addressOutOfRange address)
  else .ok (if asked.length % 6 = 0 then 6 else 0)

/-- A container with room for three records behind its odd first byte. -/
def fickleContainer : Container := ⟨0, ⟨⟨0x101⟩, 20, .capsuleBuffer⟩, by decide⟩

theorem walk_stops_at_refusal :
    fickleContainer.base.value.toNat + fickleContainer.capacity < UInt32.size ∧
      (((Scan.start fickleContainer).askSteps 4).answer fickle []).1.1 =
        [some (.ok ⟨⟨1⟩, ⟨6, ⟨0, 0, 0, 0⟩⟩⟩),
          some (Outcome.refuse (.flash (.addressOutOfRange ⟨0x10B⟩))), none, none] ∧
      ∀ address ∈ (((Scan.start fickleContainer).askSteps 4).answer fickle []).2,
        0x101 ≤ address.value.toNat ∧ address.value.toNat < 0x115 := by
  have addressable :
      fickleContainer.base.value.toNat + fickleContainer.capacity < UInt32.size := by
    decide
  obtain ⟨-, -, -, inside, -⟩ := walk_is_confined_and_finite fickleContainer addressable fickle 4
  exact ⟨addressable, by decide +kernel, inside⟩

end CodeCapsules.Store
