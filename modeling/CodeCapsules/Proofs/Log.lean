import CodeCapsules.Store.Basic
import CodeCapsules.Proofs.Search
import Mathlib.Data.List.Forall2

/-!
Contract: the calls of an open store, and the log of capsules that they would
act on if there were no device.

Owns:
- calls, their replies, and the trace of a list of calls;
- `Log`, the capsules in the order of their arrival, with one step for each
  call;
- what the steps of a log keep.

Main statement: a log only grows until it is erased, and never holds two
capsules with one header unless it did before.

Does not own: that a store behaves as a log.
-/

namespace CodeCapsules.Store

open Flash (Device)

/-- A call of an open store. -/
inductive Call where
  | append (header : Header) (code : Bytes)
  | appendCode (hash : Hash) (code : Bytes)
  | erase
  | find (length : UInt16) (hash : Hash)
  | lookup (length : UInt16) (hash : Hash)
  | list
  | used
  | free
deriving DecidableEq, Repr

/-- What a call answers when it succeeds. -/
inductive Reply where
  | appended (answer : Appended)
  | erased
  | slot (answer : Slot)
  | lookup (answer : Lookup)
  | listed (answer : List Record)
  | bytes (count : Nat)
deriving DecidableEq, Repr

namespace Call

/-- The code that a call brings. -/
def code? : Call → Option Bytes
  | .append _ code => some code
  | .appendCode _ code => some code
  | _ => none

variable {δ : Type}

/-- A call that only reads the store. -/
def reading {α : Type} (read : Store δ → Logged Error α) : Operation (Store δ) Error α := do
  Operation.ofLogged (read (← Operation.device))

@[simp]
theorem result_reading {α : Type} (read : Store δ → Logged Error α) (store : Store δ) :
    (reading read).result store = ((read store).outcome, store) := rfl

/-- A call, made on a store. -/
def perform [Device δ] : Call → Operation (Store δ) Error Reply
  | .append header code => Reply.appended <$> add header code
  | .appendCode hash code => Reply.appended <$> addCode hash code
  | .erase => (fun _ => Reply.erased) <$> clear
  | .find length hash => Reply.slot <$> reading fun store => store.findSlot length hash
  | .lookup length hash => Reply.lookup <$> reading fun store => store.lookup length hash
  | .list => Reply.listed <$> reading Store.list
  | .used => Reply.bytes <$> reading Store.used
  | .free => Reply.bytes <$> reading Store.free

end Call

/-! ## Traces -/

section Trace

variable {σ τ : Type}

/-- Calls made one after the other: what each answers, and the state after it. -/
def trace (step : Call → σ → Outcome Error Reply × σ) :
    List Call → σ → List (Outcome Error Reply × σ)
  | [], _ => []
  | call :: rest, state => step call state :: trace step rest (step call state).2

/-- What every admitted step keeps holds all along a trace of such steps. -/
theorem trace_keeps {step : Call → σ → Outcome Error Reply × σ} (kept : σ → Prop)
    {admitted : Call → Prop}
    (keeps : ∀ call state, admitted call → kept state → kept (step call state).2)
    (calls : List Call) (allAdmitted : ∀ call ∈ calls, admitted call) (state : σ)
    (initially : kept state) : ∀ entry ∈ trace step calls state, kept entry.2 := by
  induction calls generalizing state with
  | nil => simp [trace]
  | cons call rest inductionHypothesis =>
      have next := keeps call state (allAdmitted call (by simp)) initially
      intro entry member
      rcases List.mem_cons.mp member with isHead | inRest
      · rw [isHead]
        exact next
      · exact inductionHypothesis (fun call member => allAdmitted call (by simp [member])) _ next
          entry inRest

/-- Two machines whose related states answer admitted calls alike, and stay
related, answer alike all along. -/
theorem trace_related {leftStep : Call → σ → Outcome Error Reply × σ}
    {rightStep : Call → τ → Outcome Error Reply × τ} (related : σ → τ → Prop)
    {admitted : Call → Prop}
    (steps : ∀ call left right, admitted call → related left right →
      (leftStep call left).1 = (rightStep call right).1 ∧
        related (leftStep call left).2 (rightStep call right).2)
    (calls : List Call) (allAdmitted : ∀ call ∈ calls, admitted call) (left : σ) (right : τ)
    (initially : related left right) :
    List.Forall₂ (fun leftEntry rightEntry =>
        leftEntry.1 = rightEntry.1 ∧ related leftEntry.2 rightEntry.2)
      (trace leftStep calls left) (trace rightStep calls right) := by
  induction calls generalizing left right with
  | nil => exact .nil
  | cons call rest inductionHypothesis =>
      have stepped := steps call left right (allAdmitted call (by simp)) initially
      exact .cons stepped (inductionHypothesis
        (fun call member => allAdmitted call (by simp [member])) _ _ stepped.2)

/-- Traces that agree entry by entry give the same replies. -/
theorem replies_eq {agree : Outcome Error Reply × σ → Outcome Error Reply × τ → Prop}
    {left : List (Outcome Error Reply × σ)} {right : List (Outcome Error Reply × τ)}
    (alike : List.Forall₂ agree left right)
    (same : ∀ leftEntry rightEntry, agree leftEntry rightEntry → leftEntry.1 = rightEntry.1) :
    left.map Prod.fst = right.map Prod.fst := by
  induction alike with
  | nil => rfl
  | cons head _ inductionHypothesis =>
      rw [List.map_cons, List.map_cons, same _ _ head, inductionHypothesis]

end Trace

/-! ## The log -/

/-- Capsules in the order of their arrival, and the generation of handles. -/
structure Log where
  capsules : List Capsule
  generation : Generation
deriving DecidableEq, Repr

namespace Log

variable (first capacity : Nat)

/-- How many bytes the log takes when its first capsule is at `first`. -/
def used (log : Log) : Nat := first + totalSize log.capsules

/-- Adds a capsule, if its header is in order, new to the log, and there is
room for it. -/
def append (header : Header) (code : Bytes) (log : Log) : Outcome Error Appended × Log :=
  if header.length = 0 then (Outcome.refuse .zeroLength, log)
  else if header.length.toNat < headerSize then
    (Outcome.refuse (.recordTooShort header.length), log)
  else if sized : header.length.toNat = headerSize + code.length then
    match slotAmong first log.capsules header.length header.hash with
    | .found offset => (.ok ⟨offset, false⟩, log)
    | .free offset =>
        if capacity - log.used first < header.length.toNat then
          (Outcome.refuse (.containerFull offset header.length (capacity - log.used first)), log)
        else
          (.ok ⟨offset, true⟩, { log with capsules := log.capsules ++ [⟨header, code, sized⟩] })
  else (Outcome.refuse (.lengthMismatch header.length code.length), log)

/-- Adds code under a hash. No header can announce code of 65530 bytes. -/
def appendCode (hash : Hash) (code : Bytes) (log : Log) : Outcome Error Appended × Log :=
  if headerSize + code.length ≤ 65535 then
    log.append first capacity ⟨(headerSize + code.length).toUInt16, hash⟩ code
  else (Outcome.refuse (.lengthMismatch 65535 code.length), log)

/-- What a call answers on a log, and the log after it. -/
def step : Call → Log → Outcome Error Reply × Log
  | .append header code, log =>
      ((log.append first capacity header code).1.map .appended,
        (log.append first capacity header code).2)
  | .appendCode hash code, log =>
      ((log.appendCode first capacity hash code).1.map .appended,
        (log.appendCode first capacity hash code).2)
  | .erase, log => (.ok .erased, ⟨[], log.generation.next⟩)
  | .find length hash, log => (.ok (.slot (slotAmong first log.capsules length hash)), log)
  | .lookup length hash, log =>
      (.ok (.lookup (.ofSlot log.generation (slotAmong first log.capsules length hash))), log)
  | .list, log => (.ok (.listed (recordsAt first log.capsules)), log)
  | .used, log => (.ok (.bytes (log.used first)), log)
  | .free, log => (.ok (.bytes (capacity - log.used first)), log)

/-- A log in which no two capsules have one header. -/
def Distinct (log : Log) : Prop :=
  log.capsules.Pairwise fun earlier later => earlier.header ≠ later.header

section Steps

variable {first capacity : Nat}

/-- An append leaves the log or adds one capsule with a new header. -/
theorem append_cases (header : Header) (code : Bytes) (log : Log) :
    (log.append first capacity header code).2 = log ∨
      ∃ capsule : Capsule,
        (log.append first capacity header code).2 =
          { log with capsules := log.capsules ++ [capsule] } ∧
        ∀ other ∈ log.capsules, other.header ≠ capsule.header := by
  unfold append
  split
  · exact .inl rfl
  split
  · exact .inl rfl
  split
  · rename_i sized
    cases slotEq : slotAmong first log.capsules header.length header.hash with
    | found offset => exact .inl rfl
    | free offset =>
        simp only
        split
        · exact .inl rfl
        · exact .inr ⟨⟨header, code, sized⟩, rfl, header_ne_of_slotAmong_free slotEq⟩
  · exact .inl rfl

/-- A call that is no erase leaves the log or adds one capsule with a new
header. -/
theorem step_cases (call : Call) (log : Log) (keeps : call ≠ .erase) :
    (step first capacity call log).2 = log ∨
      ∃ capsule : Capsule,
        (step first capacity call log).2 =
          { log with capsules := log.capsules ++ [capsule] } ∧
        ∀ other ∈ log.capsules, other.header ≠ capsule.header := by
  cases call with
  | append header code => exact append_cases header code log
  | appendCode hash code =>
      show (log.appendCode first capacity hash code).2 = log ∨ _
      simp only [step]
      unfold appendCode
      split
      · exact append_cases _ code log
      · exact .inl rfl
  | erase => exact absurd rfl keeps
  | find length hash => exact .inl rfl
  | lookup length hash => exact .inl rfl
  | list => exact .inl rfl
  | used => exact .inl rfl
  | free => exact .inl rfl

/-- Until an erase, the capsules that were there stay in front. -/
theorem prefix_step {earlier : List Capsule} (call : Call) (log : Log) (keeps : call ≠ .erase)
    (before : earlier <+: log.capsules) :
    earlier <+: (step first capacity call log).2.capsules := by
  rcases step_cases call log keeps with same | ⟨capsule, added, -⟩
  · rw [same]
    exact before
  · rw [added]
    exact before.trans (List.prefix_append _ _)

/-- No call brings a header twice into the log. -/
theorem Distinct.step {log : Log} (distinct : log.Distinct) (call : Call) :
    (Log.step first capacity call log).2.Distinct := by
  by_cases erases : call = .erase
  · rw [erases]
    exact List.Pairwise.nil
  · rcases step_cases call log erases with same | ⟨capsule, added, fresh⟩
    · rw [same]
      exact distinct
    · rw [added]
      refine List.pairwise_append.mpr ⟨distinct, List.pairwise_singleton _ _, ?_⟩
      intro other member last isLast
      rw [List.mem_singleton.mp isLast]
      exact fresh other member

end Steps

end Log

end CodeCapsules.Store
