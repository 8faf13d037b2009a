import CodeCapsules.Proofs.Confinement
import CodeCapsules.Proofs.Framing

/-!
Contract: which images, read from a frame, let a store halt.

The check of an image compares numbers of any size, while the end of a file is a
sum of words. So a file may pass the check and yet have no end.

Owns:
- a write to a file whose end is not an address;
- the condition under which no action on an accepted image halts.

Main statement: on an image that is read from a frame, no run of actions halts
exactly if the end of the container is an address.
-/

namespace CodeCapsules

open Flash (Command Device Image WriteSession)

namespace Flash.Image

variable {image : Image} {index : Nat} {entry : Entry}

theorem writeSession_overflow (chunk : Bytes) (filed : image.file index = .ok entry)
    (busy : image.cursor = some ⟨index, 0⟩)
    (overflows : UInt32.size ≤ entry.base.value.toNat + entry.size.toNat) :
    image.writeSession chunk = Outcome.halt .sumOverflow := by
  have start : (sum32 entry.base.value 0 : Outcome Error UInt32) = .ok entry.base.value := by
    rw [sum32_eq_ok (by exact entry.base.value.toNat_lt), UInt32.add_zero]
  have covers : (entry.covers ⟨entry.base.value⟩ chunk.length.toUInt32 : Outcome Error Bool) =
      Outcome.halt .sumOverflow := by
    unfold Entry.covers Entry.finish sum32
    rw [if_pos (UInt32.le_refl _), if_neg (Nat.not_lt.mpr overflows)]
    rfl
  unfold writeSession
  simp only [busy, filed, Outcome.ofExcept_ok, Outcome.bind_ok, start, covers]
  rfl

end Flash.Image

namespace Store

open Flash.Image (ofFrame)

/-- An erase halts at a container whose end is not an address. -/
theorem erase_overflow {image : Image} {container : Container}
    (filed : image.file container.index = .ok container.entry) (idle : image.cursor = none)
    (overflows : UInt32.size ≤ container.base.value.toNat + container.capacity) :
    ((erase container).result image).1 = Outcome.halt .sumOverflow := by
  have opened : (Device.openFile container.index 0 : Command Image).result image =
      (.ok (), { image with cursor := some ⟨container.index, 0⟩ }) :=
    Flash.Image.result_openFile_filed filed idle (Nat.zero_le _)
  have writing : (Device.writeBytes eraseMark : Command Image).result
      { image with cursor := some ⟨container.index, 0⟩ } =
      (Outcome.halt .sumOverflow, { image with cursor := some ⟨container.index, 0⟩ }) := by
    have halts : { image with cursor := some ⟨container.index, 0⟩ }.writeSession eraseMark =
        Outcome.halt .sumOverflow :=
      Flash.Image.writeSession_overflow eraseMark filed rfl overflows
    show (Flash.Image.replacing fun image => image.writeSession eraseMark).result _ = _
    rw [Flash.Image.result_replacing, halts]
    rfl
  rw [result_erase, WriteSession.result_run_of_open opened, WriteSession.result_writeAll_cons,
    writing]
  rfl

/-- A store on an image that was read from a frame never halts, whatever is done
with it, exactly if the end of its container is an address. -/
theorem accepted_image_never_halts_iff (frame : Bytes) (image : Image) (config : Config)
    (store : Store Image) (read : ofFrame frame = .ok image)
    (opened : (start image config).outcome = .ok store) :
    (∀ last, Runs (fun _ => True) store last →
        ∀ action : Action, (action.result last).1.Answered) ↔
      store.container.base.value.toNat + store.container.capacity < UInt32.size := by
  obtain ⟨-, valid, idle, -⟩ := Flash.Image.ofFrame_eq_ok_iff.mp read
  obtain ⟨located, storeEq⟩ := eq_of_start opened
  have filed : image.file store.container.index = .ok store.container.entry :=
    file_of_locate located
  have deviceEq : store.device = image := by rw [storeEq]
  constructor
  · intro answered
    by_contra overflows
    have halted : ((erase store.container).result store.device).1 = Outcome.halt .sumOverflow := by
      rw [deviceEq]
      exact erase_overflow filed idle (Nat.not_lt.mp overflows)
    have cleared := answered store (.done store) (.perform .erase)
    simp only [Action.result, Call.perform, Operation.result_map, Outcome.answered_map] at cleared
    exact cleared .sumOverflow (clear_eq_error.mpr halted)
  · intro finishes last ran action
    have reaches : image.Reaches store.container.index store.container.entry :=
      ⟨filed, Flash.Image.holds_of_validate valid filed, finishes⟩
    rw [← deviceEq] at reaches
    obtain ⟨containerEq, lastReaches, -⟩ := confined_of_runs ran reaches
    rw [← containerEq] at lastReaches
    exact (action.confined last lastReaches).1

/-- The last sixteen bytes that have an address, all of them the container. -/
def brimImage : Image :=
  ⟨0xFFFFFFF0, Array.replicate 16 0, [⟨⟨0xFFFFFFF0⟩, 16, .capsuleBuffer⟩], none⟩

def brimContainer : Container := ⟨0, ⟨⟨0xFFFFFFF0⟩, 16, .capsuleBuffer⟩, by decide⟩

theorem blank_image_never_halts :
    ofFrame blankImage.toFrame = .ok blankImage ∧
      (start blankImage .standard).outcome =
        .ok ⟨blankImage, .standard, blankContainer, .initial⟩ ∧
      ∀ last, Runs (fun _ => True)
          (⟨blankImage, .standard, blankContainer, .initial⟩ : Store Image) last →
        ∀ action : Action, (action.result last).1.Answered := by
  have read : ofFrame blankImage.toFrame = .ok blankImage :=
    Flash.Image.ofFrame_toFrame ⟨by decide, by decide⟩ rfl
  have opened : (start blankImage .standard).outcome =
      .ok ⟨blankImage, .standard, blankContainer, .initial⟩ := rfl
  exact ⟨read, opened, (accepted_image_never_halts_iff _ _ _ _ read opened).mpr (by decide)⟩

/-- A container may end with the addresses themselves. Its image is accepted and
its store opens, but an erase halts. -/
theorem accepted_image_halts_at_the_brim :
    ofFrame brimImage.toFrame = .ok brimImage ∧
      (start brimImage .standard).outcome =
        .ok ⟨brimImage, .standard, brimContainer, .initial⟩ ∧
      ((Action.perform .erase).result
        (⟨brimImage, .standard, brimContainer, .initial⟩ : Store Image)).1 =
          Outcome.halt .sumOverflow := by
  refine ⟨Flash.Image.ofFrame_toFrame ⟨by decide, by decide⟩ rfl, rfl, by decide +kernel⟩

end Store

end CodeCapsules
