import PermissionFeed.Proofs.Cleaning
import PermissionFeed.Proofs.Digits
import PermissionFeed.Proofs.Spellings

namespace PermissionFeed.PlayerId

variable {id : PlayerId} {chars digits : List Char} {bytes : List UInt8}

/-! ## Letter case -/

theorem parse?_trim (text : String) : parse? (Text.trim text) = parse? text := by
  rw [parse?, parse?, Text.trim, String.toList_ofList, Text.trimChars_trimChars]

theorem player_eq (raw : String) : Request.player raw = (ofText raw).mapError fun _ => .invalidPlayer raw := by
  have same : ofText (Text.trim raw) = (ofText raw).mapError fun _ => ⟨Text.trim raw⟩ := by
    rw [ofText, ofText, parse?_trim]
    cases parse? raw <;> rfl
  unfold Request.player
  simp only
  split
  · next blank =>
      have empty : Text.trim raw = "" := by simpa using blank
      have nobody : parse? raw = none := by
        rw [← parse?_trim, empty]
        rfl
      rw [ofText, nobody]
      rfl
  · rw [same]
    cases ofText raw <;> rfl

/-! ## Blanks around a spelling -/

end PermissionFeed.PlayerId
