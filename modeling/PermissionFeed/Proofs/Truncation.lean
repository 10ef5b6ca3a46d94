import PermissionFeed.Proofs.Frames
import PermissionFeed.Proofs.Steadiness

namespace PermissionFeed

open Cbor Cbor.Reader

namespace Cbor

theorem exists_missing_tokens {sequence : List Token} (fit : ∀ token ∈ sequence, token.Fits) {front back : List UInt8}
    (count : Nat) (written : sequence.flatMap Token.written = front ++ back) (cut : back ≠ []) :
    ∃ missing, missing ≠ [] ∧ sequence = tokensWithin count front ++ missing := by
  induction count generalizing sequence front with
  | zero =>
      refine ⟨sequence, ?_, rfl⟩
      rintro rfl
      exact cut (List.append_eq_nil_iff.mp written.symm).2
  | succ count ih =>
      cases sequence with
      | nil => exact absurd (List.append_eq_nil_iff.mp written.symm).2 cut
      | cons token sequence =>
          rw [List.forall_mem_cons] at fit
          rw [tokensWithin]
          cases found : Token.next? front with
          | none => exact ⟨_, List.cons_ne_nil token sequence, rfl⟩
          | some taken =>
              -- What is cut off from the front is what is cut off from the whole.
              have whole := Token.next?_written fit.1 (sequence.flatMap Token.written)
              rw [← List.flatMap_cons, written, Token.steady_next? front taken.1 taken.2 found back] at whole
              obtain ⟨same, behind⟩ := Prod.mk.inj (Option.some.inj whole)
              obtain ⟨missing, present, others⟩ := ih fit.2 behind.symm
              refine ⟨missing, present, ?_⟩
              simp only [same, List.cons_append, ← others]

end Cbor

namespace Frame

theorem steady_entryField (name : List UInt8) : Steady (EntryField.read name) := by
  unfold EntryField.read
  split
  · exact (steady_choice action?).bind fun _ => steady_pure _
  · exact steady_text.bind fun _ => steady_pure _
  · exact (steady_optional steady_int64 rfl).bind fun _ => steady_pure _
  · exact (steady_skip _).bind fun _ => steady_pure _

theorem steady_readEntry : Steady readEntry :=
  (steady_record steady_entryField).bind fun _ => steady_lift _

theorem steady_eventField (name : List UInt8) : Steady (EventField.read name) := by
  have entries := steady_list steady_readEntry
  unfold EventField.read
  split
  · exact ((steady_tuple 16).bind fun _ => steady_lift _).bind fun _ => steady_pure _
  · exact (steady_shortBytes.bind fun _ => steady_lift _).bind fun _ => steady_pure _
  · exact steady_int64.bind fun _ => steady_pure _
  · exact steady_text.bind fun _ => steady_pure _
  · exact steady_bool.bind fun _ => steady_pure _
  · exact entries.bind fun _ => steady_pure _
  · exact entries.bind fun _ => steady_pure _
  · exact entries.bind fun _ => steady_pure _
  · exact (steady_skip _).bind fun _ => steady_pure _

theorem steady_readEvent : Steady readEvent :=
  (steady_record steady_eventField).bind fun _ => steady_lift _

theorem steady_frameField (name : List UInt8) : Steady (FrameField.read name) := by
  unfold FrameField.read
  split
  · exact steady_byte.bind fun _ => steady_pure _
  · exact steady_readEvent.bind fun _ => steady_pure _
  · exact (steady_skip _).bind fun _ => steady_pure _

theorem steady_read : Steady read :=
  (steady_record steady_frameField).bind fun _ => steady_lift _

theorem decode_append {bytes : List UInt8} (formed : decode bytes ≠ .error .malformed) (more : List UInt8) :
    decode (bytes ++ more) = decode bytes := by
  obtain ⟨following, longer⟩ := exists_tokens_append bytes more
  unfold decode at formed ⊢
  rw [longer]
  cases taken : read (tokens bytes) with
  | none =>
      rw [taken] at formed
      exact absurd rfl formed
  | some found => rw [steady_read (tokens bytes) found.1 found.2 taken following]

theorem decode_of_cut {frame : Frame} (fits : frame.event.Fits) {part rest : List UInt8}
    (whole : frame.encode = part ++ rest) (cut : rest ≠ []) : decode part = .error .malformed := by
  have reads := reads_frame fits
  obtain ⟨missing, present, same⟩ := exists_missing_tokens reads.fit part.length whole cut
  have taken := reads.takes []
  rw [List.append_nil, same] at taken
  rw [decode, tokens, steady_read.eq_none_of_cut taken present]

theorem decode_frame {frame : Frame} (fits : frame.event.Fits) :
    decode frame.encode =
      if frame.version = frameVersion then .ok frame else .error (.versionMismatch frame.version) := by
  obtain ⟨following, taken⟩ := exists_read_encode fits []
  rw [List.append_nil] at taken
  rw [decode, taken]

theorem decode_frame_ne_malformed {frame : Frame} (fits : frame.event.Fits) :
    decode frame.encode ≠ .error .malformed := by
  rw [decode_frame fits]
  split <;> simp

/-- A frame tells by itself where it ends: what is left of it when bytes are missing is malformed, bytes behind it are
ignored, and so no frame begins with the bytes of another one. -/
theorem delimits_itself (frame : Frame) (fits : frame.event.Fits) :
    (∀ part rest, frame.encode = part ++ rest → rest ≠ [] → decode part = .error .malformed) ∧
      (∀ rest, decode (frame.encode ++ rest) = decode frame.encode) ∧
      ∀ other : Frame, other.event.Fits → other.encode <+: frame.encode → other = frame := by
  have truncated (part rest : List UInt8) (whole : frame.encode = part ++ rest) (cut : rest ≠ []) :
      decode part = .error .malformed :=
    decode_of_cut fits whole cut
  refine ⟨truncated, decode_append (decode_frame_ne_malformed fits), fun other alsoFits front => ?_⟩
  obtain ⟨rest, same⟩ := front
  cases rest with
  | nil =>
      rw [List.append_nil] at same
      exact encode_inj alsoFits fits same
  | cons byte rest =>
      have malformed := truncated other.encode (byte :: rest) same.symm (List.cons_ne_nil byte rest)
      exact absurd malformed (decode_frame_ne_malformed alsoFits)

theorem delimits_itself_renewal :
    let event : ChangeEvent :=
      ⟨⟨.numbered 1, -1, Reason.playerGroupAdd, false, ⟨[], [.remove "vip", .add "vip" (some (-300))], []⟩⟩, .zero⟩
    let frame : Frame := ⟨frameVersion, event⟩
    event.Fits ∧ frame.encode.dropLast ++ [0x80] = frame.encode ∧ decode frame.encode.dropLast = .error .malformed ∧
      decode (frame.encode ++ frame.encode) = .ok frame := by
  intro event frame
  have empty : EntriesFit [] := ⟨by decide, by simp⟩
  have fits : event.Fits := ⟨by decide, empty, ⟨by decide, by decide⟩, empty⟩
  have last : frame.encode.dropLast ++ [0x80] = frame.encode := by decide +kernel
  obtain ⟨truncated, lengthened, -⟩ := delimits_itself frame fits
  refine ⟨fits, last, truncated _ _ last.symm (by simp), (lengthened frame.encode).trans ?_⟩
  have formed : decode frame.encode = if frame.version = frameVersion then .ok frame else _ := decode_frame fits
  rw [formed, if_pos rfl]

end Frame

end PermissionFeed
