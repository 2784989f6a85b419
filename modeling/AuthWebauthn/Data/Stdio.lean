import Mathlib.Data.List.Basic
import Mathlib.Data.Option.Basic

namespace Stdio

/-! A stream brings its bytes in parts: a read returns at most the rest of one part, so
any sequence of short reads is possible.  The error indicator stays set once a read
has set it, also when later reads bring bytes again.
-/

structure Part where
  bytes : List UInt8
  nonempty : bytes ≠ []
  /-- The read that brings the last of these bytes sets the error indicator. -/
  failed : Bool

structure Stream where
  parts : List Part
  /-- The read after the last part fails and does not find the end of the file. -/
  endFailed : Bool

namespace Stream

def bytes (stream : Stream) : List UInt8 := stream.parts.flatMap Part.bytes

/-- Some read of the stream fails. -/
def failed (stream : Stream) : Bool := stream.parts.any Part.failed || stream.endFailed

/-- The bytes that one read brings, what is left, and the error indicator. -/
def fread (want : Nat) (stream : Stream) (error : Bool) : List UInt8 × Stream × Bool :=
  match stream with
  | ⟨[], endFailed⟩ => ([], ⟨[], endFailed⟩, error || endFailed)
  | ⟨part :: rest, endFailed⟩ =>
      if more : want < part.bytes.length then
        (part.bytes.take want,
          ⟨{ part with bytes := part.bytes.drop want, nonempty := by simpa using more } :: rest, endFailed⟩,
          error)
      else (part.bytes, ⟨rest, endFailed⟩, error || part.failed)

theorem fread_bytes (want : Nat) (stream : Stream) (error : Bool) :
    (stream.fread want error).1 ++ (stream.fread want error).2.1.bytes = stream.bytes := by
  obtain ⟨parts, endFailed⟩ := stream
  cases parts with
  | nil => rfl
  | cons part rest =>
      by_cases more : want < part.bytes.length
      · simp only [fread, more, dite_true, bytes, List.flatMap_cons]
        rw [← List.append_assoc, List.take_append_drop]
      · simp [fread, more, bytes]

theorem fread_length (want : Nat) (stream : Stream) (error : Bool) :
    (stream.fread want error).1.length ≤ want := by
  obtain ⟨parts, endFailed⟩ := stream
  cases parts with
  | nil => exact Nat.zero_le _
  | cons part rest =>
      by_cases more : want < part.bytes.length
      · simp only [fread, more, dite_true, List.length_take]
        exact Nat.min_le_left _ _
      · simp only [fread, more, dite_false]
        omega

/-- A read that brings nothing has met the end or an error. -/
theorem fread_ended {want : Nat} {stream : Stream} {error : Bool} (positive : 0 < want)
    (nothing : (stream.fread want error).1 = []) :
    stream.bytes = [] ∧ (stream.fread want error).2.2 = (error || stream.failed) := by
  obtain ⟨parts, endFailed⟩ := stream
  cases parts with
  | nil => exact ⟨rfl, by simp [fread, failed]⟩
  | cons part rest =>
      have some := part.nonempty
      by_cases more : want < part.bytes.length
      · simp only [fread, more, dite_true, List.take_eq_nil_iff] at nothing
        rcases nothing with zero | empty
        · omega
        · exact absurd empty some
      · simp only [fread, more, dite_false] at nothing
        exact absurd nothing some

theorem fread_failed {want : Nat} {stream : Stream} {error : Bool}
    (something : (stream.fread want error).1 ≠ []) :
    ((stream.fread want error).2.2 || (stream.fread want error).2.1.failed) = (error || stream.failed) := by
  obtain ⟨parts, endFailed⟩ := stream
  cases parts with
  | nil => exact absurd rfl something
  | cons part rest =>
      by_cases more : want < part.bytes.length
      · simp [fread, more, failed]
      · simp [fread, more, failed, Bool.or_assoc]

end Stream

end Stdio
