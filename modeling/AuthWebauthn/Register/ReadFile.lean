import AuthWebauthn.Data.Buffer
import AuthWebauthn.Data.Stdio
import AuthWebauthn.Ngx
import Mathlib.Algebra.Group.Nat.Defs

namespace AuthWebauthn

open Memory Stdio

/-! `auth_webauthn_admin_read_file`.  The buffer starts with one chunk and is doubled
when it is full.  What the command prints when it fails is part of the failure.
-/

abbrev adminFileMax : Nat := 16 * 1024 * 1024

abbrev adminReadChunk : Nat := 65536

/-- `none` is an access outside of the allocated memory. -/
abbrev Reading := ExceptT Bytes Option

def exceedsMessage : Bytes := ascii "error: input exceeds 16777216 bytes\n"

def readFailedMessage (path : Bytes) : Bytes := ascii "error: read failed on '" ++ path ++ ascii "'\n"

def cannotOpenMessage (path : Bytes) : Bytes := ascii "error: cannot open '" ++ path ++ ascii "'\n"

/-- A larger block with the same contents. -/
def growTo (capacity : Nat) (buf : Buffer UInt8) : Option (Buffer UInt8) :=
  (Buffer.alloc capacity).write buf.written

def readRoom (buf : Buffer UInt8) : Reading (Buffer UInt8) :=
  if buf.written.length = buf.capacity then
    if buf.capacity ≥ adminFileMax then throw exceedsMessage
    else liftM (growTo (buf.capacity * 2) buf)
  else return buf

def readLoop (path : Bytes) (buf : Buffer UInt8) (stream : Stream) (error : Bool) : Reading (Buffer UInt8) := do
  let roomy ← readRoom buf
  let read := stream.fread (roomy.capacity - roomy.written.length) error
  let filled ← liftM (roomy.write read.1)
  if _ended : read.1 = [] then
    if read.2.2 then throw (readFailedMessage path)
    else return filled
  else readLoop path filled read.2.1 read.2.2
termination_by stream.bytes.length
decreasing_by
  have whole := congrArg List.length (stream.fread_bytes (roomy.capacity - roomy.written.length) error)
  have some : 0 < (stream.fread (roomy.capacity - roomy.written.length) error).1.length :=
    List.length_pos_iff.mpr _ended
  rw [List.length_append] at whole
  change (stream.fread (roomy.capacity - roomy.written.length) error).2.1.bytes.length < _
  omega

/-- The result: a length, and the memory that `out->data` points to. -/
structure FileContents where
  length : Nat
  memory : Buffer UInt8

def adminReadFile (stdin : Stream) (files : Bytes → Option Stream) (path : Bytes) : Reading FileContents := do
  let stream ← match if path = ascii "-" then some stdin else files path with
    | none => throw (cannotOpenMessage path)
    | some stream => pure stream
  let buf ← readLoop path (Buffer.alloc adminReadChunk) stream false
  let roomy ← if buf.written.length = buf.capacity then liftM (growTo (buf.capacity + 1) buf) else pure buf
  let terminated ← liftM (roomy.write [0])
  return ⟨buf.written.length, terminated⟩

variable {buf : Buffer UInt8}

/-- The capacities that the loop goes through. -/
def Doubled (capacity : Nat) : Prop := ∃ times, times ≤ 8 ∧ capacity = adminReadChunk * 2 ^ times

theorem Doubled.le {capacity : Nat} (doubled : Doubled capacity) : capacity ≤ adminFileMax := by
  obtain ⟨times, few, rfl⟩ := doubled
  exact Nat.mul_le_mul_left adminReadChunk (Nat.pow_le_pow_right (by decide) few)

theorem Doubled.next {capacity : Nat} (doubled : Doubled capacity) (small : capacity < adminFileMax) :
    Doubled (capacity * 2) := by
  obtain ⟨times, few, rfl⟩ := doubled
  refine ⟨times + 1, ?_, by rw [Nat.pow_succ, Nat.mul_assoc]⟩
  have below : times ≠ 8 := by
    intro last
    subst last
    exact absurd small (by decide)
  omega

theorem readRoom_full (full : buf.written.length = buf.capacity) (large : adminFileMax ≤ buf.capacity) :
    readRoom buf = throw exceedsMessage := by
  rw [readRoom, if_pos full, if_pos large]

/-- Below the limit there is always room for another byte. -/
theorem readRoom_roomy (doubled : Doubled buf.capacity)
    (room : buf.written.length < adminFileMax) :
    ∃ roomy, readRoom buf = pure roomy ∧ roomy.written = buf.written ∧
      roomy.written.length < roomy.capacity ∧ Doubled roomy.capacity := by
  unfold readRoom
  split_ifs with full large
  · omega
  · have positive : 0 < buf.capacity := by
      obtain ⟨times, _, same⟩ := doubled
      rw [same]
      exact Nat.mul_pos (by decide) (Nat.two_pow_pos times)
    obtain ⟨roomy, grown, capacity, written⟩ := Buffer.write_fits (show
      (Buffer.alloc (buf.capacity * 2) : Buffer UInt8).written.length + buf.written.length ≤
        (Buffer.alloc (buf.capacity * 2) : Buffer UInt8).capacity by
      change 0 + buf.written.length ≤ buf.capacity * 2
      omega)
    change roomy.capacity = buf.capacity * 2 at capacity
    change roomy.written = [] ++ buf.written at written
    rw [List.nil_append] at written
    refine ⟨roomy, by rw [growTo, grown]; rfl, written, ?_, ?_⟩
    · rw [written, capacity]
      omega
    · rw [capacity]
      exact doubled.next (by omega)
  · have fits := buf.fits
    exact ⟨buf, rfl, rfl, by omega, doubled⟩

/-- One turn of the loop when there is room. -/
theorem readLoop_turn (path : Bytes) (stream : Stream) (error : Bool) {roomy : Buffer UInt8}
    (entered : readRoom buf = pure roomy) :
    ∃ filled : Buffer UInt8, filled.capacity = roomy.capacity ∧
      filled.written = roomy.written ++ (stream.fread (roomy.capacity - roomy.written.length) error).1 ∧
      readLoop path buf stream error =
        if (stream.fread (roomy.capacity - roomy.written.length) error).1 = [] then
          if (stream.fread (roomy.capacity - roomy.written.length) error).2.2 then
            throw (readFailedMessage path)
          else pure filled
        else readLoop path filled (stream.fread (roomy.capacity - roomy.written.length) error).2.1
          (stream.fread (roomy.capacity - roomy.written.length) error).2.2 := by
  have fits := roomy.fits
  have short := stream.fread_length (roomy.capacity - roomy.written.length) error
  obtain ⟨filled, wrote, capacity, written⟩ := Buffer.write_fits (show roomy.written.length +
    (stream.fread (roomy.capacity - roomy.written.length) error).1.length ≤ roomy.capacity by omega)
  refine ⟨filled, capacity, written, ?_⟩
  rw [readLoop, entered, pure_bind]
  simp only [wrote]
  rfl

/-- How the loop ends: the bytes that are already there and those still to come decide. -/
theorem readLoop_spec (path : Bytes) (doubled : Doubled buf.capacity) (stream : Stream) (error : Bool) :
    (adminFileMax ≤ buf.written.length + stream.bytes.length ∧
      readLoop path buf stream error = throw exceedsMessage) ∨
    (buf.written.length + stream.bytes.length < adminFileMax ∧ (error || stream.failed) = true ∧
      readLoop path buf stream error = throw (readFailedMessage path)) ∨
    (buf.written.length + stream.bytes.length < adminFileMax ∧ (error || stream.failed) = false ∧
      ∃ filled, readLoop path buf stream error = pure filled ∧
        filled.written = buf.written ++ stream.bytes ∧ filled.written.length < filled.capacity) := by
  induction size : stream.bytes.length using Nat.strongRecOn generalizing buf stream error with
  | ind length ih =>
      subst size
      by_cases room : buf.written.length < adminFileMax
      · obtain ⟨roomy, entered, same, spare, doubledRoomy⟩ := readRoom_roomy doubled room
        obtain ⟨filled, capacity, written, turn⟩ := readLoop_turn path stream error entered
        have whole := stream.fread_bytes (roomy.capacity - roomy.written.length) error
        rw [turn]
        by_cases ended : (stream.fread (roomy.capacity - roomy.written.length) error).1 = []
        · obtain ⟨empty, indicator⟩ := Stream.fread_ended (by omega) ended
          rw [if_pos ended, indicator, empty, List.length_nil, List.append_nil]
          rw [ended, List.append_nil, same] at written
          cases failing : error || stream.failed with
          | true => exact .inr (.inl ⟨room, rfl, rfl⟩)
          | false =>
              refine .inr (.inr ⟨room, rfl, filled, rfl, written, ?_⟩)
              rw [written, capacity, ← same]
              exact spare
        · have total : filled.written.length +
              (stream.fread (roomy.capacity - roomy.written.length) error).2.1.bytes.length =
                buf.written.length + stream.bytes.length := by
            rw [written, ← same, ← whole, List.length_append, List.length_append, Nat.add_assoc]
          have shorter : (stream.fread (roomy.capacity - roomy.written.length) error).2.1.bytes.length <
              stream.bytes.length := by
            have some := List.length_pos_iff.mpr ended
            have lengths := congrArg List.length whole
            rw [List.length_append] at lengths
            omega
          have later := ih _ shorter (capacity ▸ doubledRoomy) _
            (stream.fread (roomy.capacity - roomy.written.length) error).2.2 rfl
          have joined : filled.written ++
              (stream.fread (roomy.capacity - roomy.written.length) error).2.1.bytes =
                buf.written ++ stream.bytes := by
            rw [written, List.append_assoc, whole, same]
          rw [total, Stream.fread_failed ended, joined] at later
          rw [if_neg ended]
          exact later
      · have fits := buf.fits
        have limit := doubled.le
        refine .inl ⟨by omega, ?_⟩
        rw [readLoop, readRoom_full (by omega) (by omega)]
        rfl

/-- What reading the stream should come to. -/
structure ReadsExactly (stream : Stream) (result : Option (Except Bytes FileContents)) : Prop where
  succeeds : (∃ out, result = some (.ok out)) ↔ stream.failed = false ∧ stream.bytes.length ≤ adminFileMax
  contents : ∀ out, result = some (.ok out) →
    out.length = stream.bytes.length ∧ out.memory.written = stream.bytes ++ [0]
  exceeds : result = some (.error exceedsMessage) → adminFileMax < stream.bytes.length

/-- The stream that a path names. -/
def streamAt (stdin : Stream) (files : Bytes → Option Stream) (path : Bytes) : Option Stream :=
  if path = ascii "-" then some stdin else files path

theorem adminReadFile_loop {stdin stream : Stream} {files : Bytes → Option Stream} {path : Bytes}
    (opened : streamAt stdin files path = some stream) :
    adminReadFile stdin files path = (do
      let buf ← readLoop path (Buffer.alloc adminReadChunk) stream false
      let roomy ← if buf.written.length = buf.capacity then liftM (growTo (buf.capacity + 1) buf) else pure buf
      let terminated ← liftM (roomy.write [0])
      return ⟨buf.written.length, terminated⟩) := by
  unfold streamAt at opened
  rw [adminReadFile, opened]
  rfl

theorem doubled_chunk : Doubled (Buffer.alloc adminReadChunk : Buffer UInt8).capacity := ⟨0, by decide, rfl⟩

/-- How the command ends on an open stream. -/
theorem adminReadFile_spec {stdin stream : Stream} {files : Bytes → Option Stream} {path : Bytes}
    (opened : streamAt stdin files path = some stream) :
    (adminFileMax ≤ stream.bytes.length ∧
      adminReadFile stdin files path = some (.error exceedsMessage)) ∨
    (stream.bytes.length < adminFileMax ∧ stream.failed = true ∧
      adminReadFile stdin files path = some (.error (readFailedMessage path))) ∨
    (stream.bytes.length < adminFileMax ∧ stream.failed = false ∧
      ∃ out, adminReadFile stdin files path = some (.ok out) ∧ out.length = stream.bytes.length ∧
        out.memory.written = stream.bytes ++ [0]) := by
  have ending := readLoop_spec path doubled_chunk stream false
  change (adminFileMax ≤ 0 + _ ∧ _) ∨ (0 + _ < adminFileMax ∧ _) ∨ (0 + _ < adminFileMax ∧ _) at ending
  rw [Nat.zero_add, Bool.false_or] at ending
  rw [adminReadFile_loop opened]
  rcases ending with ⟨long, ran⟩ | ⟨short, failed, ran⟩ | ⟨short, intact, filled, ran, written, spare⟩
  · rw [ran]
    exact .inl ⟨long, rfl⟩
  · rw [ran]
    exact .inr (.inl ⟨short, failed, rfl⟩)
  · obtain ⟨terminated, wrote, _, whole⟩ := Buffer.write_fits (show
      filled.written.length + [(0 : UInt8)].length ≤ filled.capacity by
        rw [List.length_singleton]
        omega)
    change filled.written = [] ++ stream.bytes at written
    rw [List.nil_append] at written
    refine .inr (.inr ⟨short, intact, ⟨filled.written.length, terminated⟩, ?_, by rw [written], ?_⟩)
    · rw [ran, pure_bind, if_neg (by omega), pure_bind]
      simp only [wrote]
      rfl
    · rw [whole, written]

theorem readFailedMessage_ne_exceeds (path : Bytes) : readFailedMessage path ≠ exceedsMessage := by
  intro same
  have seventh := congrArg (fun message : Bytes => message[7]?) same
  simp only [readFailedMessage, List.append_assoc] at seventh
  rw [List.getElem?_append_left (by decide)] at seventh
  exact absurd seventh (by decide)

/-- Reading is exact except for streams of exactly the maximal length. -/
theorem file_read_exactly_iff (stdin : Stream) (files : Bytes → Option Stream) (path : Bytes) (stream : Stream)
    (opened : streamAt stdin files path = some stream) :
    ReadsExactly stream (adminReadFile stdin files path) ↔ stream.bytes.length ≠ adminFileMax := by
  rcases adminReadFile_spec opened with ⟨long, ran⟩ | ⟨short, failed, ran⟩ |
    ⟨short, intact, out, ran, length, written⟩
  · constructor
    · intro reads
      exact Nat.ne_of_gt (reads.exceeds ran)
    · intro other
      rw [ran]
      exact
        { succeeds := by
            constructor
            · intro succeeded
              obtain ⟨_, cast⟩ := succeeded
              cases cast
            · intro fits
              omega
          contents := fun _ same => by cases same
          exceeds := fun _ => by omega }
  · refine ⟨fun _ => by omega, fun _ => ?_⟩
    rw [ran]
    exact
      { succeeds := by simp [failed]
        contents := fun _ same => by cases same
        exceeds := fun same => by
          have message := Except.error.inj (Option.some.inj same)
          exact absurd message (readFailedMessage_ne_exceeds path) }
  · refine ⟨fun _ => by omega, fun _ => ?_⟩
    rw [ran]
    exact
      { succeeds := by
          constructor
          · intro _
            exact ⟨intact, by omega⟩
          · intro _
            exact ⟨out, rfl⟩
        contents := fun other same => by
          cases same
          exact ⟨length, written⟩
        exceeds := fun same => by cases same }

def Sample.shortFile : Stream := ⟨[⟨ascii "\x7b", by decide, false⟩, ⟨ascii "\x7d", by decide, false⟩], false⟩

theorem short_file_read :
    ReadsExactly Sample.shortFile (adminReadFile Sample.shortFile (fun _ => none) (ascii "-")) :=
  (file_read_exactly_iff Sample.shortFile (fun _ => none) (ascii "-") Sample.shortFile rfl).mpr (by decide)

/-- As many bytes as the limit allows, in one part. -/
def Sample.largestFile : Stream := ⟨[⟨List.replicate adminFileMax 0, by simp, false⟩], false⟩

theorem largest_file_refused :
    Sample.largestFile.failed = false ∧ Sample.largestFile.bytes.length = adminFileMax ∧
      adminReadFile Sample.largestFile (fun _ => none) (ascii "-") = some (.error exceedsMessage) ∧
      ¬ ReadsExactly Sample.largestFile (adminReadFile Sample.largestFile (fun _ => none) (ascii "-")) := by
  have length : Sample.largestFile.bytes.length = adminFileMax := by
    simp only [Sample.largestFile, Stream.bytes, List.flatMap_cons, List.flatMap_nil, List.append_nil,
      List.length_replicate]
  have opened : streamAt Sample.largestFile (fun _ => none) (ascii "-") = some Sample.largestFile := rfl
  have refused : adminReadFile Sample.largestFile (fun _ => none) (ascii "-") =
      some (.error exceedsMessage) := by
    rcases adminReadFile_spec opened with ⟨_, ran⟩ | ⟨short, _⟩ | ⟨short, _⟩
    · exact ran
    · omega
    · omega
  refine ⟨rfl, length, refused, fun reads => ?_⟩
  have longer := reads.exceeds refused
  omega

end AuthWebauthn
