import Sgfx.Buffers.Diff
import Sgfx.Library.Fallible

/-!
# Packet batching

Encoded packets are put together in chunks that a transport takes one at a time.  A chunk is
closed before a packet that it has no room for, and the vertex data of the packets of one
chunk is staged in one arena, from its start on.

Reserving memory may fail at any time.

## Main Definitions

* `Packets`, with `prepare`, `uploadRange`, `append`, `appendOwned`, `finish`
* `PacketRun` — a builder, the packets it has taken and the ranges it has handed out

## Main Results

* `Packets.prepare_cases`, `Packets.append_cases`, `Packets.appendOwned_cases`
* `Packets.uploadRange_cases`
-/

namespace Sgfx

open Fallible

/-- `packets::Error`. -/
inductive PacketError where
  | tooLarge
  | outOfMemory
deriving DecidableEq

/-- What memory is reserved for: a chunk of the list, or the bytes of the current chunk. -/
inductive PacketMemory where
  | chunk
  | bytes

/-- `Chunk`. -/
structure PacketChunk where
  bytes : List UInt8
  arena : Option Nat
deriving DecidableEq

/-- `Packets<MAX_STREAM_BYTES, UPLOAD_ARENA_COUNT>`. -/
structure Packets (MAX_STREAM_BYTES UPLOAD_ARENA_COUNT : Nat) where
  chunks : List PacketChunk
  current : PacketChunk
  uploadOffset : UInt32
  bytes : Nat
  limit : UInt64

/-- `usize::saturating_add`. -/
def saturatingAddUsize (a b : Nat) : Nat := min (a + b) (2 ^ 64 - 1)

variable {M C : Nat}

namespace Packets

/-- `Packets::new`; the source asserts that the limit and both parameters are positive. -/
def new (limit : UInt64) : Packets M C := ⟨[], ⟨[], none⟩, 0, 0, limit⟩

/-- The builder after `finish_chunk`. -/
def close (p : Packets M C) : Packets M C :=
  { p with chunks := p.chunks ++ [p.current], current := ⟨[], none⟩, uploadOffset := 0 }

/-- `finish_chunk`. -/
def finishChunk (memory : PacketMemory → Bool) : Fallible (Packets M C) PacketError Unit := do
  liftM (failIf (memory .chunk = false) PacketError.outOfMemory)
  update close

/-- `prepare`. -/
def prepare (memory : PacketMemory → Bool) (maximum : Nat) :
    Fallible (Packets M C) PacketError Unit := do
  let p ← read
  liftM (failIf (p.limit.toNat < maximum) PacketError.tooLarge)
  if p.limit.toNat < saturatingAddUsize p.current.bytes.length maximum then finishChunk memory
  else pure ()

/-- Where a range of vertex data ends. -/
def uploadStop (p : Packets M C) (length : UInt32) : Except PacketError UInt32 :=
  okOr ((checkedAdd32 p.uploadOffset length).filter fun stop =>
    decide (stop.toNat ≤ p.limit.toNat)) .tooLarge

/-- The builder with its arena in use up to `stop`. -/
def stage (p : Packets M C) (stop : UInt32) : Packets M C :=
  { p with current := { p.current with arena := some (p.chunks.length % C) }, uploadOffset := stop }

/-- `upload_range`. -/
def uploadRange (length : UInt32) : Fallible (Packets M C) PacketError (Nat × UInt32) := do
  let p ← read
  let stop ← liftM (p.uploadStop length)
  update fun p => p.stage stop
  return (p.chunks.length % C, p.uploadOffset)

/-- The bytes of the stream with one more packet. -/
def bytesWith (p : Packets M C) (length : Nat) : Except PacketError Nat :=
  okOr ((checkedAddUsize p.bytes length).filter fun bytes => decide (bytes ≤ M)) .tooLarge

/-- `prepare_append`. -/
def prepareAppend (memory : PacketMemory → Bool) (length : Nat) :
    Fallible (Packets M C) PacketError Nat := do
  let p ← read
  let bytes ← liftM (p.bytesWith length)
  prepare memory length
  return bytes

/-- The builder with a packet in its current chunk. -/
def land (p : Packets M C) (commands : List UInt8) (bytes : Nat) : Packets M C :=
  { p with current := { p.current with bytes := p.current.bytes ++ commands }, bytes }

/-- `append`. -/
def append (memory : PacketMemory → Bool) (commands : List UInt8) :
    Fallible (Packets M C) PacketError Unit := do
  let bytes ← prepareAppend memory commands.length
  liftM (failIf (memory .bytes = false) PacketError.outOfMemory)
  update fun p => p.land commands bytes

/-- `append_owned`, with what it leaves of the caller's buffer. -/
def appendOwned (memory : PacketMemory → Bool) (commands : List UInt8) :
    Fallible (Packets M C) PacketError (List UInt8) := do
  let bytes ← prepareAppend memory commands.length
  let p ← read
  if p.current.bytes.isEmpty then
    update fun p => { p with current := { p.current with bytes := commands }, bytes }
    return []
  else
    append memory commands
    return commands

/-- `finish`. -/
def finish (memory : PacketMemory → Bool) (p : Packets M C) :
    Except PacketError (List PacketChunk) :=
  if p.current.bytes.isEmpty = false ∨ p.chunks.isEmpty = true then
    match finishChunk memory p with
    | (.ok _, p) => .ok p.chunks
    | (.error e, _) => .error e
  else .ok p.chunks

/-! ## What the operations do -/

/-- A packet of a length has room in the current chunk, as `prepare` checks it. -/
def Room (p : Packets M C) (length : Nat) : Prop :=
  saturatingAddUsize p.current.bytes.length length ≤ p.limit.toNat

theorem finishChunk_cases (memory : PacketMemory → Bool) (p : Packets M C) :
    finishChunk memory p = (.error .outOfMemory, p) ∨ finishChunk memory p = (.ok (), p.close) := by
  rw [finishChunk, bind_run, lift_run]
  cases memory .chunk with
  | false => exact .inl rfl
  | true => exact .inr rfl

/-- `prepare` fails and changes nothing, or leaves room, after closing the current chunk if
it had none. -/
theorem prepare_cases (memory : PacketMemory → Bool) (maximum : Nat) (p : Packets M C) :
    (∃ e, prepare memory maximum p = (.error e, p)) ∨
      maximum ≤ p.limit.toNat ∧
        ((p.Room maximum ∧ prepare memory maximum p = (.ok (), p)) ∨
          (¬ p.Room maximum ∧ prepare memory maximum p = (.ok (), p.close))) := by
  rw [prepare, read_bind_run, bind_run, lift_run, failIf]
  by_cases large : p.limit.toNat < maximum
  · rw [if_pos large]
    exact .inl ⟨_, rfl⟩
  · rw [if_neg large]
    dsimp only
    by_cases room : p.Room maximum
    · rw [if_neg (Nat.not_lt.mpr room)]
      exact .inr ⟨Nat.not_lt.mp large, .inl ⟨room, rfl⟩⟩
    · rw [if_pos (Nat.not_le.mp room)]
      rcases finishChunk_cases memory p with failed | closed
      · exact .inl ⟨_, failed⟩
      · exact .inr ⟨Nat.not_lt.mp large, .inr ⟨room, closed⟩⟩

theorem bytesWith_ok {p : Packets M C} {length bytes : Nat} (h : p.bytesWith length = .ok bytes) :
    bytes = p.bytes + length ∧ p.bytes + length < 2 ^ 64 ∧ p.bytes + length ≤ M := by
  rw [bytesWith, okOr_eq_ok, Option.filter_eq_some_iff, checkedAddUsize] at h
  obtain ⟨sum, within⟩ := h
  split at sum
  · rename_i fits
    obtain rfl := Option.some.inj sum
    exact ⟨rfl, fits, of_decide_eq_true within⟩
  · cases sum

theorem uploadStop_ok {p : Packets M C} {length stop : UInt32} (h : p.uploadStop length = .ok stop) :
    stop.toNat = p.uploadOffset.toNat + length.toNat ∧ stop.toNat ≤ p.limit.toNat := by
  rw [uploadStop, okOr_eq_ok, Option.filter_eq_some_iff, checkedAdd32] at h
  obtain ⟨sum, within⟩ := h
  split at sum
  · rename_i fits
    obtain rfl := Option.some.inj sum
    rw [UInt32.toNat_add, Nat.mod_eq_of_lt fits]
    refine ⟨rfl, ?_⟩
    have within := of_decide_eq_true within
    rwa [UInt32.toNat_add, Nat.mod_eq_of_lt fits] at within
  · cases sum

/-- `upload_range` fails and changes nothing, or hands out the next range of the arena of the
current chunk. -/
theorem uploadRange_cases (length : UInt32) (p : Packets M C) :
    (∃ e, uploadRange length p = (.error e, p)) ∨
      ∃ stop : UInt32, stop.toNat = p.uploadOffset.toNat + length.toNat ∧
        stop.toNat ≤ p.limit.toNat ∧
        uploadRange length p = (.ok (p.chunks.length % C, p.uploadOffset), p.stage stop) := by
  rw [uploadRange, read_bind_run, bind_run, lift_run]
  cases hstop : p.uploadStop length with
  | error e => exact .inl ⟨e, rfl⟩
  | ok stop =>
      obtain ⟨sum, within⟩ := uploadStop_ok hstop
      exact .inr ⟨stop, sum, within, rfl⟩

/-- The builder that `prepare` leaves to a packet with or without room. -/
def Prepared (p : Packets M C) (length : Nat) (p' : Packets M C) : Prop :=
  length ≤ p.limit.toNat ∧ ((p.Room length ∧ p' = p) ∨ (¬ p.Room length ∧ p' = p.close))

/-- `prepare_append` fails and changes nothing, or prepares a stream that stays within its
bound. -/
theorem prepareAppend_cases (memory : PacketMemory → Bool) (length : Nat) (p : Packets M C) :
    (∃ e, prepareAppend memory length p = (.error e, p)) ∨
      ∃ p', prepareAppend memory length p = (.ok (p.bytes + length), p') ∧
        p.bytes + length < 2 ^ 64 ∧ p.bytes + length ≤ M ∧ p.Prepared length p' := by
  rw [prepareAppend, read_bind_run, bind_run, lift_run]
  cases hbytes : p.bytesWith length with
  | error e => exact .inl ⟨e, rfl⟩
  | ok bytes =>
      obtain ⟨rfl, fits, within⟩ := bytesWith_ok hbytes
      dsimp only
      rw [bind_run]
      rcases prepare_cases memory length p with ⟨e, failed⟩ | ⟨small, prepared⟩
      · rw [failed]
        exact .inl ⟨e, rfl⟩
      · right
        rcases prepared with ⟨room, same⟩ | ⟨full, closed⟩
        · rw [same]
          exact ⟨p, rfl, fits, within, small, .inl ⟨room, rfl⟩⟩
        · rw [closed]
          exact ⟨p.close, rfl, fits, within, small, .inr ⟨full, rfl⟩⟩

/-- `append` fails and changes nothing, or runs out of memory for its bytes once the stream
is prepared, or puts the packet in the current chunk. -/
theorem append_cases (memory : PacketMemory → Bool) (commands : List UInt8) (p : Packets M C) :
    (∃ e, append memory commands p = (.error e, p)) ∨
      ∃ p', p.bytes + commands.length < 2 ^ 64 ∧ p.bytes + commands.length ≤ M ∧
        p.Prepared commands.length p' ∧
        ((memory .bytes = false ∧ append memory commands p = (.error .outOfMemory, p')) ∨
          (memory .bytes = true ∧ append memory commands p =
            (.ok (), p'.land commands (p.bytes + commands.length)))) := by
  rw [append, bind_run]
  rcases prepareAppend_cases memory commands.length p with
    ⟨e, failed⟩ | ⟨p', prepared, fits, within, left⟩
  · rw [failed]
    exact .inl ⟨e, rfl⟩
  · right
    refine ⟨p', fits, within, left, ?_⟩
    rw [prepared]
    dsimp only
    rw [bind_run, lift_run]
    cases memory .bytes with
    | false => exact .inl ⟨rfl, rfl⟩
    | true => exact .inr ⟨rfl, rfl⟩

theorem Prepared.nonempty {p p' : Packets M C} {length : Nat} (h : p.Prepared length p')
    (nonempty : p'.current.bytes ≠ []) : p.Room length ∧ p' = p := by
  rcases h.2 with same | ⟨-, rfl⟩
  · exact same
  · exact absurd rfl nonempty

/-- Once the stream is prepared, `append` depends on the memory for its bytes alone. -/
theorem append_prepared {memory : PacketMemory → Bool} {commands : List UInt8}
    {p p' : Packets M C} {bytes : Nat} (enough : memory .bytes = true)
    (prepared : prepareAppend memory commands.length p = (.ok bytes, p')) :
    append memory commands p = (.ok (), p'.land commands bytes) := by
  rw [append, bind_run, prepared]
  dsimp only
  rw [bind_run, lift_run, enough]
  rfl

/-- `append_owned` fails and changes nothing, or puts the packet in the current chunk.  With
memory for the bytes `append` does the same. -/
theorem appendOwned_cases (memory : PacketMemory → Bool) (commands : List UInt8)
    (p : Packets M C) :
    (∃ e, appendOwned memory commands p = (.error e, p) ∧
        (memory .bytes = true → append memory commands p = (.error e, p))) ∨
      ∃ p' left, p.bytes + commands.length < 2 ^ 64 ∧ p.bytes + commands.length ≤ M ∧
        p.Prepared commands.length p' ∧ appendOwned memory commands p =
          (.ok left, p'.land commands (p.bytes + commands.length)) ∧
        (memory .bytes = true → append memory commands p =
          (.ok (), p'.land commands (p.bytes + commands.length))) := by
  rw [appendOwned, bind_run]
  rcases prepareAppend_cases memory commands.length p with
    ⟨e, failed⟩ | ⟨p', prepared, fits, within, left⟩
  · rw [failed]
    refine .inl ⟨e, rfl, fun _ => ?_⟩
    rw [append, bind_run, failed]
  have copied : memory .bytes = true → append memory commands p =
      (.ok (), p'.land commands (p.bytes + commands.length)) :=
    fun enough => append_prepared enough prepared
  rw [prepared]
  dsimp only
  rw [read_bind_run]
  cases hbytes : p'.current.bytes with
  | nil =>
      -- The buffer of the caller becomes that of the chunk.
      refine .inr ⟨p', [], fits, within, left, ?_, copied⟩
      rw [land, hbytes]
      rfl
  | cons first rest =>
      -- A chunk that is not empty was not closed, so the second preparation is the first.
      obtain ⟨room, rfl⟩ := left.nonempty (by simp [hbytes])
      simp only [List.isEmpty_cons, Bool.false_eq_true, if_false]
      rw [bind_run]
      cases enough : memory .bytes with
      | false =>
          left
          refine ⟨.outOfMemory, ?_, fun absurd => by cases absurd⟩
          rw [append, bind_run, prepared]
          dsimp only
          rw [bind_run, lift_run, enough]
          rfl
      | true =>
          have again := copied enough
          refine .inr ⟨p', commands, fits, within, left, ?_, fun _ => again⟩
          rw [again]
          rfl

end Packets

end Sgfx
