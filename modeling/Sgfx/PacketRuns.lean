import Mathlib.Data.List.Induction
import Sgfx.Packets

/-!
# Runs of a packet builder

Whatever is prepared, staged and appended, and whatever fails, the chunks hold the packets
that were taken, in order and undivided, and the ranges staged for a chunk are apart.

## Main Definitions

* `PacketOp`, `PacketRun` — a builder, the packets it took and the ranges it handed out
* `PacketRun.Landed`, `PacketRun.Staged` — the invariant
* `PacketsSound`

## Main Results

* `PacketRun.run_landed`, `PacketRun.run_staged`
* `packets_sound`
-/

namespace Sgfx

open Fallible

/-- One call of a builder. -/
inductive PacketOp where
  | prepare (memory : PacketMemory → Bool) (maximum : Nat)
  | uploadRange (length : UInt32)
  | append (memory : PacketMemory → Bool) (commands : List UInt8)
  | appendOwned (memory : PacketMemory → Bool) (commands : List UInt8)

/-- A range of vertex data, and the chunk that it was handed out for. -/
structure StagedRange where
  chunk : Nat
  arena : Nat
  start : UInt32
  length : UInt32

/-- Where a range ends. -/
def StagedRange.stop (range : StagedRange) : Nat := range.start.toNat + range.length.toNat

/-- A packet, and the chunk that it was put in. -/
structure LandedPacket where
  chunk : Nat
  commands : List UInt8

/-- A builder, the packets it took and the ranges it handed out. -/
structure PacketRun (M C : Nat) where
  packets : Packets M C
  landed : List LandedPacket
  staged : List StagedRange

variable {M C : Nat}

namespace PacketRun

/-- A new builder. -/
def new (limit : UInt64) : PacketRun M C := ⟨.new limit, [], []⟩

/-- The answer to a packet: it is in the current chunk unless it failed. -/
def answered {α : Type} (r : PacketRun M C) (commands : List UInt8)
    (answer : Except PacketError α × Packets M C) : PacketRun M C :=
  match answer with
  | (.ok _, packets) =>
      { r with packets, landed := r.landed ++ [⟨packets.chunks.length, commands⟩] }
  | (.error _, packets) => { r with packets }

/-- Run one call. -/
def step (r : PacketRun M C) : PacketOp → PacketRun M C
  | .prepare memory maximum => { r with packets := (Packets.prepare memory maximum r.packets).2 }
  | .uploadRange length =>
      match Packets.uploadRange length r.packets with
      | (.ok (arena, start), packets) =>
          { r with packets, staged := r.staged ++ [⟨packets.chunks.length, arena, start, length⟩] }
      | (.error _, packets) => { r with packets }
  | .append memory commands => r.answered commands (Packets.append memory commands r.packets)
  | .appendOwned memory commands =>
      r.answered commands (Packets.appendOwned memory commands r.packets)

/-- Run some calls. -/
def run (r : PacketRun M C) (ops : List PacketOp) : PacketRun M C := ops.foldl step r

/-- The packets of a chunk. -/
def packetsOf (landed : List LandedPacket) (chunk : Nat) : List UInt8 :=
  (landed.filter fun packet => packet.chunk == chunk).flatMap LandedPacket.commands

/-- All chunks, the current one last. -/
def allChunks (p : Packets M C) : List PacketChunk := p.chunks ++ [p.current]

theorem allChunks_getElem? {p : Packets M C} {k : Nat} {chunk : PacketChunk} :
    (allChunks p)[k]? = some chunk ↔
      p.chunks[k]? = some chunk ∨ (k = p.chunks.length ∧ chunk = p.current) := by
  rw [allChunks, List.getElem?_append]
  split
  · rename_i inside
    exact ⟨.inl, fun h => h.resolve_right fun here => Nat.ne_of_lt inside here.1⟩
  · rename_i outside
    have past : p.chunks[k]? = none := List.getElem?_eq_none (Nat.le_of_not_lt outside)
    rw [past, List.getElem?_singleton]
    constructor
    · intro h
      split at h
      · exact .inr ⟨by omega, (Option.some.inj h).symm⟩
      · cases h
    · rintro (h | ⟨rfl, rfl⟩)
      · cases h
      · rw [Nat.sub_self, if_pos rfl]

/-! ## Packets in chunks -/

/-- The chunks hold the packets taken so far. -/
structure Landed (limit : UInt64) (p : Packets M C) (landed : List LandedPacket) : Prop where
  limit_eq : p.limit = limit
  chunk_eq : ∀ k chunk, (allChunks p)[k]? = some chunk → chunk.bytes = packetsOf landed k
  ascending : landed.Pairwise fun a b => a.chunk ≤ b.chunk
  known : ∀ packet ∈ landed, packet.chunk ≤ p.chunks.length
  joined : (allChunks p).flatMap PacketChunk.bytes = landed.flatMap LandedPacket.commands
  within : ∀ chunk ∈ allChunks p, chunk.bytes.length ≤ limit.toNat
  bytes_eq : p.bytes = (landed.flatMap LandedPacket.commands).length
  bytes_le : p.bytes ≤ M

/-- No packet is in a chunk that was not begun. -/
theorem packetsOf_beyond {landed : List LandedPacket} {chunk : Nat}
    (h : ∀ packet ∈ landed, packet.chunk < chunk) : packetsOf landed chunk = [] := by
  have none : landed.filter (fun packet => packet.chunk == chunk) = [] := by
    rw [List.filter_eq_nil_iff]
    intro packet member same
    exact Nat.ne_of_lt (h packet member) (beq_iff_eq.mp same)
  rw [packetsOf, none]
  rfl

theorem packetsOf_concat (landed : List LandedPacket) (packet : LandedPacket) (chunk : Nat) :
    packetsOf (landed ++ [packet]) chunk =
      packetsOf landed chunk ++ if packet.chunk = chunk then packet.commands else [] := by
  rw [packetsOf, List.filter_append, List.flatMap_append, packetsOf]
  congr 1
  by_cases h : packet.chunk = chunk <;> simp [h]

variable {limit : UInt64} {p p' : Packets M C} {landed : List LandedPacket}
  {staged : List StagedRange}

theorem new_landed (limit : UInt64) : Landed limit (.new limit : Packets M C) [] where
  limit_eq := rfl
  chunk_eq k chunk h := by
    rcases allChunks_getElem?.mp h with h | ⟨-, rfl⟩
    · cases h
    · rfl
  ascending := .nil
  known packet member := absurd member List.not_mem_nil
  joined := rfl
  within chunk member := by
    obtain rfl := List.mem_singleton.mp member
    exact Nat.zero_le _
  bytes_eq := rfl
  bytes_le := Nat.zero_le _

/-- Closing the current chunk loses nothing. -/
theorem Landed.close (l : Landed limit p landed) : Landed limit p.close landed where
  limit_eq := l.limit_eq
  chunk_eq k chunk h := by
    rcases allChunks_getElem?.mp h with h | ⟨rfl, rfl⟩
    · exact l.chunk_eq k chunk h
    · refine (packetsOf_beyond fun packet member => ?_).symm
      have := l.known packet member
      show _ < (p.chunks ++ [p.current]).length
      rw [List.length_append, List.length_singleton]
      omega
  ascending := l.ascending
  known packet member := by
    have := l.known packet member
    show _ ≤ (p.chunks ++ [p.current]).length
    rw [List.length_append]
    omega
  joined := by
    rw [← l.joined, allChunks, List.flatMap_append]
    exact List.append_nil _
  within chunk member := by
    rcases List.mem_append.mp member with old | new
    · exact l.within chunk old
    · obtain rfl := List.mem_singleton.mp new
      exact Nat.zero_le _
  bytes_eq := l.bytes_eq
  bytes_le := l.bytes_le

theorem Landed.current_le (l : Landed limit p landed) : p.current.bytes.length ≤ p.bytes := by
  rw [l.bytes_eq, ← l.joined, allChunks, List.flatMap_append, List.length_append,
    List.flatMap_singleton]
  exact Nat.le_add_left ..

/-- Room is room, for a packet that the stream has bytes for. -/
theorem Landed.room (l : Landed limit p landed) {length : Nat} (fits : p.bytes + length < 2 ^ 64)
    (room : p.Room length) : p.current.bytes.length + length ≤ limit.toNat := by
  have := l.current_le
  rw [Packets.Room, saturatingAddUsize, l.limit_eq] at room
  omega

/-- A packet that has room goes to the end of the current chunk. -/
theorem Landed.land (l : Landed limit p landed) {commands : List UInt8}
    (room : p.current.bytes.length + commands.length ≤ limit.toNat)
    (total : p.bytes + commands.length ≤ M) :
    Landed limit (p.land commands (p.bytes + commands.length))
      (landed ++ [⟨p.chunks.length, commands⟩]) where
  limit_eq := l.limit_eq
  chunk_eq k chunk h := by
    rw [packetsOf_concat]
    rcases allChunks_getElem?.mp h with h | ⟨rfl, rfl⟩
    · have inside : k < p.chunks.length := (List.getElem?_eq_some_iff.mp h).1
      rw [if_neg (Nat.ne_of_gt inside), List.append_nil]
      exact l.chunk_eq k chunk (allChunks_getElem?.mpr (.inl h))
    · have here := l.chunk_eq _ p.current (allChunks_getElem?.mpr (.inr ⟨rfl, rfl⟩))
      show p.current.bytes ++ commands = packetsOf landed p.chunks.length ++
        if p.chunks.length = p.chunks.length then commands else []
      rw [if_pos rfl, here]
  ascending := by
    refine List.pairwise_append.mpr ⟨l.ascending, List.pairwise_singleton .., ?_⟩
    intro packet member last here
    rw [List.mem_singleton.mp here]
    exact l.known packet member
  known packet member := by
    rcases List.mem_append.mp member with old | new
    · exact l.known packet old
    · rw [List.mem_singleton.mp new]
      exact Nat.le_refl _
  joined := by
    have joined := l.joined
    rw [allChunks, List.flatMap_append, List.flatMap_singleton] at joined
    rw [List.flatMap_append, ← joined, List.flatMap_singleton, allChunks, List.flatMap_append,
      List.flatMap_singleton, List.append_assoc]
    rfl
  within chunk member := by
    rcases List.mem_append.mp member with old | new
    · exact l.within chunk (List.mem_append_left _ old)
    · obtain rfl := List.mem_singleton.mp new
      show (p.current.bytes ++ commands).length ≤ _
      rw [List.length_append]
      exact room
  bytes_eq := by
    rw [List.flatMap_append, List.length_append, ← l.bytes_eq, List.flatMap_singleton]
    rfl
  bytes_le := total

/-! ## Ranges in arenas -/

/-- The ranges handed out so far, chunk by chunk one after another from the start of the
arena. -/
structure Staged (limit : UInt64) (p : Packets M C) (staged : List StagedRange) : Prop where
  known : ∀ range ∈ staged, range.chunk ≤ p.chunks.length
  arena_eq : ∀ range ∈ staged, range.arena = range.chunk % C
  within : ∀ range ∈ staged, range.stop ≤ limit.toNat
  apart : staged.Pairwise fun a b => a.chunk = b.chunk → a.stop ≤ b.start.toNat
  chosen : ∀ range ∈ staged, ∀ chunk, (allChunks p)[range.chunk]? = some chunk →
    chunk.arena = some range.arena
  below : ∀ range ∈ staged, range.chunk = p.chunks.length → range.stop ≤ p.uploadOffset.toNat

theorem new_staged (limit : UInt64) : Staged limit (.new limit : Packets M C) [] where
  known _ member := absurd member List.not_mem_nil
  arena_eq _ member := absurd member List.not_mem_nil
  within _ member := absurd member List.not_mem_nil
  apart := .nil
  chosen _ member := absurd member List.not_mem_nil
  below _ member := absurd member List.not_mem_nil

/-- No range was handed out for the chunk that begins. -/
theorem Staged.close (s : Staged limit p staged) : Staged limit p.close staged where
  known range member := by
    have := s.known range member
    show _ ≤ (p.chunks ++ [p.current]).length
    rw [List.length_append]
    omega
  arena_eq := s.arena_eq
  within := s.within
  apart := s.apart
  chosen range member chunk h := by
    have known := s.known range member
    rcases allChunks_getElem?.mp h with h | ⟨here, -⟩
    · exact s.chosen range member chunk h
    · have here : range.chunk = (p.chunks ++ [p.current]).length := here
      rw [List.length_append, List.length_singleton] at here
      omega
  below range member here := by
    have known := s.known range member
    have here : range.chunk = (p.chunks ++ [p.current]).length := here
    rw [List.length_append, List.length_singleton] at here
    omega

theorem Staged.land (s : Staged limit p staged) (commands : List UInt8) (bytes : Nat) :
    Staged limit (p.land commands bytes) staged where
  known := s.known
  arena_eq := s.arena_eq
  within := s.within
  apart := s.apart
  chosen range member chunk h := by
    rcases allChunks_getElem?.mp h with h | ⟨here, rfl⟩
    · exact s.chosen range member chunk (allChunks_getElem?.mpr (.inl h))
    · exact s.chosen range member p.current (allChunks_getElem?.mpr (.inr ⟨here, rfl⟩))
  below := s.below

/-- The next range starts where the last one of the chunk ended. -/
theorem Staged.upload (s : Staged limit p staged) {length stop : UInt32}
    (sum : stop.toNat = p.uploadOffset.toNat + length.toNat) (within : stop.toNat ≤ limit.toNat) :
    Staged limit (p.stage stop)
      (staged ++ [⟨p.chunks.length, p.chunks.length % C, p.uploadOffset, length⟩]) where
  known range member := by
    rcases List.mem_append.mp member with old | new
    · exact s.known range old
    · rw [List.mem_singleton.mp new]
      exact Nat.le_refl _
  arena_eq range member := by
    rcases List.mem_append.mp member with old | new
    · exact s.arena_eq range old
    · rw [List.mem_singleton.mp new]
  within range member := by
    rcases List.mem_append.mp member with old | new
    · exact s.within range old
    · rw [List.mem_singleton.mp new, StagedRange.stop, ← sum]
      exact within
  apart := by
    refine List.pairwise_append.mpr ⟨s.apart, List.pairwise_singleton .., ?_⟩
    intro range member last here same
    rw [List.mem_singleton.mp here] at same ⊢
    exact s.below range member same
  chosen range member chunk h := by
    rcases allChunks_getElem?.mp h with h | ⟨here, rfl⟩
    · rcases List.mem_append.mp member with old | new
      · exact s.chosen range old chunk (allChunks_getElem?.mpr (.inl h))
      · have inside := (List.getElem?_eq_some_iff.mp h).1
        rw [List.mem_singleton.mp new] at inside
        exact absurd inside (Nat.lt_irrefl _)
    · have arena : range.arena = range.chunk % C := by
        rcases List.mem_append.mp member with old | new
        · exact s.arena_eq range old
        · rw [List.mem_singleton.mp new]
      rw [arena, here]
      rfl
  below range member here := by
    rcases List.mem_append.mp member with old | new
    · have := s.below range old here
      show range.stop ≤ stop.toNat
      omega
    · rw [List.mem_singleton.mp new, StagedRange.stop, ← sum]
      exact Nat.le_refl _

/-- Staging a range moves no packet. -/
theorem Landed.stage (l : Landed limit p landed) (stop : UInt32) :
    Landed limit (p.stage stop) landed where
  limit_eq := l.limit_eq
  chunk_eq k chunk h := by
    rcases allChunks_getElem?.mp h with h | ⟨rfl, rfl⟩
    · exact l.chunk_eq k chunk (allChunks_getElem?.mpr (.inl h))
    · exact l.chunk_eq _ p.current (allChunks_getElem?.mpr (.inr ⟨rfl, rfl⟩))
  ascending := l.ascending
  known := l.known
  joined := by
    rw [← l.joined, allChunks, allChunks, List.flatMap_append, List.flatMap_append]
    rfl
  within chunk member := by
    rcases List.mem_append.mp member with old | new
    · exact l.within chunk (List.mem_append_left _ old)
    · rw [List.mem_singleton.mp new]
      exact l.within p.current (List.mem_append_right _ (List.mem_singleton_self _))
  bytes_eq := l.bytes_eq
  bytes_le := l.bytes_le

/-! ## Steps -/

/-- What every run keeps. -/
structure Sound (limit : UInt64) (r : PacketRun M C) : Prop where
  landed : Landed limit r.packets r.landed
  staged : Staged limit r.packets r.staged

theorem new_sound (limit : UInt64) : Sound limit (new limit : PacketRun M C) :=
  ⟨new_landed limit, new_staged limit⟩

theorem Sound.close {r : PacketRun M C} (s : Sound limit r) :
    Sound limit { r with packets := r.packets.close } := ⟨s.landed.close, s.staged.close⟩

/-- What `prepare` leaves is sound, and has room for a packet of the stream. -/
theorem Sound.prepared {r : PacketRun M C} (s : Sound limit r) {length : Nat} {p' : Packets M C}
    (fits : r.packets.bytes + length < 2 ^ 64) (h : r.packets.Prepared length p') :
    Sound limit { r with packets := p' } ∧ p'.current.bytes.length + length ≤ limit.toNat ∧
      p'.bytes = r.packets.bytes := by
  obtain ⟨small, ⟨room, rfl⟩ | ⟨-, rfl⟩⟩ := h
  · exact ⟨s, s.landed.room fits room, rfl⟩
  · refine ⟨s.close, ?_, rfl⟩
    rw [s.landed.limit_eq] at small
    show 0 + length ≤ _
    rwa [Nat.zero_add]

theorem Sound.land {r : PacketRun M C} (s : Sound limit r) {commands : List UInt8}
    (room : r.packets.current.bytes.length + commands.length ≤ limit.toNat)
    (total : r.packets.bytes + commands.length ≤ M) :
    Sound limit (r.answered commands
      ((.ok () : Except PacketError Unit),
        r.packets.land commands (r.packets.bytes + commands.length))) :=
  ⟨s.landed.land room total, s.staged.land ..⟩

theorem Sound.append {r : PacketRun M C} (s : Sound limit r) (memory : PacketMemory → Bool)
    (commands : List UInt8) :
    Sound limit (r.answered commands (Packets.append memory commands r.packets)) := by
  rcases Packets.append_cases memory commands r.packets with
    ⟨e, failed⟩ | ⟨p', fits, total, prepared, ⟨-, failed⟩ | ⟨-, taken⟩⟩
  · rw [failed]
    exact s
  · rw [failed]
    exact (s.prepared fits prepared).1
  · obtain ⟨sound, room, bytes⟩ := s.prepared fits prepared
    rw [taken, ← bytes]
    exact sound.land room (bytes ▸ total)

theorem Sound.appendOwned {r : PacketRun M C} (s : Sound limit r) (memory : PacketMemory → Bool)
    (commands : List UInt8) :
    Sound limit (r.answered commands (Packets.appendOwned memory commands r.packets)) := by
  rcases Packets.appendOwned_cases memory commands r.packets with
    ⟨e, failed, -⟩ | ⟨p', left, fits, total, prepared, taken, -⟩
  · rw [failed]
    exact s
  · obtain ⟨sound, room, bytes⟩ := s.prepared fits prepared
    rw [taken, ← bytes]
    exact sound.land room (bytes ▸ total)

/-- One call keeps a run sound. -/
theorem Sound.step {r : PacketRun M C} (s : Sound limit r) (op : PacketOp) :
    Sound limit (r.step op) := by
  cases op with
  | prepare memory maximum =>
      rw [PacketRun.step]
      rcases Packets.prepare_cases memory maximum r.packets with
        ⟨e, failed⟩ | ⟨-, ⟨-, same⟩ | ⟨-, closed⟩⟩
      · rw [failed]
        exact s
      · rw [same]
        exact s
      · rw [closed]
        exact s.close
  | uploadRange length =>
      rw [PacketRun.step]
      rcases Packets.uploadRange_cases length r.packets with
        ⟨e, failed⟩ | ⟨stop, sum, within, handed⟩
      · rw [failed]
        exact s
      · rw [handed]
        rw [s.landed.limit_eq] at within
        exact ⟨s.landed.stage stop, s.staged.upload sum within⟩
  | append memory commands => exact s.append memory commands
  | appendOwned memory commands => exact s.appendOwned memory commands

theorem run_sound (limit : UInt64) (ops : List PacketOp) :
    Sound limit ((new limit : PacketRun M C).run ops) := by
  induction ops using List.reverseRecOn with
  | nil => exact new_sound limit
  | append_singleton ops op ih =>
      rw [run, List.foldl_append]
      exact ih.step op

/-! ## Finishing -/

/-- The chunks of a finished builder, with what was put in them. -/
structure Finished (M C : Nat) (limit : UInt64) (landed : List LandedPacket)
    (staged : List StagedRange) (chunks : List PacketChunk) : Prop where
  concatenated : chunks.flatMap PacketChunk.bytes = landed.flatMap LandedPacket.commands
  undivided : ∀ k chunk, chunks[k]? = some chunk → chunk.bytes = packetsOf landed k
  in_order : landed.Pairwise fun a b => a.chunk ≤ b.chunk
  placed : ∀ packet ∈ landed, packet.commands ≠ [] → packet.chunk < chunks.length
  within : ∀ chunk ∈ chunks, chunk.bytes.length ≤ limit.toNat
  total : (chunks.flatMap PacketChunk.bytes).length ≤ M
  apart : staged.Pairwise fun a b => a.chunk = b.chunk → a.stop ≤ b.start.toNat
  staged_within : ∀ range ∈ staged, range.stop ≤ limit.toNat
  arena_eq : ∀ range ∈ staged, range.arena = range.chunk % C ∧
    ∀ chunk, chunks[range.chunk]? = some chunk → chunk.arena = some range.arena

/-- `finish` keeps all chunks, but not a last one that is empty. -/
theorem finish_cases {memory : PacketMemory → Bool} {p : Packets M C} {chunks : List PacketChunk}
    (h : p.finish memory = .ok chunks) :
    chunks = allChunks p ∨ (p.current.bytes = [] ∧ chunks = p.chunks) := by
  rw [Packets.finish] at h
  split at h
  · rcases Packets.finishChunk_cases memory p with failed | closed
    · rw [failed] at h
      cases h
    · rw [closed] at h
      exact .inl (Except.ok.inj h).symm
  · rename_i dropped
    rw [not_or, Bool.not_eq_false, List.isEmpty_iff] at dropped
    exact .inr ⟨dropped.1, (Except.ok.inj h).symm⟩

theorem Sound.finished {r : PacketRun M C} (s : Sound limit r) {memory : PacketMemory → Bool}
    {chunks : List PacketChunk} (h : r.packets.finish memory = .ok chunks) :
    Finished M C limit r.landed r.staged chunks := by
  obtain ⟨l, g⟩ := s
  have total : ((allChunks r.packets).flatMap PacketChunk.bytes).length ≤ M := by
    rw [l.joined, ← l.bytes_eq]
    exact l.bytes_le
  -- Every chunk is one of the builder, and all their bytes are there.
  obtain ⟨same, old, kept⟩ : chunks.flatMap PacketChunk.bytes =
        (allChunks r.packets).flatMap PacketChunk.bytes ∧
      (∀ k chunk, chunks[k]? = some chunk → (allChunks r.packets)[k]? = some chunk) ∧
      ∀ packet ∈ r.landed, packet.commands ≠ [] → packet.chunk < chunks.length := by
    rcases finish_cases h with rfl | ⟨empty, rfl⟩
    · refine ⟨rfl, fun k chunk found => found, fun packet member _ => ?_⟩
      rw [allChunks, List.length_append, List.length_singleton]
      exact Nat.lt_succ_of_le (l.known packet member)
    · refine ⟨?_, fun k chunk found => allChunks_getElem?.mpr (.inl found), ?_⟩
      · rw [allChunks, List.flatMap_append, List.flatMap_singleton, empty, List.append_nil]
      · -- A packet in the chunk that is dropped is empty.
        intro packet member nonempty
        refine Nat.lt_of_le_of_ne (l.known packet member) fun here => nonempty ?_
        have none := l.chunk_eq _ r.packets.current (allChunks_getElem?.mpr (.inr ⟨rfl, rfl⟩))
        rw [empty, packetsOf, eq_comm, List.flatMap_eq_nil_iff] at none
        exact none packet (List.mem_filter.mpr ⟨member, beq_iff_eq.mpr here⟩)
  refine ⟨same.trans l.joined, fun k chunk found => l.chunk_eq k chunk (old k chunk found),
    l.ascending, kept, fun chunk member => ?_, same ▸ total, g.apart, g.within,
    fun range member => ⟨g.arena_eq range member, fun chunk found =>
      g.chosen range member chunk (old _ chunk found)⟩⟩
  obtain ⟨k, found⟩ := List.mem_iff_getElem?.mp member
  exact l.within chunk (List.mem_of_getElem? (old k chunk found))

/-! ## Building a packet -/

/-- Ranges were handed out for the current chunk, and nothing else was done. -/
structure Staging (r b : PacketRun M C) : Prop where
  landed : b.landed = r.landed
  limit_eq : b.packets.limit = r.packets.limit
  chunks : b.packets.chunks = r.packets.chunks
  bytes : b.packets.current.bytes = r.packets.current.bytes
  staged : ∃ new, b.staged = r.staged ++ new ∧
    ∀ range ∈ new, range.chunk = r.packets.chunks.length

theorem Staging.refl (r : PacketRun M C) : Staging r r :=
  ⟨rfl, rfl, rfl, rfl, [], (List.append_nil _).symm, fun _ h => absurd h List.not_mem_nil⟩

theorem Staging.trans {r b c : PacketRun M C} (first : Staging r b) (second : Staging b c) :
    Staging r c where
  landed := second.landed.trans first.landed
  limit_eq := second.limit_eq.trans first.limit_eq
  chunks := second.chunks.trans first.chunks
  bytes := second.bytes.trans first.bytes
  staged := by
    obtain ⟨new, staged, here⟩ := first.staged
    obtain ⟨new', staged', here'⟩ := second.staged
    refine ⟨new ++ new', by rw [staged', staged, List.append_assoc], fun range member => ?_⟩
    rcases List.mem_append.mp member with h | h
    · exact here range h
    · rw [here' range h, first.chunks]

theorem staging_uploadRange (r : PacketRun M C) (length : UInt32) :
    Staging r (r.step (.uploadRange length)) := by
  rcases Packets.uploadRange_cases length r.packets with ⟨e, failed⟩ | ⟨stop, -, -, handed⟩
  · rw [step, failed]
    exact .refl r
  · rw [step, handed]
    refine ⟨rfl, rfl, rfl, rfl, [_], rfl, fun range member => ?_⟩
    rw [List.mem_singleton.mp member]
    rfl

theorem staging_run (r : PacketRun M C) (lengths : List UInt32) :
    Staging r (r.run (lengths.map .uploadRange)) := by
  induction lengths generalizing r with
  | nil => exact .refl r
  | cons length rest ih => exact (staging_uploadRange r length).trans (ih _)

/-- A builder that `prepare` accepted has room for the packet. -/
theorem prepare_room {memory : PacketMemory → Bool} {maximum : Nat} {p : Packets M C}
    (accepted : (Packets.prepare memory maximum p).1 = .ok ()) :
    (Packets.prepare memory maximum p).2.Room maximum := by
  rcases Packets.prepare_cases memory maximum p with ⟨e, failed⟩ | ⟨small, ⟨room, same⟩ | ⟨-, closed⟩⟩
  · rw [failed] at accepted
    cases accepted
  · rw [same]
    exact room
  · rw [closed, Packets.Room, saturatingAddUsize]
    show min (0 + maximum) (2 ^ 64 - 1) ≤ p.limit.toNat
    omega

theorem Room.mono {p p' : Packets M C} {length maximum : Nat} (room : p.Room maximum)
    (limit : p'.limit = p.limit) (bytes : p'.current.bytes = p.current.bytes)
    (small : length ≤ maximum) : p'.Room length := by
  rw [Packets.Room, saturatingAddUsize] at room ⊢
  rw [limit, bytes]
  omega

/-- A packet that is put in a builder with room is put in the current chunk. -/
theorem Prepared.same {p p' : Packets M C} {length : Nat} (h : p.Prepared length p')
    (room : p.Room length) : p' = p := by
  obtain ⟨-, ⟨-, rfl⟩ | ⟨full, -⟩⟩ := h
  · rfl
  · exact absurd room full

/-- The calls that build a packet, up to its last one. -/
def building (r : PacketRun M C) (memory : PacketMemory → Bool) (maximum : Nat)
    (lengths : List UInt32) : PacketRun M C :=
  (r.step (.prepare memory maximum)).run (lengths.map .uploadRange)

/-- A packet and the ranges of its building are of one chunk. -/
def LandsWithRanges (r r' : PacketRun M C) (commands : List UInt8) : Prop :=
  ∃ k new, r'.landed = r.landed ++ [⟨k, commands⟩] ∧ r'.staged = r.staged ++ new ∧
    ∀ range ∈ new, range.chunk = k

variable {memory memory' : PacketMemory → Bool} {maximum : Nat} {commands : List UInt8}

theorem building_room {r : PacketRun M C} (lengths : List UInt32)
    (accepted : (Packets.prepare memory maximum r.packets).1 = .ok ())
    (small : commands.length ≤ maximum) :
    (r.building memory maximum lengths).packets.Room commands.length ∧
      (r.building memory maximum lengths).landed = r.landed ∧
      ∃ new, (r.building memory maximum lengths).staged = r.staged ++ new ∧
        ∀ range ∈ new,
          range.chunk = (r.building memory maximum lengths).packets.chunks.length := by
  obtain ⟨landed, limit, chunks, bytes, new, staged, here⟩ :=
    staging_run (r.step (.prepare memory maximum)) lengths
  refine ⟨Room.mono (prepare_room accepted) limit bytes small, landed, new, staged,
    fun range member => ?_⟩
  rw [building, chunks]
  exact here range member

theorem append_landsWithRanges {r : PacketRun M C} {lengths : List UInt32}
    (accepted : (Packets.prepare memory maximum r.packets).1 = .ok ())
    (small : commands.length ≤ maximum)
    (taken : (Packets.append memory' commands
      (r.building memory maximum lengths).packets).1 = .ok ()) :
    LandsWithRanges r ((r.building memory maximum lengths).step (.append memory' commands))
      commands := by
  obtain ⟨room, landed, new, staged, here⟩ := building_room lengths accepted small
  rcases Packets.append_cases memory' commands (r.building memory maximum lengths).packets with
    ⟨e, failed⟩ | ⟨p', -, -, prepared, ⟨-, failed⟩ | ⟨-, done⟩⟩
  · rw [failed] at taken
    cases taken
  · rw [failed] at taken
    cases taken
  · obtain rfl := Prepared.same prepared room
    refine ⟨_, new, ?_, ?_, here⟩
    · rw [step, done, ← landed]
      rfl
    · rw [step, done, ← staged]
      rfl

theorem appendOwned_landsWithRanges {r : PacketRun M C} {lengths : List UInt32}
    {left : List UInt8} (accepted : (Packets.prepare memory maximum r.packets).1 = .ok ())
    (small : commands.length ≤ maximum)
    (taken : (Packets.appendOwned memory' commands
      (r.building memory maximum lengths).packets).1 = .ok left) :
    LandsWithRanges r ((r.building memory maximum lengths).step (.appendOwned memory' commands))
      commands := by
  obtain ⟨room, landed, new, staged, here⟩ := building_room lengths accepted small
  rcases Packets.appendOwned_cases memory' commands (r.building memory maximum lengths).packets
    with ⟨e, failed, -⟩ | ⟨p', left', -, -, prepared, done, -⟩
  · rw [failed] at taken
    cases taken
  · obtain rfl := Prepared.same prepared room
    refine ⟨_, new, ?_, ?_, here⟩
    · rw [step, done, ← landed]
      rfl
    · rw [step, done, ← staged]
      rfl

/-! ## Copying instead of owning -/

/-- The memory for bytes is there. -/
def provided (memory : PacketMemory → Bool) : PacketMemory → Bool
  | .chunk => memory .chunk
  | .bytes => true

/-- The same call, with memory for its bytes. -/
def supplied : PacketOp → PacketOp
  | .append memory commands => .append (provided memory) commands
  | .appendOwned memory commands => .appendOwned (provided memory) commands
  | .prepare memory maximum => .prepare memory maximum
  | .uploadRange length => .uploadRange length

/-- The same call, with `append` for `append_owned`. -/
def copying : PacketOp → PacketOp
  | .appendOwned memory commands => .append memory commands
  | .append memory commands => .append memory commands
  | .prepare memory maximum => .prepare memory maximum
  | .uploadRange length => .uploadRange length

theorem step_copying (r : PacketRun M C) (op : PacketOp) :
    r.step (copying (supplied op)) = r.step (supplied op) := by
  cases op with
  | appendOwned memory commands =>
      show r.answered commands (Packets.append (provided memory) commands r.packets) =
        r.answered commands (Packets.appendOwned (provided memory) commands r.packets)
      rcases Packets.appendOwned_cases (provided memory) commands r.packets with
        ⟨e, failed, same⟩ | ⟨p', left, -, -, -, taken, same⟩
      · rw [failed, same rfl]
        rfl
      · rw [taken, same rfl]
        rfl
  | append memory commands => rfl
  | prepare memory maximum => rfl
  | uploadRange length => rfl

theorem run_copying (ops : List PacketOp) (r : PacketRun M C) :
    r.run (ops.map fun op => copying (supplied op)) = r.run (ops.map supplied) := by
  induction ops generalizing r with
  | nil => rfl
  | cons op rest ih =>
      rw [List.map_cons, List.map_cons, run, run, List.foldl_cons, List.foldl_cons, step_copying]
      exact ih _

/-! ## The builder -/

/-- What a builder promises after a run: what its chunks are when it is finished, that a packet
built after `prepare` is in the chunk of its ranges, that owning a buffer is as good as
copying it, and what calls that fail leave. -/
structure PacketsSound (M C : Nat) (limit : UInt64) (ops : List PacketOp) : Prop where
  finished : ∀ memory chunks,
    ((new limit : PacketRun M C).run ops).packets.finish memory = .ok chunks →
      Finished M C limit ((new limit : PacketRun M C).run ops).landed
        ((new limit : PacketRun M C).run ops).staged chunks
  appended : ∀ memory memory' maximum lengths commands,
    (Packets.prepare memory maximum ((new limit : PacketRun M C).run ops).packets).1 = .ok () →
    commands.length ≤ maximum →
    (Packets.append memory' commands
      (((new limit : PacketRun M C).run ops).building memory maximum lengths).packets).1 = .ok () →
    LandsWithRanges ((new limit).run ops)
      ((((new limit : PacketRun M C).run ops).building memory maximum lengths).step
        (.append memory' commands)) commands
  owned : ∀ memory memory' maximum lengths commands left,
    (Packets.prepare memory maximum ((new limit : PacketRun M C).run ops).packets).1 = .ok () →
    commands.length ≤ maximum →
    (Packets.appendOwned memory' commands
      (((new limit : PacketRun M C).run ops).building memory maximum lengths).packets).1 =
        .ok left →
    LandsWithRanges ((new limit).run ops)
      ((((new limit : PacketRun M C).run ops).building memory maximum lengths).step
        (.appendOwned memory' commands)) commands
  copied : (new limit : PacketRun M C).run (ops.map fun op => copying (supplied op)) =
    (new limit).run (ops.map supplied)
  append_failed : ∀ memory commands e p,
    Packets.append memory commands ((new limit : PacketRun M C).run ops).packets = (.error e, p) →
      p = ((new limit).run ops).packets ∨
        (e = .outOfMemory ∧ memory .bytes = false ∧ p = ((new limit).run ops).packets.close)
  appendOwned_failed : ∀ memory commands e p,
    Packets.appendOwned memory commands ((new limit : PacketRun M C).run ops).packets =
      (.error e, p) → p = ((new limit).run ops).packets
  uploadRange_failed : ∀ length e p,
    Packets.uploadRange length ((new limit : PacketRun M C).run ops).packets = (.error e, p) →
      p = ((new limit).run ops).packets

theorem append_error {memory : PacketMemory → Bool} {commands : List UInt8} {e : PacketError}
    {p p' : Packets M C} (h : Packets.append memory commands p = (.error e, p')) :
    p' = p ∨ (e = .outOfMemory ∧ memory .bytes = false ∧ p' = p.close) := by
  rcases Packets.append_cases memory commands p with
    ⟨e', failed⟩ | ⟨p'', -, -, ⟨-, prepared⟩, ⟨short, failed⟩ | ⟨-, done⟩⟩
  · rw [failed] at h
    exact .inl (Prod.mk.inj h).2.symm
  · rw [failed] at h
    obtain ⟨he, rfl⟩ := Prod.mk.inj h
    rcases prepared with ⟨-, rfl⟩ | ⟨-, rfl⟩
    · exact .inl rfl
    · exact .inr ⟨(Except.error.inj he).symm, short, rfl⟩
  · rw [done] at h
    cases (Prod.mk.inj h).1

theorem appendOwned_error {memory : PacketMemory → Bool} {commands : List UInt8} {e : PacketError}
    {p p' : Packets M C} (h : Packets.appendOwned memory commands p = (.error e, p')) :
    p' = p := by
  rcases Packets.appendOwned_cases memory commands p with
    ⟨e', failed, -⟩ | ⟨p'', left, -, -, -, done, -⟩
  · rw [failed] at h
    exact (Prod.mk.inj h).2.symm
  · rw [done] at h
    cases (Prod.mk.inj h).1

theorem uploadRange_error {length : UInt32} {e : PacketError} {p p' : Packets M C}
    (h : Packets.uploadRange length p = (.error e, p')) : p' = p := by
  rcases Packets.uploadRange_cases length p with ⟨e', failed⟩ | ⟨stop, -, -, handed⟩
  · rw [failed] at h
    exact (Prod.mk.inj h).2.symm
  · rw [handed] at h
    cases (Prod.mk.inj h).1

/-- **The packet builder.**  It keeps its promises after every sequence of calls, failing ones
included. -/
theorem packets_sound (M C : Nat) (limit : UInt64) (ops : List PacketOp) :
    PacketsSound M C limit ops where
  finished _ _ h := (run_sound limit ops).finished h
  appended _ _ _ _ _ accepted small taken := append_landsWithRanges accepted small taken
  owned _ _ _ _ _ _ accepted small taken := appendOwned_landsWithRanges accepted small taken
  copied := run_copying ops _
  append_failed _ _ _ _ h := append_error h
  appendOwned_failed _ _ _ _ h := appendOwned_error h
  uploadRange_failed _ _ _ h := uploadRange_error h

/-- Memory for chunks alone. -/
def noBytes : PacketMemory → Bool
  | .chunk => true
  | .bytes => false

/-- Three bytes in a chunk of four. -/
def threeOfFour : Packets 1024 4 :=
  ((new 4).run [.append (fun _ => true) [1, 2, 3]]).packets

/-- A packet that needs a new chunk, and no memory for its bytes: the chunk is closed all the
same. -/
theorem append_closes_and_fails :
    (Packets.append noBytes [4, 5] threeOfFour).1 = .error .outOfMemory ∧
      (Packets.append noBytes [4, 5] threeOfFour).2.chunks ≠ threeOfFour.chunks := by
  refine ⟨rfl, ?_⟩
  decide

end PacketRun

end Sgfx
