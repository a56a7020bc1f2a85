import Mathlib.Data.List.Induction
import Sgfx.Indices.BoundsCache
import Sgfx.Library.Traces

/-!
# Queries through the cache of index bounds

A query answers from the cache what it can and reads the rest through its caller's reader.
Writes to a slot change the bytes of its buffers and are followed by an invalidation.  What
the cache remembers is true of the bytes that are there (`Sound`) after every query, also
after one that failed half way, and after every write.  So an answer is what reading the
whole range would give.

## Main Definitions

* `blockedBounds`, `bounds` — a query
* `Describes`, `IndexBoundsCache.Sound` — what an entry says, and that all of it is so
* `Op`, `cacheAfter`, `memoryAfter` — runs of queries and writes

## Main Results

* `bounds_ensures` — one query
* `cacheAfter_sound` — any run
* `answer_eq_rawIndexBounds` — every answer of every run
-/

namespace Sgfx.Indices

/-- `IndexReader`: reads a range of the current bytes, and is told of block hits and misses. -/
structure IndexReader (ρ ε : Type) where
  read : Nat → Nat → Fallible ρ ε IndexBounds
  block : Bool → ρ → ρ

variable {ρ ε : Type}

/-! ## Queries -/

/-- The end of the last complete index. -/
def IndexBoundsKey.indexEnd (key : IndexBoundsKey) : Nat :=
  key.stop - (key.stop - key.start) % width key.format

/-- The block at a position of the range. -/
def IndexBoundsKey.blockAt (key : IndexBoundsKey) (cursor : Nat) : IndexBoundsKey :=
  { key with
    start := cursor
    stop := cursor + IndexBoundsCache.blockBytes key.format
    ordered := Nat.le_add_right .. }

namespace IndexBoundsCache

/-- Run the reader beside the cache. -/
def reading {α : Type} (m : Fallible ρ ε α) : Fallible (IndexBoundsCache × ρ) ε α :=
  Fallible.zoom Prod.snd (fun s reader => (s.1, reader)) m

/-- Read a part, if there is any of it. -/
def readPart (reader : IndexReader ρ ε) (start stop : Nat) :
    Fallible (IndexBoundsCache × ρ) ε IndexBounds :=
  if start = stop then pure none else reading (reader.read start stop)

/-- A full block, which is read if it is not remembered. -/
def blockPart (allocates : Bool) (reader : IndexReader ρ ε) (key : IndexBoundsKey) :
    Fallible (IndexBoundsCache × ρ) ε IndexBounds := do
  let s ← Fallible.read
  Fallible.update fun s => (s.1, reader.block (s.1.block key).isSome s.2)
  match s.1.block key with
  | some bounds => pure bounds
  | none =>
    let bounds ← reading (reader.read key.start key.stop)
    Fallible.update fun s => (s.1.insertBlock allocates key bounds, s.2)
    pure bounds

theorem blockBytes_pos (format : IndexFormat) : 0 < blockBytes format :=
  Nat.mul_pos (by decide) (width_pos format)

/-- The loop over the full blocks before `stop`. -/
def blockLoop (allocates : Bool) (reader : IndexReader ρ ε) (key : IndexBoundsKey)
    (stop cursor : Nat) (bounds : IndexBounds) :
    Fallible (IndexBoundsCache × ρ) ε (Nat × IndexBounds) :=
  if blockBytes key.format ≤ stop - cursor then do
    let part ← blockPart allocates reader (key.blockAt cursor)
    blockLoop allocates reader key stop (cursor + blockBytes key.format)
      (mergeIndexBounds bounds part)
  else pure (cursor, bounds)
termination_by stop - cursor
decreasing_by
  have := blockBytes_pos key.format
  omega

/-- `IndexBoundsCache::blocked_bounds`. -/
def blockedBounds (allocates : Bool) (reader : IndexReader ρ ε) (key : IndexBoundsKey) :
    Fallible (IndexBoundsCache × ρ) ε IndexBounds := do
  let leadingWords := (INDEX_BLOCK_WORDS - (key.start / width key.format) % INDEX_BLOCK_WORDS) %
    INDEX_BLOCK_WORDS
  let headEnd := key.start + min (key.indexEnd - key.start) (leadingWords * width key.format)
  let head ← readPart reader key.start headEnd
  let blocks ← blockLoop allocates reader key key.indexEnd headEnd head
  let rest ← readPart reader blocks.1 key.indexEnd
  pure (mergeIndexBounds blocks.2 rest)

/-- `IndexBoundsCache::bounds`. -/
def bounds (allocates : Bool) (reader : IndexReader ρ ε) (key : IndexBoundsKey) :
    Fallible (IndexBoundsCache × ρ) ε IndexBounds := do
  let s ← Fallible.read
  match s.1.get key with
  | some bounds => pure bounds
  | none =>
    let bounds ← blockedBounds allocates reader key
    Fallible.update fun s => (s.1.insert key bounds, s.2)
    pure bounds

end IndexBoundsCache

/-! ## What entries say -/

/-- The bytes of every version of every buffer. -/
abbrev Memory := BufferVersion → List UInt8

/-- An entry gives the extrema of its range, all of whose indices are there. -/
structure Describes (bytes : List UInt8) (entry : IndexBoundsEntry) : Prop where
  inside : entry.key.indexEnd ≤ max entry.key.start bytes.length
  bounds_eq : entry.bounds =
    rawIndexBounds (slice bytes entry.key.start entry.key.stop) entry.key.format

/-- What the cache remembers is so. -/
def IndexBoundsCache.Sound (memory : Memory) (cache : IndexBoundsCache) : Prop :=
  ∀ entry ∈ cache.remembered, Describes (memory entry.key.toBufferVersion) entry

/-- What the reader reads is there, and is what the bytes say.  It may fail at any time. -/
def IndexReader.Authoritative (reader : IndexReader ρ ε) (bytes : List UInt8)
    (format : IndexFormat) : Prop :=
  ∀ start stop before bounds after, start < stop →
    reader.read start stop before = (.ok bounds, after) →
      stop ≤ bytes.length ∧ bounds = rawIndexBounds (slice bytes start stop) format

/-- The error is one of reading a part of the range. -/
def IndexReader.Fails (reader : IndexReader ρ ε) (key : IndexBoundsKey) (e : ε) : Prop :=
  ∃ start stop before after, key.start ≤ start ∧ start < stop ∧ stop ≤ key.stop ∧
    reader.read start stop before = (.error e, after)

section Keys

variable {key : IndexBoundsKey} {cursor : Nat}

theorem IndexBoundsKey.le_indexEnd : key.start ≤ key.indexEnd := by
  have := key.ordered
  have := Nat.mod_le (key.stop - key.start) (width key.format)
  unfold indexEnd
  omega

theorem IndexBoundsKey.indexEnd_le : key.indexEnd ≤ key.stop := Nat.sub_le ..

theorem IndexBoundsKey.dvd_indexEnd : width key.format ∣ key.indexEnd - key.start := by
  have := key.ordered
  have hmod := Nat.mod_le (key.stop - key.start) (width key.format)
  have hsub : key.indexEnd - key.start =
      key.stop - key.start - (key.stop - key.start) % width key.format := by
    unfold indexEnd
    omega
  rw [hsub]
  exact Nat.dvd_sub_mod _

theorem IndexBoundsKey.trailing_lt : key.stop - key.indexEnd < width key.format := by
  have hlt := Nat.mod_lt (key.stop - key.start) (width_pos key.format)
  have := key.indexEnd_le
  unfold indexEnd at *
  omega

theorem IndexBoundsKey.blockAt_indexEnd :
    (key.blockAt cursor).indexEnd = cursor + IndexBoundsCache.blockBytes key.format := by
  show cursor + _ - (cursor + _ - cursor) % width key.format = _
  rw [Nat.add_sub_cancel_left, IndexBoundsCache.blockBytes, Nat.mul_mod_left, Nat.sub_zero]

end Keys

/-! ## One query -/

namespace IndexBoundsCache

/-- How far a query is: what lies before the cursor is complete, is there, and is counted. -/
structure Covered (bytes : List UInt8) (key : IndexBoundsKey) (cursor : Nat)
    (bounds : IndexBounds) : Prop where
  start_le : key.start ≤ cursor
  le_end : cursor ≤ key.indexEnd
  dvd : width key.format ∣ cursor - key.start
  inside : cursor ≤ max key.start bytes.length
  bounds_eq : bounds = rawIndexBounds (slice bytes key.start cursor) key.format

variable {bytes : List UInt8} {memory : Memory} {cache : IndexBoundsCache} {key : IndexBoundsKey}
  {reader : IndexReader ρ ε} {allocates : Bool} {cursor middle : Nat} {found part : IndexBounds}
  {s : IndexBoundsCache × ρ}

/-- One more part. -/
theorem Covered.extend (h : Covered bytes key cursor found) (hle : cursor ≤ middle)
    (hend : middle ≤ key.indexEnd) (hdvd : width key.format ∣ middle - cursor)
    (hinside : middle ≤ max cursor bytes.length)
    (hpart : part = rawIndexBounds (slice bytes cursor middle) key.format) :
    Covered bytes key middle (mergeIndexBounds found part) where
  start_le := Nat.le_trans h.start_le hle
  le_end := hend
  dvd := by
    have hsum : middle - key.start = (cursor - key.start) + (middle - cursor) := by
      have := h.start_le
      omega
    rw [hsum]
    exact Nat.dvd_add h.dvd hdvd
  inside := Nat.le_trans hinside (Nat.max_le.mpr ⟨h.inside, Nat.le_max_right ..⟩)
  bounds_eq := by
    rw [hpart, h.bounds_eq, rawIndexBounds_slice_split h.start_le hle h.dvd h.inside]

/-- All of it. -/
theorem Covered.describes (h : Covered bytes key key.indexEnd found) : Describes bytes ⟨key, found⟩ where
  inside := h.inside
  bounds_eq := by
    rw [h.bounds_eq]
    exact (rawIndexBounds_trailing h.start_le key.indexEnd_le h.dvd h.inside key.trailing_lt).symm

theorem Sound.of_mem (h : cache.Sound memory) {other : IndexBoundsCache}
    {entry : IndexBoundsEntry} (hentry : Describes (memory entry.key.toBufferVersion) entry)
    (hmem : ∀ old ∈ other.remembered, old = entry ∨ old ∈ cache.remembered) :
    other.Sound memory := by
  intro old hold
  rcases hmem old hold with rfl | hold
  · exact hentry
  · exact h old hold

theorem readPart_ensures (hsound : s.1.Sound memory)
    (hreader : reader.Authoritative bytes key.format) (hstart : key.start ≤ cursor)
    (hle : cursor ≤ middle) (hstop : middle ≤ key.stop) :
    (readPart reader cursor middle).Ensures s
      (fun part s' => s'.1.Sound memory ∧ middle ≤ max cursor bytes.length ∧
        part = rawIndexBounds (slice bytes cursor middle) key.format)
      (fun e s' => s'.1.Sound memory ∧ reader.Fails key e) := by
  unfold readPart
  split
  · rename_i heq
    subst heq
    refine Fallible.Ensures.pure ⟨hsound, Nat.le_max_left .., ?_⟩
    have hempty : (slice bytes cursor cursor).length < width key.format := by
      rw [slice_length, Nat.sub_self, Nat.zero_min]
      exact width_pos _
    exact (rawIndexBounds_short hempty).symm
  · rename_i hne
    have hlt : cursor < middle := Nat.lt_of_le_of_ne hle hne
    unfold Fallible.Ensures reading Fallible.zoom
    match hread : reader.read cursor middle s.2 with
    | (.ok part, after) =>
      obtain ⟨hinside, hpart⟩ := hreader cursor middle s.2 part after hlt hread
      exact ⟨hsound, Nat.le_trans hinside (Nat.le_max_right ..), hpart⟩
    | (.error e, after) =>
      exact ⟨hsound, cursor, middle, s.2, after, hstart, hlt, hstop, hread⟩

/-- A block, remembered or read. -/
theorem blockPart_ensures (hsound : s.1.Sound memory)
    (hreader : reader.Authoritative (memory key.toBufferVersion) key.format)
    (hstart : key.start ≤ cursor) (hstop : cursor + blockBytes key.format ≤ key.stop) :
    (blockPart allocates reader (key.blockAt cursor)).Ensures s
      (fun part s' => s'.1.Sound memory ∧
        Describes (memory key.toBufferVersion) ⟨key.blockAt cursor, part⟩)
      (fun e s' => s'.1.Sound memory ∧ reader.Fails key e) := by
  unfold blockPart
  refine .read_bind (.update_bind ?_)
  have hpos := blockBytes_pos key.format
  split
  · rename_i found hfound
    exact .pure ⟨hsound, hsound _ (block_remembered hfound)⟩
  · have hread := readPart_ensures
      (s := (s.1, reader.block (s.1.block (key.blockAt cursor)).isSome s.2)) hsound hreader hstart
      (Nat.le_add_right cursor (blockBytes key.format)) hstop
    rw [readPart, if_neg (by omega)] at hread
    refine hread.bind fun part s' h => .update_bind (.pure ?_)
    obtain ⟨hsound', hinside, hpart⟩ := h
    have hdescribes : Describes (memory key.toBufferVersion) ⟨key.blockAt cursor, part⟩ := by
      refine ⟨?_, hpart⟩
      show (key.blockAt cursor).indexEnd ≤ _
      rw [IndexBoundsKey.blockAt_indexEnd]
      exact hinside
    exact ⟨hsound'.of_mem hdescribes fun old => mem_remembered_insertBlock, hdescribes⟩

/-- The loop, by induction on what is left of the range. -/
theorem blockLoop_ensures (hsound : s.1.Sound memory)
    (hreader : reader.Authoritative (memory key.toBufferVersion) key.format)
    (hcovered : Covered (memory key.toBufferVersion) key cursor found) :
    (blockLoop allocates reader key key.indexEnd cursor found).Ensures s
      (fun out s' => s'.1.Sound memory ∧ Covered (memory key.toBufferVersion) key out.1 out.2)
      (fun e s' => s'.1.Sound memory ∧ reader.Fails key e) := by
  induction hleft : key.indexEnd - cursor using Nat.strongRecOn generalizing cursor found s with
  | ind left ih => ?_
  have hpos := blockBytes_pos key.format
  have hcursor := hcovered.le_end
  have hend := key.indexEnd_le
  unfold blockLoop
  split
  · rename_i hroom
    refine (blockPart_ensures hsound hreader hcovered.start_le (by omega)).bind fun part s' h => ?_
    obtain ⟨hsound', hpart⟩ := h
    have hinside := hpart.inside
    rw [IndexBoundsKey.blockAt_indexEnd] at hinside
    have hnext : Covered (memory key.toBufferVersion) key (cursor + blockBytes key.format)
        (mergeIndexBounds found part) :=
      hcovered.extend (Nat.le_add_right ..) (by omega)
        (by rw [Nat.add_sub_cancel_left]; exact Nat.dvd_mul_left ..) hinside hpart.bounds_eq
    exact ih _ (by omega) hsound' hnext rfl
  · exact .pure ⟨hsound, hcovered⟩

theorem blockedBounds_ensures (hsound : s.1.Sound memory)
    (hreader : reader.Authoritative (memory key.toBufferVersion) key.format) :
    (blockedBounds allocates reader key).Ensures s
      (fun bounds s' => s'.1.Sound memory ∧
        Describes (memory key.toBufferVersion) ⟨key, bounds⟩)
      (fun e s' => s'.1.Sound memory ∧ reader.Fails key e) := by
  unfold blockedBounds
  simp only
  have hend := key.le_indexEnd
  have hstop := key.indexEnd_le
  generalize hlead : (INDEX_BLOCK_WORDS - key.start / width key.format % INDEX_BLOCK_WORDS) %
    INDEX_BLOCK_WORDS * width key.format = lead
  have hdvd : width key.format ∣ min (key.indexEnd - key.start) lead := by
    rcases Nat.le_total (key.indexEnd - key.start) lead with hle | hle
    · rw [Nat.min_eq_left hle]
      exact key.dvd_indexEnd
    · rw [Nat.min_eq_right hle, ← hlead]
      exact Nat.dvd_mul_left ..
  refine (readPart_ensures hsound hreader (Nat.le_refl key.start) (Nat.le_add_right ..)
    (by omega)).bind fun head s hhead => ?_
  have hcovered : Covered (memory key.toBufferVersion) key
      (key.start + min (key.indexEnd - key.start) lead) head :=
    ⟨Nat.le_add_right .., by omega, by rwa [Nat.add_sub_cancel_left], hhead.2.1, hhead.2.2⟩
  refine (blockLoop_ensures hhead.1 hreader hcovered).bind fun blocks s hblocks => ?_
  obtain ⟨hsound', hblocks⟩ := hblocks
  refine (readPart_ensures hsound' hreader hblocks.start_le hblocks.le_end
    hstop).bind fun rest s hrest => .pure ⟨hrest.1, ?_⟩
  have hleft : width key.format ∣ key.indexEnd - blocks.1 := by
    have hsub : key.indexEnd - blocks.1 =
        (key.indexEnd - key.start) - (blocks.1 - key.start) := by
      have := hblocks.start_le
      omega
    rw [hsub]
    exact Nat.dvd_sub key.dvd_indexEnd hblocks.dvd
  exact (hblocks.extend hblocks.le_end (Nat.le_refl _) hleft hrest.2.1 hrest.2.2).describes

/-- A query answers with the extrema of its range, or fails as its reader did, and leaves
nothing untrue behind. -/
theorem bounds_ensures (hsound : s.1.Sound memory)
    (hreader : reader.Authoritative (memory key.toBufferVersion) key.format) :
    (bounds allocates reader key).Ensures s
      (fun bounds s' => s'.1.Sound memory ∧ bounds = rawIndexBounds
        (slice (memory key.toBufferVersion) key.start key.stop) key.format)
      (fun e s' => s'.1.Sound memory ∧ reader.Fails key e) := by
  unfold bounds
  refine .read_bind ?_
  split
  · rename_i found hfound
    exact .pure ⟨hsound, (hsound _ (get_remembered hfound)).bounds_eq⟩
  · refine (blockedBounds_ensures hsound hreader).bind fun found s' h => .update_bind (.pure ?_)
    exact ⟨h.1.of_mem h.2 fun old => mem_remembered_insert, h.2.bounds_eq⟩

/-- A write to a slot changes the bytes of no other slot, and the entries of that slot are
gone. -/
theorem Sound.invalidate (h : cache.Sound memory) {memory' : Memory} {slot : Nat}
    (hframe : ∀ version : BufferVersion, version.slot ≠ slot → memory' version = memory version) :
    (cache.invalidate slot).Sound memory' := by
  intro entry hentry
  obtain ⟨hold, hslot⟩ := mem_remembered_invalidate.mp hentry
  rw [hframe _ hslot]
  exact h entry hold

end IndexBoundsCache

/-! ## Runs -/

/-- A query with its reader, or a write to a slot. -/
inductive Op (ρ ε : Type) where
  | query (allocates : Bool) (reader : IndexReader ρ ε) (start : ρ) (key : IndexBoundsKey)
  | write (slot : Nat) (contents : Memory)

/-- A write replaces the bytes of all versions in its slot. -/
def Op.memory (memory : Memory) : Op ρ ε → Memory
  | .query .. => memory
  | .write slot contents => fun version =>
      if version.slot = slot then contents version else memory version

/-- A write is followed by the invalidation of its slot. -/
def Op.cache (cache : IndexBoundsCache) : Op ρ ε → IndexBoundsCache
  | .query allocates reader start key => (IndexBoundsCache.bounds allocates reader key (cache, start)).2.1
  | .write slot _ => cache.invalidate slot

def memoryAfter (memory : Memory) (history : List (Op ρ ε)) : Memory := history.foldl Op.memory memory

def cacheAfter (history : List (Op ρ ε)) : IndexBoundsCache :=
  history.foldl Op.cache IndexBoundsCache.default

/-- The reader of a query reads the current bytes. -/
def Op.Authoritative (memory : Memory) : Op ρ ε → Prop
  | .query _ reader _ key => reader.Authoritative (memory key.toBufferVersion) key.format
  | .write .. => True

variable {memory : Memory} {history : List (Op ρ ε)}

/-- Whatever was asked and written before, what the cache remembers is so. -/
theorem cacheAfter_sound
    (h : Along (fun past op => op.Authoritative (memoryAfter memory past)) history) :
    (cacheAfter history).Sound (memoryAfter memory history) := by
  induction history using List.reverseRecOn with
  | nil =>
    intro entry hentry
    rw [cacheAfter, List.foldl_nil, IndexBoundsCache.remembered_default] at hentry
    exact absurd hentry List.not_mem_nil
  | append_singleton past op ih =>
    obtain ⟨hpast, hop⟩ := along_snoc.mp h
    have hsound := ih hpast
    rw [cacheAfter, memoryAfter, List.foldl_append, List.foldl_append]
    cases op with
    | query allocates reader start key =>
      exact (IndexBoundsCache.bounds_ensures (s := (cacheAfter past, start)) hsound hop).imp
        (fun _ _ h => h.1) (fun _ _ h => h.1) |>.state (P := fun s : IndexBoundsCache × ρ => s.1.Sound _)
    | write slot contents =>
      exact hsound.invalidate fun version hslot => if_neg hslot

/-- Every query of every run answers with the extrema of the bytes that are there, unless its
reader fails. -/
theorem answer_eq_rawIndexBounds (memory : Memory) (history : List (Op ρ ε))
    (h : Along (fun past op => op.Authoritative (memoryAfter memory past)) history)
    (allocates : Bool) (reader : IndexReader ρ ε) (start : ρ) (key : IndexBoundsKey)
    (hreader : reader.Authoritative (memoryAfter memory history key.toBufferVersion) key.format) :
    (IndexBoundsCache.bounds allocates reader key).Ensures (cacheAfter history, start)
      (fun bounds _ => bounds = rawIndexBounds
        (slice (memoryAfter memory history key.toBufferVersion) key.start key.stop) key.format)
      (fun e _ => reader.Fails key e) :=
  (IndexBoundsCache.bounds_ensures (s := (cacheAfter history, start)) (cacheAfter_sound h)
    hreader).imp (fun _ _ hrun => hrun.2) (fun _ _ hrun => hrun.2)

/-! ## A write between two queries -/

/-- A reader of some bytes, which fails past their end. -/
def bytesReader (bytes : List UInt8) (format : IndexFormat) : IndexReader Unit Error where
  read start stop := fun s =>
    if stop ≤ bytes.length then (.ok (rawIndexBounds (slice bytes start stop) format), s)
    else (.error .outOfBounds, s)
  block _ s := s

theorem bytesReader_authoritative (bytes : List UInt8) (format : IndexFormat) :
    (bytesReader bytes format).Authoritative bytes format := by
  intro start stop before bounds after _ hread
  unfold bytesReader at hread
  simp only at hread
  split at hread
  · cases hread
    exact ⟨‹_›, rfl⟩
  · cases hread

/-- Two 16-bit indices in the buffer of slot 0. -/
def pairKey : IndexBoundsKey := ⟨⟨⟨1, 0, 0⟩, 0, 7⟩, 0, 4, .uint16, Nat.zero_le 4⟩

/-- Queried, and written over at an unchanged revision. -/
def rewritten : List (Op Unit Error) :=
  [.query true (bytesReader [2, 0, 3, 0] .uint16) () pairKey, .write 0 fun _ => [1, 0, 9, 0]]

/-- The second query answers for the bytes that were written. -/
theorem answer_eq_rawIndexBounds_rewritten :
    (IndexBoundsCache.bounds true (bytesReader [1, 0, 9, 0] .uint16) pairKey).Ensures
      (cacheAfter rewritten, ())
      (fun bounds _ => bounds = rawIndexBounds (slice [1, 0, 9, 0] 0 4) .uint16)
      (fun e _ => (bytesReader [1, 0, 9, 0] .uint16).Fails pairKey e) :=
  answer_eq_rawIndexBounds (fun _ => [2, 0, 3, 0]) rewritten
    (along_iff_alongFrom.mpr ⟨bytesReader_authoritative _ _, trivial, trivial⟩) true
    (bytesReader [1, 0, 9, 0] .uint16) () pairKey
    (bytesReader_authoritative [1, 0, 9, 0] .uint16)

example : rawIndexBounds (slice [1, 0, 9, 0] 0 4) .uint16 = some (1, 9) := by decide

end Sgfx.Indices
