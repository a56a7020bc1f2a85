import Sgfx.Descriptors
import Sgfx.Indices.Extrema
import Sgfx.Library.Fallible

/-!
# The cache of index bounds

The bounds of exact ranges are remembered in a ring of 32 entries, and those of full blocks
of 1024 indices in a table of 512 buckets.  A query that is not remembered reads the part
before the first block boundary, then the blocks that are not remembered, then the rest.
A write to a slot forgets all entries of that slot.

Everything the cache remembers is one list (`IndexBoundsCache.remembered`), and each operation
says what it does to that list.

## Main Definitions

* `IndexBoundsKey`, `IndexBoundsCache`
* `IndexReader` — the reader of a caller
* `IndexBoundsCache.bounds`, `IndexBoundsCache.invalidate`

## Main Results

* `mem_remembered_insert`, `mem_remembered_insertBlock` — nothing but the new entry is new
* `remembered_invalidate` — exactly the entries of other slots remain
-/

namespace Sgfx.Indices

def INDEX_BOUNDS_CACHE_SIZE : Nat := 32

def INDEX_BLOCK_WORDS : Nat := 1024

def INDEX_BLOCK_CACHE_SIZE : Nat := 512

/-- A version of a buffer: its bytes change with every write to its slot. -/
structure BufferVersion where
  buffer : BufferId
  slot : Nat
  revision : UInt64
deriving DecidableEq

/-- `IndexBoundsKey`, of a range that the caller has checked. -/
structure IndexBoundsKey extends BufferVersion where
  start : Nat
  stop : Nat
  format : IndexFormat
  ordered : start ≤ stop
deriving DecidableEq

/-- `IndexBoundsEntry`. -/
structure IndexBoundsEntry where
  key : IndexBoundsKey
  bounds : IndexBounds
deriving DecidableEq

/-- The number of entries in use. -/
def occupied (places : List (Option IndexBoundsEntry)) : Nat := places.countP Option.isSome

/-- `IndexBoundsCache`: `next` is the place of the ring to be written next, and `live` counts
the entries of both parts. -/
structure IndexBoundsCache where
  entries : List (Option IndexBoundsEntry)
  next : Fin INDEX_BOUNDS_CACHE_SIZE
  blocks : List (Option IndexBoundsEntry)
  blockAllocationFailed : Bool
  live : Nat
  entries_length : entries.length = INDEX_BOUNDS_CACHE_SIZE
  blocks_length : blocks = [] ∨ blocks.length = INDEX_BLOCK_CACHE_SIZE
  live_eq : live = occupied entries + occupied blocks

/-! ## Places -/

section Places

variable {places : List (Option IndexBoundsEntry)} {i : Nat} {entry : IndexBoundsEntry}

/-- Writing a place takes one more if it was free. -/
theorem occupied_set (h : i < places.length) :
    occupied (places.set i (some entry)) =
      occupied places + if places[i].isNone then 1 else 0 := by
  unfold occupied
  induction places generalizing i with
  | nil => exact absurd h (Nat.not_lt_zero _)
  | cons place rest ih =>
    cases i with
    | zero => cases place <;> simp
    | succ i =>
      have hrest := ih (Nat.lt_of_succ_lt_succ h)
      simp only [List.set_cons_succ, List.countP_cons, List.getElem_cons_succ] at hrest ⊢
      omega

/-- Forget the entries of a slot. -/
def clearSlot (slot : Nat) (places : List (Option IndexBoundsEntry)) :
    List (Option IndexBoundsEntry) :=
  places.map fun place => place.filter fun entry => entry.key.slot ≠ slot

/-- The entries of a slot. -/
def ofSlot (slot : Nat) (places : List (Option IndexBoundsEntry)) : Nat :=
  places.countP fun place => place.any fun entry => entry.key.slot = slot

@[simp] theorem clearSlot_length {slot : Nat} : (clearSlot slot places).length = places.length := by
  rw [clearSlot, List.length_map]

theorem occupied_clearSlot (slot : Nat) (places : List (Option IndexBoundsEntry)) :
    occupied (clearSlot slot places) + ofSlot slot places = occupied places := by
  unfold occupied clearSlot ofSlot
  induction places with
  | nil => rfl
  | cons place rest ih =>
    rw [List.map_cons, List.countP_cons, List.countP_cons, List.countP_cons]
    cases place with
    | none => exact ih
    | some entry =>
      have hkept : ((some entry).filter fun entry => entry.key.slot ≠ slot).isSome =
          !decide (entry.key.slot = slot) := by
        by_cases h : entry.key.slot = slot <;> simp [h]
      rw [hkept, Option.any_some]
      by_cases h : entry.key.slot = slot <;> simp only [h, decide_true, decide_false, Bool.not_true,
        Bool.not_false, Bool.false_eq_true, Option.isSome_some, if_true, if_false] <;> omega

theorem mem_clearSlot {slot : Nat} :
    some entry ∈ clearSlot slot places ↔ some entry ∈ places ∧ entry.key.slot ≠ slot := by
  rw [clearSlot, List.mem_map]
  constructor
  · rintro ⟨place, hmem, hfilter⟩
    obtain ⟨rfl, hslot⟩ := Option.filter_eq_some_iff.mp hfilter
    exact ⟨hmem, of_decide_eq_true hslot⟩
  · rintro ⟨hmem, hslot⟩
    exact ⟨_, hmem, Option.filter_eq_some_iff.mpr ⟨rfl, decide_eq_true hslot⟩⟩

/-- Without entries there is nothing to forget. -/
theorem clearSlot_of_vacant (slot : Nat) (h : occupied places = 0) :
    clearSlot slot places = places := by
  have hnone : ∀ place ∈ places, place = none := by
    intro place hmem
    have := List.countP_eq_zero.mp h place hmem
    rwa [Option.not_isSome_iff_eq_none] at this
  conv_rhs => rw [← List.map_id places]
  refine List.map_congr_left fun place hmem => ?_
  rw [hnone place hmem]
  rfl

theorem mem_set_some {other : IndexBoundsEntry} (h : some other ∈ places.set i (some entry)) :
    other = entry ∨ some other ∈ places := by
  rcases List.mem_or_eq_of_mem_set h with hmem | heq
  · exact .inr hmem
  · exact .inl (Option.some.inj heq)

theorem occupied_replicate (count : Nat) : occupied (List.replicate count none) = 0 := by
  refine List.countP_eq_zero.mpr fun place hmem => ?_
  rw [List.eq_of_mem_replicate hmem]
  exact Bool.false_ne_true

end Places

namespace IndexBoundsCache

theorem vacant_live :
    0 = occupied (List.replicate INDEX_BOUNDS_CACHE_SIZE none) + occupied [] := by
  rw [occupied_replicate]
  rfl

theorem ring_pos : 0 < INDEX_BOUNDS_CACHE_SIZE := by decide

/-- `IndexBoundsCache::default`. -/
def default : IndexBoundsCache where
  entries := List.replicate INDEX_BOUNDS_CACHE_SIZE none
  next := ⟨0, ring_pos⟩
  blocks := []
  blockAllocationFailed := false
  live := 0
  entries_length := List.length_replicate
  blocks_length := .inl rfl
  live_eq := vacant_live

variable (cache : IndexBoundsCache)

theorem next_lt : cache.next < cache.entries.length := by
  rw [cache.entries_length]
  exact cache.next.isLt

/-! ## Exact ranges -/

/-- `IndexBoundsCache::get`. -/
def get (key : IndexBoundsKey) : Option IndexBounds :=
  ((cache.entries.filterMap id).find? fun entry => entry.key = key).map IndexBoundsEntry.bounds

theorem insert_live (entry : IndexBoundsEntry) :
    (cache.live + if (cache.entries.get ⟨cache.next, cache.next_lt⟩).isNone then 1 else 0) =
      occupied (cache.entries.set cache.next (some entry)) + occupied cache.blocks := by
  rw [occupied_set cache.next_lt, cache.live_eq]
  exact Nat.add_right_comm ..

theorem insert_length (entry : IndexBoundsEntry) :
    (cache.entries.set cache.next (some entry)).length = INDEX_BOUNDS_CACHE_SIZE := by
  rw [List.length_set, cache.entries_length]

/-- `IndexBoundsCache::insert`. -/
def insert (key : IndexBoundsKey) (bounds : IndexBounds) : IndexBoundsCache :=
  { cache with
    entries := cache.entries.set cache.next (some ⟨key, bounds⟩)
    next := ⟨(cache.next + 1) % INDEX_BOUNDS_CACHE_SIZE, Nat.mod_lt _ ring_pos⟩
    live := cache.live + if (cache.entries.get ⟨cache.next, cache.next_lt⟩).isNone then 1 else 0
    entries_length := cache.insert_length ⟨key, bounds⟩
    live_eq := cache.insert_live ⟨key, bounds⟩ }

/-! ## Blocks -/

/-- The bytes of a block. -/
def blockBytes (format : IndexFormat) : Nat := INDEX_BLOCK_WORDS * width format

/-- `IndexBoundsCache::block_bucket`, on words of 64 bits. -/
def blockBucket (key : IndexBoundsKey) : Nat :=
  let block := key.start / blockBytes key.format
  let salt := (key.slot * 0x9e3779b1 % 2 ^ 64) ^^^ key.revision.toNat ^^^
    (match key.format with
    | .uint16 => 0
    | .uint32 => 0x85ebca6b)
  (block ^^^ salt) &&& (INDEX_BLOCK_CACHE_SIZE - 1)

theorem blockBucket_lt (key : IndexBoundsKey) : blockBucket key < INDEX_BLOCK_CACHE_SIZE :=
  Nat.lt_succ_of_le Nat.and_le_right

/-- `IndexBoundsCache::block`. -/
def block (key : IndexBoundsKey) : Option IndexBounds :=
  ((cache.blocks[blockBucket key]?).join.filter fun entry => entry.key = key).map
    IndexBoundsEntry.bounds

theorem reserve_length :
    List.replicate INDEX_BLOCK_CACHE_SIZE (none : Option IndexBoundsEntry) = [] ∨
      (List.replicate INDEX_BLOCK_CACHE_SIZE (none : Option IndexBoundsEntry)).length =
        INDEX_BLOCK_CACHE_SIZE :=
  .inr List.length_replicate

theorem reserve_live (h : cache.blocks = []) :
    cache.live = occupied cache.entries + occupied (List.replicate INDEX_BLOCK_CACHE_SIZE none) := by
  rw [cache.live_eq, h, occupied_replicate]
  rfl

/-- The table of buckets is allocated at the first full block, or never. -/
def reserveBlocks (allocates : Bool) : IndexBoundsCache :=
  if h : cache.blocks = [] ∧ cache.blockAllocationFailed = false then
    if allocates then
      { cache with
        blocks := List.replicate INDEX_BLOCK_CACHE_SIZE none
        blocks_length := reserve_length
        live_eq := cache.reserve_live h.1 }
    else { cache with blockAllocationFailed := true }
  else cache

theorem bucket_lt (key : IndexBoundsKey) (h : ¬ cache.blocks = []) :
    blockBucket key < cache.blocks.length := by
  rw [cache.blocks_length.resolve_left h]
  exact blockBucket_lt key

theorem place_length (entry : IndexBoundsEntry) (bucket : Nat) (h : ¬ cache.blocks = []) :
    cache.blocks.set bucket (some entry) = [] ∨
      (cache.blocks.set bucket (some entry)).length = INDEX_BLOCK_CACHE_SIZE := by
  rw [List.length_set]
  exact .inr (cache.blocks_length.resolve_left h)

theorem place_live (entry : IndexBoundsEntry) (key : IndexBoundsKey) (h : ¬ cache.blocks = []) :
    (cache.live +
        if (cache.blocks.get ⟨blockBucket key, cache.bucket_lt key h⟩).isNone then 1 else 0) =
      occupied cache.entries + occupied (cache.blocks.set (blockBucket key) (some entry)) := by
  rw [occupied_set (cache.bucket_lt key h), cache.live_eq, Nat.add_assoc]
  rfl

/-- `IndexBoundsCache::insert_block`; `allocates` is whether the reservation succeeds. -/
def insertBlock (allocates : Bool) (key : IndexBoundsKey) (bounds : IndexBounds) :
    IndexBoundsCache :=
  let cache := cache.reserveBlocks allocates
  if h : cache.blocks = [] then cache
  else
    { cache with
      blocks := cache.blocks.set (blockBucket key) (some ⟨key, bounds⟩)
      live := cache.live +
        if (cache.blocks.get ⟨blockBucket key, cache.bucket_lt key h⟩).isNone then 1 else 0
      blocks_length := cache.place_length ⟨key, bounds⟩ _ h
      live_eq := cache.place_live ⟨key, bounds⟩ key h }

/-! ## Writes -/

theorem clear_entries_length (slot : Nat) :
    (clearSlot slot cache.entries).length = INDEX_BOUNDS_CACHE_SIZE := by
  rw [clearSlot_length, cache.entries_length]

theorem clear_blocks_length (slot : Nat) :
    clearSlot slot cache.blocks = [] ∨
      (clearSlot slot cache.blocks).length = INDEX_BLOCK_CACHE_SIZE := by
  rw [clearSlot_length]
  refine cache.blocks_length.imp (fun h => ?_) id
  rw [h]
  rfl

theorem clear_live (slot : Nat) :
    cache.live - (ofSlot slot cache.entries + ofSlot slot cache.blocks) =
      occupied (clearSlot slot cache.entries) + occupied (clearSlot slot cache.blocks) := by
  have hentries := occupied_clearSlot slot cache.entries
  have hblocks := occupied_clearSlot slot cache.blocks
  rw [cache.live_eq]
  omega

/-- `IndexBoundsCache::invalidate`. -/
def invalidate (slot : Nat) : IndexBoundsCache :=
  -- Writes commonly come before any query: an empty cache is not walked.
  if cache.live = 0 then cache
  else
    { cache with
      entries := clearSlot slot cache.entries
      blocks := clearSlot slot cache.blocks
      live := cache.live - (ofSlot slot cache.entries + ofSlot slot cache.blocks)
      entries_length := cache.clear_entries_length slot
      blocks_length := cache.clear_blocks_length slot
      live_eq := cache.clear_live slot }

/-! ## What is remembered -/

/-- All entries. -/
def remembered : List IndexBoundsEntry :=
  cache.entries.filterMap id ++ cache.blocks.filterMap id

variable {cache} {key : IndexBoundsKey} {bounds : IndexBounds} {entry : IndexBoundsEntry}

theorem mem_remembered :
    entry ∈ cache.remembered ↔ some entry ∈ cache.entries ∨ some entry ∈ cache.blocks := by
  rw [remembered, List.mem_append, List.mem_filterMap, List.mem_filterMap]
  simp only [id_eq, exists_eq_right]

@[simp] theorem remembered_default : default.remembered = [] := by decide

/-- An answer for a range is remembered for just that range. -/
theorem get_remembered (h : cache.get key = some bounds) : ⟨key, bounds⟩ ∈ cache.remembered := by
  obtain ⟨entry, hfind, rfl⟩ := Option.map_eq_some_iff.mp h
  have hkey : entry.key = key := by simpa using List.find?_some hfind
  have hmem := List.mem_of_find?_eq_some hfind
  rw [← hkey]
  exact List.mem_append_left _ hmem

/-- An answer for a block is remembered for just that block: keys that share a bucket are told
apart. -/
theorem block_remembered (h : cache.block key = some bounds) :
    ⟨key, bounds⟩ ∈ cache.remembered := by
  obtain ⟨entry, hfilter, rfl⟩ := Option.map_eq_some_iff.mp h
  obtain ⟨hjoin, hkey⟩ := Option.filter_eq_some_iff.mp hfilter
  have hplace := Option.join_eq_some_iff.mp hjoin
  rw [← of_decide_eq_true hkey]
  exact mem_remembered.mpr (.inr (List.mem_of_getElem? hplace))

theorem mem_remembered_insert (h : entry ∈ (cache.insert key bounds).remembered) :
    entry = ⟨key, bounds⟩ ∨ entry ∈ cache.remembered := by
  rw [mem_remembered] at h ⊢
  rcases h with h | h
  · rcases mem_set_some h with heq | hmem
    · exact .inl heq
    · exact .inr (.inl hmem)
  · exact .inr (.inr h)

theorem mem_remembered_reserveBlocks {allocates : Bool}
    (h : entry ∈ (cache.reserveBlocks allocates).remembered) : entry ∈ cache.remembered := by
  unfold reserveBlocks at h
  split at h
  · split at h
    · rw [mem_remembered] at h ⊢
      rcases h with h | h
      · exact .inl h
      · exact absurd (List.eq_of_mem_replicate h) (Option.some_ne_none _)
    · exact h
  · exact h

theorem mem_remembered_insertBlock {allocates : Bool}
    (h : entry ∈ (cache.insertBlock allocates key bounds).remembered) :
    entry = ⟨key, bounds⟩ ∨ entry ∈ cache.remembered := by
  unfold insertBlock at h
  simp only at h
  split at h
  · exact .inr (mem_remembered_reserveBlocks h)
  · rw [mem_remembered] at h
    rcases h with h | h
    · exact .inr (mem_remembered_reserveBlocks (mem_remembered.mpr (.inl h)))
    · rcases mem_set_some h with heq | hmem
      · exact .inl heq
      · exact .inr (mem_remembered_reserveBlocks (mem_remembered.mpr (.inr hmem)))

/-- A write to a slot leaves exactly the entries of the other slots. -/
theorem mem_remembered_invalidate {slot : Nat} :
    entry ∈ (cache.invalidate slot).remembered ↔
      entry ∈ cache.remembered ∧ entry.key.slot ≠ slot := by
  unfold invalidate
  split
  · rename_i hlive
    rw [cache.live_eq] at hlive
    have hentries := clearSlot_of_vacant slot (Nat.eq_zero_of_add_eq_zero_right hlive)
    have hblocks := clearSlot_of_vacant slot (Nat.eq_zero_of_add_eq_zero_left hlive)
    rw [mem_remembered, ← hentries, ← hblocks, mem_clearSlot, mem_clearSlot, ← or_and_right,
      and_assoc, and_self_iff]
  · rw [mem_remembered, mem_remembered]
    show some entry ∈ clearSlot slot cache.entries ∨ some entry ∈ clearSlot slot cache.blocks ↔ _
    rw [mem_clearSlot, mem_clearSlot, or_and_right]

end IndexBoundsCache

end Sgfx.Indices
