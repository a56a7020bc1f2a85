import Mathlib.Data.List.Sort
import Sgfx.Vulkan.HostUploadMerges
import Sgfx.Vulkan.HostUploadReads

/-!
# Snapshots of host-written bytes

The writes of a recording's uploads have, for each host-written buffer, exactly the words that the
recording can read, in order and apart, with the bytes of the mirror.

## Main Definitions

* `BufferWrite.Has`, `Snapshot` — the writes of a buffer
* `Uploads` — the answer of `forRecording`

## Main Results

* `snapshotBuffer_ok`
* `host_uploads`
-/

namespace Sgfx.Vulkan

/-- The byte is one that the write writes. -/
def BufferWrite.Has (write : BufferWrite) (i : Nat) : Prop :=
  write.offset ≤ i ∧ i < write.offset + write.data.length

/-- Writes of a buffer, which is bound at `offset` of a mirror: in order and apart, of the words of
these bytes, and with the bytes of the mirror. -/
structure Snapshot (buffer : Buffer) (offset : Nat) (mirror : Option (List UInt8))
    (reads : Nat → Prop) (writes : List BufferWrite) : Prop where
  target : ∀ write ∈ writes, write.buffer = buffer.id
  apart : writes.Pairwise fun a b => a.offset + a.data.length ≤ b.offset
  covered : ∀ i < buffer.size.toNat,
    (∃ write ∈ writes, write.Has i) ↔ ∃ j, j / 4 = i / 4 ∧ reads j
  bytes : ∀ write ∈ writes, ∃ bytes, mirror = some bytes ∧ ∀ i < buffer.size.toNat, write.Has i →
    offset + i < bytes.length ∧ Bytes.get write.data (i - write.offset) = Bytes.get bytes (offset + i)

section Snapshots

variable {resources : Resources} {handle : BufferHandle} {buffer : Buffer} {offset : Nat}
  {mirror : Option (List UInt8)} {range : MemoryRange} {write : BufferWrite}

/-- The write of a range. -/
theorem snapshotRange_eq_ok (words : WordSpan buffer.size.toNat range)
    (h : snapshotRange buffer.id offset mirror range = .ok write) :
    write.buffer = buffer.id ∧ write.offset = range.start ∧
      (∀ i < buffer.size.toNat, write.Has i ↔ range.Has i) ∧
      (range.stop ≠ buffer.size.toNat → write.offset + write.data.length = range.stop) ∧
      ∃ bytes, mirror = some bytes ∧ ∀ i, range.Has i → offset + i < bytes.length ∧
        Bytes.get write.data (i - write.offset) = Bytes.get bytes (offset + i) := by
  obtain ⟨start, hstart, h⟩ := except_bind_eq_ok.mp h
  obtain ⟨stop, hstop, h⟩ := except_bind_eq_ok.mp h
  obtain ⟨bytes, hmirror, h⟩ := except_bind_eq_ok.mp h
  obtain ⟨part, hpart, h⟩ := except_bind_eq_ok.mp h
  rw [okOr_eq_ok] at hstart hstop hpart
  rw [orPanic, okOr_eq_ok] at hmirror
  obtain rfl := Except.ok.inj h
  obtain rfl := checkedAddUsize_eq_some hstart
  obtain rfl := checkedAddUsize_eq_some hstop
  obtain ⟨ordered, inside, hstart_dvd, hstop_dvd⟩ := words
  unfold indexRange at hpart
  split at hpart
  · rename_i room
    obtain rfl := Option.some.inj hpart
    have length : ((bytes.drop (offset + range.start)).take
        (offset + range.stop - (offset + range.start))).length = range.stop - range.start := by
      rw [List.length_take, List.length_drop]
      omega
    simp only [BufferWrite.Has, Bytes.resize_length, length, Span.Has]
    refine ⟨trivial, trivial, ?_, ?_, bytes, hmirror, ?_⟩
    · intro i hi
      by_cases last : range.stop = buffer.size.toNat
      · omega
      · have := hstop_dvd last
        omega
    · intro last
      have := hstop_dvd last
      omega
    · intro i hi
      refine ⟨by omega, ?_⟩
      rw [Bytes.get_resize (by omega), Bytes.get_take, if_pos (by omega), Bytes.get_drop]
      congr 1
      omega
  · cases hpart

/-- The writes of the merged ranges of a buffer. -/
theorem Snapshot.of_ranges {merged : List MemoryRange} {reads : Nat → Prop}
    {writes : List BufferWrite} (separated : Separated merged)
    (words : ∀ range ∈ merged, WordSpan buffer.size.toNat range)
    (covered : ∀ i < buffer.size.toNat, Covered merged i ↔ ∃ j, j / 4 = i / 4 ∧ reads j)
    (h : merged.mapM (snapshotRange buffer.id offset mirror) = .ok writes) :
    Snapshot buffer offset mirror reads writes := by
  -- a range that is not the last one stops before the end of the buffer, so nothing is added to it
  have apart : merged.Pairwise fun a b => WordSpan buffer.size.toNat a ∧
      WordSpan buffer.size.toNat b ∧ a.stop < b.start :=
    separated.apart.imp_of_mem fun ha hb before => ⟨words _ ha, words _ hb, before⟩
  constructor
  · intro write member
    obtain ⟨range, hrange, run⟩ := mapM_ok_mem h write member
    exact (snapshotRange_eq_ok (words range hrange) run).1
  · refine mapM_pairwise h apart fun a b write write' ⟨ha, hb, before⟩ run run' => ?_
    obtain ⟨-, -, -, length, -⟩ := snapshotRange_eq_ok ha run
    obtain ⟨-, place, -⟩ := snapshotRange_eq_ok hb run'
    have := hb.ordered
    have := hb.inside
    rw [length (by omega), place]
    omega
  · intro i hi
    rw [← covered i hi]
    constructor
    · rintro ⟨write, member, has⟩
      obtain ⟨range, hrange, run⟩ := mapM_ok_mem h write member
      obtain ⟨-, -, same, -⟩ := snapshotRange_eq_ok (words range hrange) run
      exact ⟨range, hrange, (same i hi).mp has⟩
    · rintro ⟨range, hrange, has⟩
      obtain ⟨write, member, run⟩ := mapM_mem_ok h range hrange
      obtain ⟨-, -, same, -⟩ := snapshotRange_eq_ok (words range hrange) run
      exact ⟨write, member, (same i hi).mpr has⟩
  · intro write member
    obtain ⟨range, hrange, run⟩ := mapM_ok_mem h write member
    obtain ⟨-, -, same, -, bytes, hmirror, hbytes⟩ := snapshotRange_eq_ok (words range hrange) run
    exact ⟨bytes, hmirror, fun i hi has => hbytes i ((same i hi).mp has)⟩

/-- A buffer of which nothing is read. -/
theorem snapshot_nil {reads : Nat → Prop}
    (none : ∀ i < buffer.size.toNat, ¬ ∃ j, j / 4 = i / 4 ∧ reads j) :
    Snapshot buffer offset mirror reads [] where
  target write member := by cases member
  apart := .nil
  covered i hi := by simp [none i hi]
  bytes write member := by cases member

/-- The buffer is not mapped, and was written already. -/
def Uploaded (resources : Resources) (handle : BufferHandle) (allocation : Memory) : Prop :=
  allocation.mapped = false ∧ resources.uploadedUnmappedBuffers handle = true

/-- The writes of one buffer that is snapshotted, and whether it is fresh. -/
structure BufferUploads (resources : Resources) (handle : BufferHandle) (reads : Nat → Prop)
    (writes : List BufferWrite) (fresh : List (BufferHandle × DeviceMemory)) : Prop where
  snapshot : ∀ {buffer memory offset allocation}, resources.buffers handle = some buffer →
    buffer.bound = some (memory, offset) → resources.memories memory = some allocation →
    allocation.hostWritten = true → ¬ Uploaded resources handle allocation →
    Snapshot buffer offset.toNat allocation.bytes reads writes
  skipped : ∀ {buffer memory offset allocation}, resources.buffers handle = some buffer →
    buffer.bound = some (memory, offset) → resources.memories memory = some allocation →
    Uploaded resources handle allocation → writes = []
  fresh : ∀ entry ∈ fresh, ∃ buffer memory offset allocation, entry = (handle, memory) ∧
    resources.buffers handle = some buffer ∧ buffer.bound = some (memory, offset) ∧
    resources.memories memory = some allocation ∧ allocation.mapped = false ∧
    allocation.hostWritten = true ∧ resources.uploadedUnmappedBuffers handle = false ∧
    ∀ i < buffer.size.toNat, ∃ write ∈ writes, write.Has i

/-- One turn of the loop of `snapshot`. -/
theorem snapshotBuffer_ok {sorting : StartSort} {ranges : List MemoryRange} {reads : Nat → Prop}
    {writes : List BufferWrite} {fresh : List (BufferHandle × DeviceMemory)}
    (words : ∀ range ∈ ranges, ∃ buffer, resources.buffers handle = some buffer ∧
      WordSpan buffer.size.toNat range)
    (covered : ∀ i, Covered ranges i ↔ ∃ buffer, resources.buffers handle = some buffer ∧
      i < buffer.size.toNat ∧ ∃ j, j / 4 = i / 4 ∧ reads j)
    (h : snapshotBuffer sorting resources handle ranges = .ok (writes, fresh)) :
    BufferUploads resources handle reads writes fresh := by
  obtain ⟨buffer, found, h⟩ := except_bind_eq_ok.mp h
  rw [okOr_eq_ok] at found
  have none (h : (([], []) : List BufferWrite × List (BufferHandle × DeviceMemory)) =
      (writes, fresh)) (skip : ∀ memory offset allocation, buffer.bound = some (memory, offset) →
        resources.memories memory = some allocation → allocation.hostWritten = true →
        Uploaded resources handle allocation) : BufferUploads resources handle reads writes fresh := by
    obtain ⟨rfl, rfl⟩ := Prod.mk.inj h
    refine ⟨fun found' bound stored written fails => ?_, fun _ _ _ _ => rfl, fun entry member => by
      cases member⟩
    rw [found, Option.some.injEq] at found'
    exact absurd (skip _ _ _ (found' ▸ bound) stored written) fails
  split at h
  · rename_i unbound
    refine none (Except.ok.inj h) fun memory offset allocation bound => ?_
    rw [unbound] at bound
    cases bound
  rename_i memory offset bound
  obtain ⟨allocation, stored, h⟩ := except_bind_eq_ok.mp h
  rw [okOr_eq_ok] at stored
  have same {memory' offset' allocation'} (bound' : buffer.bound = some (memory', offset'))
      (stored' : resources.memories memory' = some allocation') :
      memory' = memory ∧ offset' = offset ∧ allocation' = allocation := by
    rw [bound, Option.some.injEq, Prod.mk.injEq] at bound'
    obtain ⟨rfl, rfl⟩ := bound'
    rw [stored, Option.some.injEq] at stored'
    exact ⟨rfl, rfl, stored'.symm⟩
  split at h
  · rename_i unwritten
    refine none (Except.ok.inj h) fun memory' offset' allocation' bound' stored' written => ?_
    rw [(same bound' stored').2.2, unwritten] at written
    cases written
  rename_i written
  obtain ⟨_, hmerged, h⟩ := except_bind_eq_ok.mp h
  rw [merge_eq] at hmerged
  obtain rfl := Except.ok.inj hmerged
  split at h
  · rename_i uploaded
    refine none (Except.ok.inj h) fun memory' offset' allocation' bound' stored' _ => ?_
    rw [(same bound' stored').2.2]
    exact uploaded
  rename_i current
  obtain ⟨writes', hwrites, h⟩ := except_bind_eq_ok.mp h
  obtain ⟨rfl, rfl⟩ := Prod.mk.inj (Except.ok.inj h)
  -- the merged ranges
  have sorted := sorting.sorted ranges
  have perm := sorting.perm ranges
  have word (range : MemoryRange) (member : range ∈ sorting.sort ranges) :
      WordSpan buffer.size.toNat range := by
    obtain ⟨buffer', found', word⟩ := words range (perm.mem_iff.mp member)
    rw [found, Option.some.injEq] at found'
    exact found' ▸ word
  have ordered (range : MemoryRange) (member : range ∈ sorting.sort ranges) :
      range.start ≤ range.stop := (word range member).ordered
  have separated := separated_coalesce ordered sorted
  have merged (range : MemoryRange) (member : range ∈ coalesce (sorting.sort ranges)) :
      WordSpan buffer.size.toNat range := by
    obtain ⟨⟨a, ha, hstart⟩, b, hb, hstop⟩ := bounds_coalesce member
    refine ⟨separated.ordered range member, ?_, ?_, ?_⟩
    · exact hstop ▸ (word b hb).inside
    · exact hstart ▸ (word a ha).start_dvd
    · exact hstop ▸ (word b hb).stop_dvd
  have all (i : Nat) (hi : i < buffer.size.toNat) :
      Covered (coalesce (sorting.sort ranges)) i ↔ ∃ j, j / 4 = i / 4 ∧ reads j := by
    rw [covered_coalesce ordered sorted, covered_perm perm, covered]
    simp only [found, Option.some.injEq, exists_eq_left', hi, true_and]
  have snapshot := Snapshot.of_ranges separated merged all hwrites
  have here {buffer' memory' offset' allocation'} (found' : resources.buffers handle = some buffer')
      (bound' : buffer'.bound = some (memory', offset'))
      (stored' : resources.memories memory' = some allocation') :
      buffer' = buffer ∧ offset' = offset ∧ allocation' = allocation := by
    rw [found, Option.some.injEq] at found'
    subst found'
    exact ⟨rfl, (same bound' stored').2⟩
  refine ⟨fun found' bound' stored' _ _ => ?_, fun found' bound' stored' uploaded => ?_,
    fun entry member => ?_⟩
  · obtain ⟨rfl, rfl, rfl⟩ := here found' bound' stored'
    exact snapshot
  · obtain ⟨rfl, rfl, rfl⟩ := here found' bound' stored'
    exact absurd uploaded current
  · split at member
    · rename_i full
      obtain ⟨unmapped, full⟩ := full
      rw [List.mem_singleton] at member
      refine ⟨buffer, memory, offset, allocation, member, found, bound, stored, unmapped,
        Bool.not_eq_false _ ▸ written, Bool.not_eq_true _ ▸ fun uploaded => current ⟨unmapped, uploaded⟩,
        fun i hi => ?_⟩
      rw [snapshot.covered i hi, ← all i hi, full, covered_singleton]
      exact ⟨Nat.zero_le i, hi⟩
    · cases member

end Snapshots

/-! ## All buffers -/

/-- What a recording's uploads are: the writes of its buffers, in the order of the buffers. -/
structure Uploads (resources : Resources) (reads : BufferHandle → Nat → Prop)
    (ops : List BufferWrite) (fresh : List (BufferHandle × DeviceMemory)) : Prop where
  blocks : ∃ (handles : List BufferHandle) (writes : BufferHandle → List BufferWrite)
    (synchronized : BufferHandle → List (BufferHandle × DeviceMemory)),
    handles.Pairwise (· < ·) ∧ ops = handles.flatMap writes ∧
    fresh = handles.flatMap synchronized ∧ (∀ handle ∉ handles, writes handle = []) ∧
    ∀ handle, BufferUploads resources handle (reads handle) (writes handle) (synchronized handle)

/-- A loop that appends two rows of results. -/
theorem foldlM_append₂ {ε α β γ : Type} {l : List α} {f : α → Except ε (List β × List γ)}
    {done : List β × List γ} {bs : List β} {cs : List γ}
    (h : l.foldlM (fun (done : List β × List γ) a => do
      let (xs, ys) ← f a
      return (done.1 ++ xs, done.2 ++ ys)) done = .ok (bs, cs)) :
    ∃ g : α → List β × List γ, (∀ a ∈ l, f a = .ok (g a)) ∧
      bs = done.1 ++ l.flatMap (fun a => (g a).1) ∧ cs = done.2 ++ l.flatMap fun a => (g a).2 := by
  induction l generalizing done with
  | nil =>
      obtain rfl := Except.ok.inj h
      exact ⟨fun _ => ([], []), by simp, by simp, by simp⟩
  | cons a l ih =>
      rw [List.foldlM_cons] at h
      obtain ⟨middle, hmiddle, h⟩ := except_bind_eq_ok.mp h
      obtain ⟨⟨xs, ys⟩, hf, hmiddle⟩ := except_bind_eq_ok.mp hmiddle
      obtain rfl := Except.ok.inj hmiddle
      obtain ⟨g, hg, hbs, hcs⟩ := ih h
      have value {b : α} (hb : f b = .ok (xs, ys)) : (f b).toOption.getD ([], []) = (xs, ys) := by
        rw [hb]
        rfl
      have later (b : α) (member : b ∈ l) : (f b).toOption.getD ([], []) = g b := by
        rw [hg b member]
        rfl
      refine ⟨fun b => (f b).toOption.getD ([], []), ?_, ?_, ?_⟩
      · intro b member
        obtain rfl | member := List.mem_cons.mp member
        · exact hf.trans (congrArg Except.ok (value hf).symm)
        · exact (hg b member).trans (congrArg Except.ok (later b member).symm)
      · simp only [List.flatMap_cons, value hf]
        rw [hbs, List.append_assoc]
        congr 2
        exact (List.flatMap_congr fun b member => by rw [later b member]).symm
      · simp only [List.flatMap_cons, value hf]
        rw [hcs, List.append_assoc]
        congr 2
        exact (List.flatMap_congr fun b member => by rw [later b member]).symm

/-- The uploads of a recording: of every host-written buffer that is not uploaded already, exactly
the words that a whole use, a copy or a descriptor can read, in order and apart, with the bytes
that the mirror has where the buffer is bound.  Buffers that are skipped are unmapped ones that
are uploaded, and a fresh one is written as a whole. -/
theorem host_uploads {sorting : StartSort} {resources : Resources} {used : List BufferHandle}
    {descriptors : List DescriptorInsertion} {sources : UploadRanges} {ops : List BufferWrite}
    {fresh : List (BufferHandle × DeviceMemory)}
    (h : forRecording sorting resources used descriptors sources = .ok (ops, fresh)) :
    Uploads resources (Reads resources used descriptors sources) ops fresh := by
  obtain ⟨ranges, hranges, h⟩ := except_bind_eq_ok.mp h
  have collected := collect_collected hranges
  rw [snapshot] at h
  obtain ⟨block, hblock, hops, hfresh⟩ := foldlM_append₂ h
  have entry {handle : BufferHandle} (member : handle ∈ ranges.keys) :
      (handle, ranges.getD handle []) ∈ ranges.toList := by
    rw [← Std.TreeMap.map_fst_toList_eq_keys, List.mem_map] at member
    obtain ⟨⟨key, copied⟩, member, rfl⟩ := member
    have hget := Std.TreeMap.mem_toList_iff_getElem?_eq_some.mp member
    rwa [Std.TreeMap.getD_eq_getD_getElem?, hget]
  -- over the entries, or over their keys
  have blocks {γ : Type} (f : List BufferWrite × List (BufferHandle × DeviceMemory) → List γ) :
      ranges.toList.flatMap (fun e => f (block e)) = ranges.keys.flatMap fun handle =>
        if handle ∈ ranges.keys then f (block (handle, ranges.getD handle [])) else [] := by
    rw [← Std.TreeMap.map_fst_toList_eq_keys, List.flatMap_map]
    refine List.flatMap_congr fun ⟨handle, copied⟩ member => ?_
    have hget := Std.TreeMap.mem_toList_iff_getElem?_eq_some.mp member
    rw [if_pos (List.mem_map_of_mem member), Std.TreeMap.getD_eq_getD_getElem?, hget]
    rfl
  refine ⟨ranges.keys, _, _, ?_, hops.trans (blocks Prod.fst), hfresh.trans (blocks Prod.snd),
    fun handle absent => if_neg absent, fun handle => ?_⟩
  · exact Std.TreeMap.ordered_keys.imp fun less => Std.compare_eq_lt.mp less
  · have words := collected.words handle
    have covered := collected.covered handle
    by_cases member : handle ∈ ranges.keys
    · simp only [if_pos member]
      exact snapshotBuffer_ok words covered (hblock _ (entry member))
    · simp only [if_neg member]
      have none : ranges.getD handle [] = [] := by
        rw [Std.TreeMap.getD_eq_fallback]
        rwa [← Std.TreeMap.mem_keys]
      rw [none] at covered
      refine ⟨fun {buffer _ _ _} found _ _ _ _ => snapshot_nil fun i hi reads => ?_,
        fun _ _ _ _ => rfl, fun _ member => by cases member⟩
      exact covered_nil ((covered i).mpr ⟨buffer, found, hi, reads⟩)

/-- Sorting by insertion. -/
def insertionStartSort : StartSort where
  sort := List.insertionSort fun a b => a.start ≤ b.start
  perm := List.perm_insertionSort _
  sorted ranges := by
    have total : Std.Total fun a b : MemoryRange => a.start ≤ b.start :=
      ⟨fun a b => Nat.le_total a.start b.start⟩
    have trans : IsTrans MemoryRange fun a b => a.start ≤ b.start :=
      ⟨fun a b c => Nat.le_trans⟩
    exact List.pairwise_insertionSort _ ranges

/-- A buffer of seven bytes, at the third byte of a mapped allocation. -/
def sevenBytes : Resources where
  buffers handle := if handle = 1 then some ⟨⟨0, 0, 0⟩, 7, some (1, 2)⟩ else none
  memories memory :=
    if memory = 1 then some ⟨some [9, 9, 0, 1, 2, 3, 4, 5, 6, 9], true, true⟩ else none
  uploadedUnmappedBuffers _ := false
  descriptorSets _ := none

/-- Two copies from it. -/
def twoCopies : UploadRanges := pushRange (pushRange ∅ 1 ⟨5, 6⟩) 1 ⟨1, 2⟩

/-- The words of the copies meet, and the last one is cut at the end of the buffer. -/
theorem host_uploads_sevenBytes :
    Uploads sevenBytes (Reads sevenBytes [] [] twoCopies)
      [⟨⟨0, 0, 0⟩, 0, [0, 1, 2, 3, 4, 5, 6, 0]⟩] [] := by
  have run : forRecording insertionStartSort sevenBytes [] [] twoCopies =
      .ok ([⟨⟨0, 0, 0⟩, 0, [0, 1, 2, 3, 4, 5, 6, 0]⟩], []) := by
    decide +kernel
  exact host_uploads run

end Sgfx.Vulkan
