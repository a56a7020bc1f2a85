import Sgfx.Vulkan.HostUploads
import Sgfx.Vulkan.Readbacks

/-!
# What a recording reads of host memory

A recording reads a buffer as a whole, the ranges that it copies from it, and what its descriptors
are bound to; a dynamic offset moves what a descriptor is bound to.  `collect` gathers exactly the
words of these bytes.

## Main Definitions

* `DynamicOffset` — the offsets, in the order of the dynamic bindings
* `Reads`
* `Collected`

## Main Results

* `dynamicOffset_eq_ok`
* `collect_collected`
-/

namespace Sgfx.Vulkan

/-! ## Dynamic offsets -/

/-- The offset of a binding: the dynamic bindings have the offsets, in order, and the others none. -/
def DynamicOffset (set : DescriptorSet) (offsets : List UInt32) (binding : UInt32)
    (dynamic : Nat) : Prop :=
  (∃ offset, (binding, offset) ∈ set.dynamicBindings.zip offsets ∧ dynamic = offset.toNat) ∨
    (binding ∉ set.dynamicBindings ∧ dynamic = 0)

theorem dynamicBindings_sorted (set : DescriptorSet) :
    set.dynamicBindings.Pairwise fun a b => a < b :=
  List.pairwise_map.mpr (set.types_sorted.sublist List.filter_sublist)

/-- Of a row in strict order, as many are less than an element as are before it. -/
theorem getElem?_countBelow {l : List UInt32} (sorted : l.Pairwise fun a b => a < b) {x : UInt32}
    (member : x ∈ l) : l[(l.filter (· < x)).length]? = some x := by
  induction l with
  | nil => cases member
  | cons a l ih =>
      obtain ⟨first, rest⟩ := List.pairwise_cons.mp sorted
      obtain rfl | later := List.mem_cons.mp member
      · have none : l.filter (· < x) = [] := by
          rw [List.filter_eq_nil_iff]
          intro b hb
          simpa using UInt32.le_of_lt (first b hb)
        rw [List.filter_cons_of_neg (by simp), none]
        rfl
      · rw [List.filter_cons_of_pos (by simpa using first x later)]
        exact ih rest later

theorem strict_index {l : List UInt32} (sorted : l.Pairwise fun a b => a < b) {i j : Nat}
    {x : UInt32} (hi : l[i]? = some x) (hj : l[j]? = some x) : i = j := by
  obtain ⟨below, hx⟩ := List.getElem?_eq_some_iff.mp hi
  obtain ⟨below', hx'⟩ := List.getElem?_eq_some_iff.mp hj
  have apart := List.pairwise_iff_getElem.mp sorted
  rcases Nat.lt_trichotomy i j with lt | same | gt
  · have less := apart i j below below' lt
    rw [hx, hx'] at less
    exact absurd less (UInt32.lt_irrefl x)
  · exact same
  · have less := apart j i below' below gt
    rw [hx, hx'] at less
    exact absurd less (UInt32.lt_irrefl x)

theorem dynamicOffset_eq_ok {set : DescriptorSet} {binding : UInt32} {offsets : List UInt32}
    {dynamic : Nat} (same : set.dynamicBindings.length = offsets.length) :
    dynamicOffset set binding offsets = .ok dynamic ↔ DynamicOffset set offsets binding dynamic := by
  have sorted := dynamicBindings_sorted set
  simp only [dynamicOffset, failIf, if_neg (not_not.mpr same), bind, Except.bind]
  by_cases member : binding ∈ set.dynamicBindings
  · have place := getElem?_countBelow sorted member
    generalize (set.dynamicBindings.filter (· < binding)).length = k at place
    have inside : k < offsets.length := same ▸ (List.getElem?_eq_some_iff.mp place).1
    rw [if_pos member, List.getElem?_eq_getElem inside, orPanic_some]
    simp only [pure, Except.pure, Except.ok.injEq]
    constructor
    · rintro rfl
      refine .inl ⟨offsets[k], List.mem_of_getElem? (i := k) ?_, rfl⟩
      rw [List.getElem?_zip_eq_some]
      exact ⟨place, List.getElem?_eq_getElem inside⟩
    · rintro (⟨offset, paired, rfl⟩ | ⟨absent, -⟩)
      · obtain ⟨j, hj⟩ := List.getElem?_of_mem paired
        obtain ⟨hbinding, hoffset⟩ := List.getElem?_zip_eq_some.mp hj
        simp only at hbinding hoffset
        obtain rfl := strict_index sorted place hbinding
        rw [List.getElem?_eq_getElem inside, Option.some.injEq] at hoffset
        rw [hoffset]
      · exact absurd member absent
  · rw [if_neg member]
    simp only [pure, Except.pure, Except.ok.injEq]
    constructor
    · rintro rfl
      exact .inr ⟨member, rfl⟩
    · rintro (⟨offset, paired, -⟩ | ⟨-, rfl⟩)
      · exact absurd (List.of_mem_zip paired).1 member
      · rfl

/-! ## Reads -/

/-- The length of a binding. -/
def boundLength (size offset range : Nat) : Nat := if range = wholeSize then size - offset else range

/-- A byte of a buffer that a recording can read. -/
inductive Reads (resources : Resources) (used : List BufferHandle)
    (descriptors : List DescriptorInsertion) (sources : UploadRanges) (handle : BufferHandle)
    (j : Nat) : Prop where
  | whole {buffer : Buffer} (member : handle ∈ used) (found : resources.buffers handle = some buffer)
      (inside : j < buffer.size.toNat)
  | source {range : MemoryRange} (member : range ∈ sources.getD handle []) (inside : range.Has j)
  | descriptor {insertion : DescriptorInsertion} {set : DescriptorSet} {binding slot : UInt32}
      {offset range : UInt64} {dynamic : Nat} {buffer : Buffer} (member : insertion ∈ descriptors)
      (found : resources.descriptorSets insertion.set = some set)
      (bound : (binding, .buffer handle offset range) ∈ set.bindings)
      (mapped : set.bindingMap binding = some slot) (listed : slot ∈ insertion.entries)
      (moved : DynamicOffset set insertion.dynamicOffsets binding dynamic)
      (sized : resources.buffers handle = some buffer) (start : offset.toNat + dynamic ≤ j)
      (stop : j < offset.toNat + dynamic +
        boundLength buffer.size.toNat offset.toNat range.toNat)

/-! ## Words -/

/-- A range of whole words, up to the end of the buffer. -/
structure WordSpan (size : Nat) (range : MemoryRange) : Prop where
  ordered : range.start ≤ range.stop
  inside : range.stop ≤ size
  start_dvd : 4 ∣ range.start
  stop_dvd : range.stop ≠ size → 4 ∣ range.stop

/-- The words of a range that is not empty. -/
theorem wordRange_eq_ok {range words : MemoryRange} {size : Nat} (h : wordRange range size = .ok words)
    (positive : range.start < range.stop) (inside : range.stop ≤ size) :
    WordSpan size words ∧
      ∀ i, words.Has i ↔ i < size ∧ ∃ j, j / 4 = i / 4 ∧ range.Has j := by
  simp only [wordRange, checkedNextMultipleOf4] at h
  split at h
  · obtain rfl := Except.ok.inj h
    refine ⟨⟨?_, ?_, ?_, ?_⟩, fun i => ?_⟩
    · simp only
      omega
    · exact Nat.min_le_right ..
    · exact Nat.dvd_mul_left ..
    · simp only
      omega
    · simp only [Span.Has]
      constructor
      · rintro ⟨hstart, hstop⟩
        refine ⟨by omega, max range.start (i / 4 * 4), ?_, by omega, ?_⟩ <;> omega
      · rintro ⟨hi, j, hword, hstart, hstop⟩
        omega
  · cases h

/-- What was gathered: words that are inside their buffers, and exactly those of these bytes. -/
structure Collected (resources : Resources) (ranges : UploadRanges)
    (reads : BufferHandle → Nat → Prop) : Prop where
  words : ∀ handle, ∀ range ∈ ranges.getD handle [], ∃ buffer,
    resources.buffers handle = some buffer ∧ WordSpan buffer.size.toNat range
  covered : ∀ handle i, Covered (ranges.getD handle []) i ↔ ∃ buffer,
    resources.buffers handle = some buffer ∧ i < buffer.size.toNat ∧
      ∃ j, j / 4 = i / 4 ∧ reads handle j

section Collect

variable {resources : Resources} {ranges ranges' : UploadRanges}
  {reads reads' : BufferHandle → Nat → Prop} {handle : BufferHandle} {range words : MemoryRange}
  {buffer : Buffer}

theorem Collected.congr (collected : Collected resources ranges reads)
    (same : ∀ handle j, reads handle j ↔ reads' handle j) : Collected resources ranges reads' := by
  have : reads = reads' := funext fun handle => funext fun j => propext (same handle j)
  exact this ▸ collected

theorem collected_empty : Collected resources ∅ fun _ _ => False where
  words handle range member := by simp at member
  covered handle i := by simp

theorem getD_pushRange {other : BufferHandle} : (pushRange ranges handle range).getD other [] =
    if handle = other then ranges.getD handle [] ++ [range] else ranges.getD other [] := by
  rw [pushRange, Readbacks.getD_alter_some]
  simp only [Std.TreeMap.getD_eq_getD_getElem?]

/-- A range more. -/
theorem Collected.push (collected : Collected resources ranges reads)
    (found : resources.buffers handle = some buffer) (positive : range.start < range.stop)
    (inside : range.stop ≤ buffer.size.toNat)
    (h : wordRange range buffer.size.toNat = .ok words) :
    Collected resources (pushRange ranges handle words)
      fun other j => reads other j ∨ (handle = other ∧ range.Has j) := by
  obtain ⟨hwords, hhas⟩ := wordRange_eq_ok h positive inside
  constructor
  · intro other r member
    rw [getD_pushRange] at member
    split at member
    · rename_i same
      subst same
      obtain old | new := List.mem_append.mp member
      · exact collected.words handle r old
      · exact ⟨buffer, found, List.mem_singleton.mp new ▸ hwords⟩
    · exact collected.words other r member
  · intro other i
    rw [getD_pushRange]
    split
    · rename_i same
      subst same
      rw [covered_append, covered_singleton, collected.covered handle i, hhas i]
      simp only [found, Option.some.injEq, exists_eq_left', true_and, and_or_left, exists_or]
    · rename_i different
      rw [collected.covered other i]
      simp only [different, false_and, or_false]

/-- After some buffers that are used as a whole, these have one range, and the others none. -/
def Wholes (resources : Resources) (used : List BufferHandle) (ranges : UploadRanges) : Prop :=
  ∀ handle, (handle ∈ used → ∃ buffer, resources.buffers handle = some buffer ∧
      ranges[handle]? = some [⟨0, buffer.size.toNat⟩]) ∧
    (handle ∉ used → ranges[handle]? = none)

/-- One turn of the first loop. -/
theorem Wholes.step {done : List BufferHandle} (wholes : Wholes resources done ranges)
    (h : collectUsed resources ranges handle = .ok ranges') :
    Wholes resources (done ++ [handle]) ranges' := by
  rw [collectUsed, except_bind_eq_ok] at h
  obtain ⟨buffer, hbuffer, h⟩ := h
  rw [okOr_eq_ok] at hbuffer
  obtain rfl := Except.ok.inj h
  intro other
  obtain ⟨before, fresh⟩ := wholes other
  simp only [Std.TreeMap.getElem?_alter, Std.LawfulEqCmp.compare_eq_iff_eq]
  constructor
  · intro member
    by_cases same : handle = other
    · subst same
      refine ⟨buffer, hbuffer, ?_⟩
      rw [if_pos rfl]
      by_cases old : handle ∈ done
      · obtain ⟨buffer', hbuffer', hget⟩ := before old
        rw [hbuffer, Option.some.injEq] at hbuffer'
        rw [hget, hbuffer']
        rfl
      · rw [fresh old]
        rfl
    · rw [if_neg same]
      obtain old | new := List.mem_append.mp member
      · exact before old
      · exact absurd (List.mem_singleton.mp new).symm same
  · intro absent
    rw [List.mem_append, List.mem_singleton, not_or] at absent
    rw [if_neg fun same => absent.2 same.symm]
    exact fresh absent.1

/-- The ranges of the buffers that are used as a whole. -/
theorem Wholes.collected {used : List BufferHandle} (wholes : Wholes resources used ranges) :
    Collected resources ranges fun handle j => handle ∈ used ∧
      ∃ buffer, resources.buffers handle = some buffer ∧ j < buffer.size.toNat := by
  have cases (handle : BufferHandle) : (∃ buffer, resources.buffers handle = some buffer ∧
      handle ∈ used ∧ ranges.getD handle [] = [⟨0, buffer.size.toNat⟩]) ∨
      (handle ∉ used ∧ ranges.getD handle [] = []) := by
    rw [Std.TreeMap.getD_eq_getD_getElem?]
    by_cases member : handle ∈ used
    · obtain ⟨buffer, found, hget⟩ := (wholes handle).1 member
      exact .inl ⟨buffer, found, member, by rw [hget]; rfl⟩
    · exact .inr ⟨member, by rw [(wholes handle).2 member]; rfl⟩
  constructor
  · intro handle range member
    obtain ⟨buffer, found, -, hget⟩ | ⟨-, hget⟩ := cases handle
    · rw [hget, List.mem_singleton] at member
      subst member
      exact ⟨buffer, found, Nat.zero_le _, Nat.le_refl _, Nat.dvd_zero 4, fun h => absurd rfl h⟩
    · rw [hget] at member
      cases member
  · intro handle i
    obtain ⟨buffer, found, member, hget⟩ | ⟨absent, hget⟩ := cases handle
    · rw [hget, covered_singleton]
      simp only [found, Option.some.injEq, exists_eq_left', member, true_and, Span.Has,
        Nat.zero_le]
      exact ⟨fun inside => ⟨inside, i, rfl, inside⟩, fun h => h.1⟩
    · rw [hget]
      simp [absent]

/-- One turn of the loop over the ranges that are copied from a buffer. -/
theorem Collected.source (collected : Collected resources ranges reads)
    (found : resources.buffers handle = some buffer)
    (h : collectSource handle buffer.size.toNat ranges range = .ok ranges') :
    Collected resources ranges' fun other j => reads other j ∨ (handle = other ∧ range.Has j) := by
  rw [collectSource, except_bind_eq_ok] at h
  obtain ⟨_, checks, h⟩ := h
  rw [failIf_eq_ok, not_or] at checks
  split at h
  · rename_i empty
    obtain rfl := Except.ok.inj h
    refine collected.congr fun other j => (or_iff_left fun new => ?_).symm
    have := new.2.1
    have := new.2.2
    omega
  · rename_i nonempty
    obtain ⟨words, hwords, h⟩ := except_bind_eq_ok.mp h
    obtain rfl := Except.ok.inj h
    exact collected.push found (by omega) (by omega) hwords

/-- The range that a descriptor is bound to. -/
theorem descriptorRange_eq_ok {size offset length dynamic : Nat}
    (h : descriptorRange size offset length dynamic = .ok range) :
    range = ⟨offset + dynamic, offset + dynamic + boundLength size offset length⟩ ∧
      range.start < range.stop ∧ range.stop ≤ size := by
  obtain ⟨bound, hbound, h⟩ := except_bind_eq_ok.mp h
  obtain ⟨start, hstart, h⟩ := except_bind_eq_ok.mp h
  obtain ⟨stop, hstop, h⟩ := except_bind_eq_ok.mp h
  obtain ⟨_, inside, h⟩ := except_bind_eq_ok.mp h
  obtain ⟨_, positive, h⟩ := except_bind_eq_ok.mp h
  rw [okOr_eq_ok] at hstart hstop
  rw [failIf_eq_ok] at inside positive
  obtain rfl := Except.ok.inj h
  obtain rfl := checkedAddUsize_eq_some hstart
  obtain rfl := checkedAddUsize_eq_some hstop
  have same : bound = boundLength size offset length := by
    unfold boundLength
    split at hbound
    · rename_i whole
      obtain ⟨_, -, hbound⟩ := except_bind_eq_ok.mp hbound
      rw [okOr_eq_ok, checkedSub] at hbound
      split at hbound
      · rw [if_pos whole]
        exact (Option.some.inj hbound).symm
      · cases hbound
    · rename_i part
      rw [if_neg part]
      exact (Except.ok.inj hbound).symm
  subst same
  exact ⟨rfl, Nat.lt_add_of_pos_right (Nat.pos_of_ne_zero positive), Nat.le_of_not_lt inside⟩

/-- What a binding of a set reads. -/
def ReadsBinding (resources : Resources) (set : DescriptorSet) (insertion : DescriptorInsertion)
    (entry : UInt32 × DescriptorBinding) (handle : BufferHandle) (j : Nat) : Prop :=
  ∃ offset range slot dynamic buffer, entry.2 = .buffer handle offset range ∧
    set.bindingMap entry.1 = some slot ∧ slot ∈ insertion.entries ∧
    DynamicOffset set insertion.dynamicOffsets entry.1 dynamic ∧
    resources.buffers handle = some buffer ∧ offset.toNat + dynamic ≤ j ∧
    j < offset.toNat + dynamic + boundLength buffer.size.toNat offset.toNat range.toNat

/-- One turn of the loop over the bindings of a set. -/
theorem Collected.binding {set : DescriptorSet} {insertion : DescriptorInsertion}
    {entry : UInt32 × DescriptorBinding} (collected : Collected resources ranges reads)
    (same : set.dynamicBindings.length = insertion.dynamicOffsets.length)
    (h : collectBinding resources set insertion ranges entry = .ok ranges') :
    Collected resources ranges' fun other j => reads other j ∨
      ReadsBinding resources set insertion entry other j := by
  obtain ⟨binding, bound⟩ := entry
  cases bound with
  | other =>
      obtain rfl := Except.ok.inj h
      refine collected.congr fun other j => (or_iff_left ?_).symm
      rintro ⟨_, _, _, _, _, absurd, _⟩
      cases absurd
  | buffer target offset length =>
      obtain ⟨slot, hslot, h⟩ := except_bind_eq_ok.mp h
      rw [okOr_eq_ok] at hslot
      split at h
      · rename_i unused
        obtain rfl := Except.ok.inj h
        refine collected.congr fun other j => (or_iff_left ?_).symm
        rintro ⟨_, _, slot', _, _, -, hslot', listed, _⟩
        rw [hslot, Option.some.injEq] at hslot'
        exact unused (hslot' ▸ listed)
      · rename_i listed
        obtain ⟨dynamic, hdynamic, h⟩ := except_bind_eq_ok.mp h
        obtain ⟨buffer, found, h⟩ := except_bind_eq_ok.mp h
        obtain ⟨range, hrange, h⟩ := except_bind_eq_ok.mp h
        obtain ⟨words, hwords, h⟩ := except_bind_eq_ok.mp h
        rw [okOr_eq_ok] at found
        obtain rfl := Except.ok.inj h
        obtain ⟨hrange, positive, inside⟩ := descriptorRange_eq_ok hrange
        refine (collected.push found positive inside hwords).congr fun other j =>
          or_congr_right ?_
        rw [hrange]
        constructor
        · rintro ⟨rfl, hstart, hstop⟩
          exact ⟨offset, length, slot, dynamic, buffer, rfl, hslot, not_not.mp listed,
            (dynamicOffset_eq_ok same).mp hdynamic, found, hstart, hstop⟩
        · rintro ⟨offset', length', _, dynamic', buffer', hentry, -, -, hdynamic', found', hstart,
            hstop⟩
          cases hentry
          rw [found, Option.some.injEq] at found'
          have := (dynamicOffset_eq_ok same).mpr hdynamic'
          rw [hdynamic, Except.ok.injEq] at this
          subst found' this
          exact ⟨rfl, hstart, hstop⟩

/-! ## Loops -/

/-- A loop that gathers what each of its elements reads. -/
theorem Collected.loop {α : Type} {l : List α} {f : UploadRanges → α → Except Stop UploadRanges}
    (collected : Collected resources ranges reads) (each : α → BufferHandle → Nat → Prop)
    (turn : ∀ a ∈ l, ∀ ranges ranges' reads, Collected resources ranges reads →
      f ranges a = .ok ranges' →
      Collected resources ranges' fun handle j => reads handle j ∨ each a handle j)
    (h : l.foldlM f ranges = .ok ranges') :
    Collected resources ranges' fun handle j => reads handle j ∨ ∃ a ∈ l, each a handle j := by
  induction l generalizing ranges reads with
  | nil =>
      obtain rfl := Except.ok.inj h
      exact collected.congr fun handle j => by simp
  | cons a l ih =>
      rw [List.foldlM_cons] at h
      obtain ⟨middle, ha, h⟩ := except_bind_eq_ok.mp h
      refine (ih (turn a List.mem_cons_self _ _ _ collected ha)
        (fun b hb => turn b (List.mem_cons_of_mem _ hb)) h).congr fun handle j => ?_
      simp only [List.mem_cons, or_and_right, exists_or, exists_eq_left, or_assoc]

/-- What is collected is exactly what the recording reads. -/
theorem collect_collected {used : List BufferHandle} {descriptors : List DescriptorInsertion}
    {sources : UploadRanges} (h : collect resources used descriptors sources = .ok ranges) :
    Collected resources ranges (Reads resources used descriptors sources) := by
  obtain ⟨wholes, hwholes, h⟩ := except_bind_eq_ok.mp h
  obtain ⟨copies, hcopies, h⟩ := except_bind_eq_ok.mp h
  have first : Wholes resources used wholes :=
    foldlM_ok (Wholes resources) (fun handle => ⟨fun member => (by cases member), fun _ => by simp⟩)
      (fun done handle before after wholes run => wholes.step run) hwholes
  have second := first.collected.loop
    (fun entry handle j => entry.1 = handle ∧ ∃ range ∈ entry.2, range.Has j)
    (fun entry _ before after reads collected run => by
      obtain ⟨buffer, found, run⟩ := except_bind_eq_ok.mp run
      rw [okOr_eq_ok] at found
      refine (collected.loop (fun range handle j => entry.1 = handle ∧ range.Has j)
        (fun range _ _ _ _ collected run => collected.source found run) run).congr fun handle j => ?_
      simp only [exists_and_left, and_left_comm]) hcopies
  have third := second.loop
    (fun insertion handle j => ∃ set, resources.descriptorSets insertion.set = some set ∧
      ∃ entry ∈ set.bindings, ReadsBinding resources set insertion entry handle j)
    (fun insertion _ before after reads collected run => by
      obtain ⟨set, found, run⟩ := except_bind_eq_ok.mp run
      obtain ⟨_, same, run⟩ := except_bind_eq_ok.mp run
      rw [okOr_eq_ok] at found
      rw [failIf_eq_ok, not_not] at same
      refine (collected.loop (fun entry => ReadsBinding resources set insertion entry)
        (fun entry _ _ _ _ collected run => collected.binding same run) run).congr fun handle j => ?_
      simp only [found, Option.some.injEq, exists_eq_left']) h
  refine third.congr fun handle j => ?_
  constructor
  · rintro ((⟨member, buffer, found, inside⟩ | ⟨⟨other, copied⟩, member, rfl, range, hrange, inside⟩) |
      ⟨insertion, member, set, found, ⟨binding, bound⟩, hentry, offset, range, slot, dynamic, buffer,
        rfl, mapped, listed, moved, sized, start, stop⟩)
    · exact .whole member found inside
    · rw [Std.TreeMap.mem_toList_iff_getElem?_eq_some] at member
      refine .source ?_ inside
      rw [Std.TreeMap.getD_eq_getD_getElem?, member]
      exact hrange
    · exact .descriptor member found hentry mapped listed moved sized start stop
  · rintro (⟨member, found, inside⟩ | ⟨hrange, inside⟩ |
      ⟨member, found, bound, mapped, listed, moved, sized, start, stop⟩)
    · exact .inl (.inl ⟨member, _, found, inside⟩)
    · rw [Std.TreeMap.getD_eq_getD_getElem?] at hrange
      cases hget : sources[handle]? with
      | none => simp [hget] at hrange
      | some copied =>
          rw [hget] at hrange
          exact .inl (.inr ⟨(handle, copied),
            Std.TreeMap.mem_toList_iff_getElem?_eq_some.mpr hget, rfl, _, hrange, inside⟩)
    · exact .inr ⟨_, member, _, found, _, bound, _, _, _, _, _, rfl, mapped, listed, moved, sized,
        start, stop⟩

end Collect

end Sgfx.Vulkan
