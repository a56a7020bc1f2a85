import Sgfx.Vulkan.IndirectDraws

/-!
# What indirect draws expand to

The records of an indirect draw are what its bytes say at every stride.  `expand` answers their
draws when the bytes are there and every record is admissible, and an error otherwise; it neither
reads out of bounds nor overflows.

## Main Definitions

* `DrawRecord`, `recordAt` — a record, as the bytes have it
* `DrawRecord.Admissible`, `Expandable`
* `recordDraws`, `indirectDraws` — what a record and all of them stand for

## Main Results

* `expand_ok`, `expand_error`
* `read_of_readHost` — the mirror gives what the backend gives
* `indirect_draws`
-/

namespace Sgfx.Vulkan

/-! ## Records -/

/-- The word at a place. -/
def wordOf (bytes : List UInt8) (place : Nat) : UInt32 :=
  .ofNat (Bytes.fromLeBytes (slice bytes place (place + 4)))

/-- A record. -/
structure DrawRecord where
  vertices : UInt32
  instances : UInt32
  first : UInt32
  baseVertex : UInt32
  firstInstance : UInt32
deriving DecidableEq, Repr

/-- The record at `index * stride`. -/
def recordAt (draw : IndirectDraw) (bytes : List UInt8) (index : Nat) : DrawRecord where
  vertices := wordOf bytes (index * draw.stride.toNat)
  instances := wordOf bytes (index * draw.stride.toNat + 4)
  first := wordOf bytes (index * draw.stride.toNat + 8)
  baseVertex := wordOf bytes (index * draw.stride.toNat + 12)
  firstInstance := wordOf bytes (index * draw.stride.toNat + if draw.indexed then 16 else 12)

/-- The instances do not overflow, nor do the vertices of a draw without indices, and the first
instance is allowed. -/
structure DrawRecord.Admissible (draw : IndirectDraw) (record : DrawRecord) : Prop where
  instances : record.instances.toNat + record.firstInstance.toNat < 2 ^ 32
  firstInstance : draw.firstInstanceEnabled = false → record.firstInstance = 0
  vertices : draw.indexed = false → record.vertices.toNat + record.first.toNat < 2 ^ 32

/-- The bytes of the records: the last one needs no room behind it. -/
def recordBytes (draw : IndirectDraw) (count : UInt32) : Nat :=
  if count = 0 then 0 else (count.toNat - 1) * draw.stride.toNat + (recordSize draw.indexed).toNat

/-- What `expand` asks for. -/
structure Expandable (draw : IndirectDraw) (count : UInt32) (bytes : List UInt8) : Prop where
  count_le : count ≤ draw.count
  length : recordBytes draw count ≤ bytes.length
  records : ∀ index < count.toNat, (recordAt draw bytes index).Admissible draw

/-- The draw of a record. -/
def DrawRecord.draw (record : DrawRecord) (indexed : Bool) : OwnedCommand :=
  if indexed then
    .drawIndexedInstanced record.vertices record.first record.baseVertex.toInt32 record.instances
      record.firstInstance
  else .drawInstanced record.vertices record.first record.instances record.firstInstance

/-- The commands of a record: none when it draws nothing. -/
def recordDraws (draw : IndirectDraw) (bytes : List UInt8) (drawParameters : Bool) (index : Nat) :
    List OwnedCommand :=
  let record := recordAt draw bytes index
  if record.vertices = 0 ∨ record.instances = 0 then []
  else (if drawParameters then [.setDrawIndex (.ofNat index)] else []) ++
    [record.draw draw.indexed]

/-- The commands of all records, in order. -/
def indirectDraws (draw : IndirectDraw) (count : UInt32) (bytes : List UInt8)
    (drawParameters : Bool) : List OwnedCommand :=
  (List.range count.toNat).flatMap (recordDraws draw bytes drawParameters)

/-! ## Collecting in a loop -/

section Collect

variable {ε α β : Type} {f : α → Except ε (List β)} {g : α → List β} {l : List α}

theorem foldlM_append_ok (h : ∀ a ∈ l, f a = .ok (g a)) (done : List β) :
    l.foldlM (fun done a => do return done ++ (← f a)) done = .ok (done ++ l.flatMap g) := by
  induction l generalizing done with
  | nil => simp [pure, Except.pure]
  | cons a l ih =>
      have here := h a List.mem_cons_self
      have rest := ih (fun b hb => h b (List.mem_cons_of_mem _ hb)) (done ++ g a)
      rw [List.flatMap_cons, ← List.append_assoc, ← rest, List.foldlM_cons, here]
      rfl

/-- When all failures are the same, one of them is enough. -/
theorem foldlM_append_error {e : ε} (h : ∀ a ∈ l, f a = .ok (g a) ∨ f a = .error e)
    (fails : ∃ a ∈ l, f a = .error e) (done : List β) :
    l.foldlM (fun done a => do return done ++ (← f a)) done = .error e := by
  induction l generalizing done with
  | nil =>
      obtain ⟨_, member, _⟩ := fails
      cases member
  | cons a l ih =>
      rw [List.foldlM_cons]
      obtain here | here := h a List.mem_cons_self
      · obtain ⟨b, member, later⟩ := fails
        have hb : b ∈ l := by
          obtain rfl | hb := List.mem_cons.mp member
          · rw [here] at later
            cases later
          · exact hb
        rw [here]
        exact ih (fun b hb => h b (List.mem_cons_of_mem _ hb)) ⟨b, hb, later⟩ _
      · rw [here]
        rfl

end Collect

/-! ## One record -/

section Record

variable {draw : IndirectDraw} {count : UInt32} {bytes : List UInt8} {drawParameters : Bool}
  {index base offset : Nat}

theorem word_eq (inside : base + offset + 4 ≤ bytes.length) (fits : base + offset + 4 < 2 ^ 64) :
    word bytes base offset = .ok (wordOf bytes (base + offset)) := by
  have hstart : checkedAddUsize base offset = some (base + offset) := if_pos (by omega)
  have hstop : checkedAddUsize (base + offset) 4 = some (base + offset + 4) := if_pos fits
  have hpart : indexRange bytes (base + offset) (base + offset + 4) =
      some (slice bytes (base + offset) (base + offset + 4)) :=
    indexRange_some (Nat.le_add_right ..) inside
  simp only [word, hstart, orPanic_some, bind, Except.bind, hstop, hpart]
  rfl

theorem recordSize_toNat (indexed : Bool) :
    (recordSize indexed).toNat = if indexed then 20 else 16 := by
  cases indexed <;> rfl

theorem recordSize_le (indexed : Bool) : (recordSize indexed).toNat ≤ 20 := by
  cases indexed <;> decide

/-- Strides stay well below the numbers of the machine. -/
theorem strides_lt (h : index < 2 ^ 32 - 1) : index * draw.stride.toNat < 2 ^ 64 - 20 := by
  have hstride := draw.stride.toNat_lt
  have := Nat.mul_le_mul (Nat.le_sub_one_of_lt h) (Nat.le_sub_one_of_lt hstride)
  omega

/-- The length of the records is a number of the machine. -/
theorem byteLen_eq (draw : IndirectDraw) (count : UInt32) :
    ∃ length, draw.byteLen count = some length ∧ length.toNat = recordBytes draw count := by
  unfold IndirectDraw.byteLen recordBytes
  by_cases zero : count = 0
  · exact ⟨0, by rw [if_pos zero], by rw [if_pos zero]; rfl⟩
  · have hcount : (count - 1).toUInt64.toNat = count.toNat - 1 := by
      rw [UInt32.toNat_toUInt64, UInt32.toNat_sub_of_le]
      · rfl
      · exact Nat.one_le_iff_ne_zero.mpr fun h => zero (UInt32.toNat_inj.mp h)
    have hstrides : (count.toNat - 1) * draw.stride.toNat < 2 ^ 64 - 20 :=
      strides_lt (by have := count.toNat_lt; omega)
    have hmul : checkedMul64 (count - 1).toUInt64 draw.stride.toUInt64 =
        some ((count - 1).toUInt64 * draw.stride.toUInt64) := by
      rw [checkedMul64, hcount, UInt32.toNat_toUInt64, if_pos (by omega)]
    have hproduct := (checkedMul64_eq_some hmul).2
    rw [hcount, UInt32.toNat_toUInt64] at hproduct
    have hadd : checkedAdd64 ((count - 1).toUInt64 * draw.stride.toUInt64)
        (recordSize draw.indexed) = some ((count - 1).toUInt64 * draw.stride.toUInt64 +
          recordSize draw.indexed) := by
      rw [checkedAdd64, hproduct, if_pos]
      have := recordSize_le draw.indexed
      omega
    refine ⟨(count - 1).toUInt64 * draw.stride.toUInt64 + recordSize draw.indexed, ?_, ?_⟩
    · rw [if_neg zero, hmul]
      exact hadd
    · rw [if_neg zero, checkedAdd64_toNat hadd, hproduct]

theorem checkedAdd32_isNone {a b : UInt32} :
    (checkedAdd32 a b).isNone = true ↔ ¬ a.toNat + b.toNat < 2 ^ 32 := by
  unfold checkedAdd32
  split
  · rename_i fits
    exact ⟨fun none => (by cases none), fun overflow => absurd fits overflow⟩
  · rename_i overflow
    exact ⟨fun _ => overflow, fun _ => rfl⟩

/-- The checks of a record. -/
theorem refused_iff {record : DrawRecord} :
    (checkedAdd32 record.instances record.firstInstance).isNone = true ∨
        (draw.firstInstanceEnabled = false ∧ record.firstInstance ≠ 0) ∨
        (draw.indexed = false ∧ (checkedAdd32 record.vertices record.first).isNone = true) ↔
      ¬ record.Admissible draw := by
  rw [checkedAdd32_isNone, checkedAdd32_isNone]
  constructor
  · rintro (overflow | ⟨disabled, nonzero⟩ | ⟨plain, overflow⟩) ok
    · exact overflow ok.instances
    · exact nonzero (ok.firstInstance disabled)
    · exact overflow (ok.vertices plain)
  · intro bad
    by_contra passed
    simp only [not_or, Decidable.not_not, not_and] at passed
    exact bad ⟨passed.1, passed.2.1, passed.2.2⟩

/-- A record that is there is decoded, and refused when it is not admissible. -/
theorem expandRecord_eq (hindex : index < 2 ^ 32 - 1)
    (inside : index * draw.stride.toNat + (recordSize draw.indexed).toNat ≤ bytes.length) :
    ((recordAt draw bytes index).Admissible draw →
        expandRecord draw bytes drawParameters index =
          .ok (recordDraws draw bytes drawParameters index)) ∧
      (¬ (recordAt draw bytes index).Admissible draw →
        expandRecord draw bytes drawParameters index = .error invalid) := by
  have hstrides : index * draw.stride.toNat < 2 ^ 64 - 20 := strides_lt hindex
  have hsize : 16 ≤ (recordSize draw.indexed).toNat ∧
      (draw.indexed = true → (recordSize draw.indexed).toNat = 20) := by
    cases draw.indexed <;> decide
  have hbase : checkedMul64 (.ofNat index) draw.stride.toUInt64 =
      some (.ofNat index * draw.stride.toUInt64) := by
    rw [checkedMul64, UInt64.toNat_ofNat_of_lt' (by change index < 2 ^ 64; omega), UInt32.toNat_toUInt64, if_pos (by omega)]
  have hplace : (.ofNat index * draw.stride.toUInt64 : UInt64).toNat =
      index * draw.stride.toNat := by
    rw [(checkedMul64_eq_some hbase).2, UInt64.toNat_ofNat_of_lt' (by change index < 2 ^ 64; omega), UInt32.toNat_toUInt64]
  have hword (offset : Nat) (fits : offset + 4 ≤ (recordSize draw.indexed).toNat) :
      word bytes (.ofNat index * draw.stride.toUInt64 : UInt64).toNat offset =
        .ok (wordOf bytes (index * draw.stride.toNat + offset)) := by
    rw [hplace]
    have := recordSize_le draw.indexed
    exact word_eq (by omega) (by omega)
  have hfirst : word bytes (.ofNat index * draw.stride.toUInt64 : UInt64).toNat
      (if draw.indexed then 16 else 12) = .ok (recordAt draw bytes index).firstInstance := by
    refine hword _ ?_
    split
    · rw [hsize.2 (by assumption)]
    · exact hsize.1
  have hvertices : word bytes (.ofNat index * draw.stride.toUInt64 : UInt64).toNat 0 =
      .ok (recordAt draw bytes index).vertices := hword 0 (by omega)
  have hinstances : word bytes (.ofNat index * draw.stride.toUInt64 : UInt64).toNat 4 =
      .ok (recordAt draw bytes index).instances := hword 4 (by omega)
  have hthird : word bytes (.ofNat index * draw.stride.toUInt64 : UInt64).toNat 8 =
      .ok (recordAt draw bytes index).first := hword 8 (by omega)
  have hfourth : word bytes (.ofNat index * draw.stride.toUInt64 : UInt64).toNat 12 =
      .ok (recordAt draw bytes index).baseVertex := hword 12 (by omega)
  simp only [expandRecord, hbase, orPanic_some, bind, Except.bind, hvertices, hinstances, hthird,
    hfirst, hfourth]
  constructor
  · intro ok
    rw [failIf, if_neg fun bad => refused_iff.mp bad ok]
    unfold recordDraws DrawRecord.draw
    simp only
    split
    · rfl
    · cases draw.indexed <;> rfl
  · intro bad
    rw [failIf, if_pos (refused_iff.mpr bad)]

/-- The records of an accepted draw do not overlap. -/
theorem recordDraw_apart {features : IndirectFeatures} {buffer : BufferHandle} {offset : UInt64}
    {stride : UInt32} {indexed : Bool} {counter : Option (BufferHandle × UInt64)} {next : Nat}
    (accepted : recordDraw features buffer offset count stride indexed counter = .ok draw)
    (hindex : index < next) (hnext : next < count.toNat) :
    index * draw.stride.toNat + (recordSize draw.indexed).toNat ≤ next * draw.stride.toNat := by
  simp only [recordDraw, bind, Except.bind] at accepted
  split at accepted
  · cases accepted
  split at accepted
  · cases accepted
  rename_i checks
  cases accepted
  rw [failIf_eq_ok] at checks
  simp only [not_or, not_and] at checks
  have many : ¬ count ≤ 1 := fun few => by
    have : count.toNat ≤ 1 := few
    omega
  have wide : (recordSize indexed).toNat ≤ stride.toNat := by
    have := (checks.2.2.1 (UInt32.not_le.mp many)).1
    cases indexed <;> exact UInt32.not_lt.mp this
  have skipped := Nat.mul_le_mul_right stride.toNat (Nat.succ_le_of_lt hindex)
  rw [Nat.succ_mul] at skipped
  simp only [if_neg many]
  omega

end Record

/-! ## All records -/

section Expand

variable {draw : IndirectDraw} {count : UInt32} {bytes : List UInt8} {drawParameters : Bool}
  {index : Nat}

/-- The records before the last one are inside the bytes. -/
theorem record_inside (length : recordBytes draw count ≤ bytes.length)
    (hindex : index < count.toNat) :
    index < 2 ^ 32 - 1 ∧
      index * draw.stride.toNat + (recordSize draw.indexed).toNat ≤ bytes.length := by
  have hcount := count.toNat_lt
  have nonzero : count ≠ 0 := by
    rintro rfl
    exact absurd hindex (Nat.not_lt_zero _)
  rw [recordBytes, if_neg nonzero] at length
  have := Nat.mul_le_mul_right draw.stride.toNat (Nat.le_sub_one_of_lt hindex)
  omega

/-- What is expandable is expanded to the draws of its records. -/
theorem expand_ok (ok : Expandable draw count bytes) :
    expand draw count bytes drawParameters =
      .ok (indirectDraws draw count bytes drawParameters) := by
  obtain ⟨length, hlength, hbytes⟩ := byteLen_eq draw count
  have checks : ¬ (draw.count < count ∨ bytes.length < length.toNat) := by
    rw [hbytes]
    exact not_or.mpr ⟨UInt32.not_lt.mpr ok.count_le, Nat.not_lt_of_le ok.length⟩
  simp only [expand, hlength, okOr, bind, Except.bind, failIf, if_neg checks]
  refine (foldlM_append_ok (fun index member => ?_) []).trans (by rw [List.nil_append]; rfl)
  have hindex := List.mem_range.mp member
  obtain ⟨hlt, inside⟩ := record_inside ok.length hindex
  exact (expandRecord_eq hlt inside).1 (ok.records index hindex)

/-- What is not is refused. -/
theorem expand_error (bad : ¬ Expandable draw count bytes) :
    expand draw count bytes drawParameters = .error invalid := by
  obtain ⟨length, hlength, hbytes⟩ := byteLen_eq draw count
  by_cases checks : draw.count < count ∨ bytes.length < length.toNat
  · simp only [expand, hlength, okOr, bind, Except.bind, failIf, if_pos checks]
  · simp only [expand, hlength, okOr, bind, Except.bind, failIf, if_neg checks]
    rw [hbytes, not_or] at checks
    have room : recordBytes draw count ≤ bytes.length := Nat.le_of_not_lt checks.2
    have refused : ∃ index < count.toNat, ¬ (recordAt draw bytes index).Admissible draw := by
      by_contra all
      push Not at all
      exact bad ⟨UInt32.not_lt.mp checks.1, room, all⟩
    obtain ⟨index, hindex, refused⟩ := refused
    refine foldlM_append_error (g := recordDraws draw bytes drawParameters) (fun i member => ?_)
      ⟨index, List.mem_range.mpr hindex, ?_⟩ []
    · obtain ⟨hlt, inside⟩ := record_inside room (List.mem_range.mp member)
      by_cases ok : (recordAt draw bytes i).Admissible draw
      · exact .inl ((expandRecord_eq hlt inside).1 ok)
      · exact .inr ((expandRecord_eq hlt inside).2 ok)
    · obtain ⟨hlt, inside⟩ := record_inside room hindex
      exact (expandRecord_eq hlt inside).2 refused

/-- The first record draws nothing; the second one keeps its index and starts at the stride. -/
example : expand ⟨1, 0, 2, 20, false, none, false⟩ 2
    (List.replicate 20 0 ++ [3, 0, 0, 0, 1, 0, 0, 0] ++ List.replicate 8 0) true =
      .ok [.setDrawIndex 1, .drawInstanced 3 0 1 0] := by
  decide +kernel

end Expand

/-! ## The mirror and the backend -/

section Mirror

variable {resources recorded : Resources} {writes : Readbacks}
  {readBuffer : BufferId → UInt64 → UInt64 → Except VkResult (List UInt8)} {request : IndirectRead}
  {draw : IndirectDraw} {drawParameters : Bool} {commands : List OwnedCommand}

/-- The backend reads of a part of a buffer what the mirror has. -/
structure ReadsMirror (resources : Resources)
    (readBuffer : BufferId → UInt64 → UInt64 → Except VkResult (List UInt8))
    (handle : BufferHandle) (start length : UInt64) : Prop where
  read : ∀ {data memory offset bytes}, resources.buffers handle = some data →
    data.bound = some (memory, offset) → resources.mirror memory = some bytes →
    start.toNat + length.toNat ≤ data.size.toNat →
      readBuffer data.id start length = .ok (slice bytes (offset.toNat + start.toNat)
        (offset.toNat + start.toNat + length.toNat))

/-- No tracked byte, of whichever buffer, is at the place of a byte of a part of a buffer. -/
def Untouched (resources : Resources) (writes : Readbacks) (handle : BufferHandle)
    (start length : UInt64) : Prop :=
  ∀ writer i j place, Covered (writes.of writer) i → start.toNat ≤ j →
    j < start.toNat + length.toNat → allocationByte resources writer i = some place →
    allocationByte resources handle j ≠ some place

/-- Where the host reads the mirror. -/
theorem source_eq_some {bytes : List UInt8} (h : request.source resources = some bytes) :
    request.draw.counter = none ∧ request.hostPrefix = true ∧ ∃ data memory offset mirror length,
      resources.buffers request.draw.buffer = some data ∧ data.bound = some (memory, offset) ∧
      resources.mirror memory = some mirror ∧
      request.draw.byteLen request.draw.count = some length ∧
      request.draw.offset.toNat + length.toNat ≤ data.size.toNat ∧
      bytes = slice mirror (offset.toNat + request.draw.offset.toNat)
        (offset.toNat + request.draw.offset.toNat + length.toNat) := by
  unfold IndirectRead.source at h
  split at h
  · cases h
  rename_i plain
  split at h
  · cases h
  rename_i eligible
  have hcounter : request.draw.counter = none := by
    cases hcounter : request.draw.counter with
    | none => rfl
    | some counter => exact absurd (by rw [hcounter]; rfl) plain
  simp only [Option.bind_eq_bind, Option.bind_eq_some_iff] at h
  obtain ⟨range, hrange, ⟨memory, place⟩, hplace, mirror, hmirror, hbytes⟩ := h
  obtain ⟨data, offset, mirror', hdata, hbound, hmirror', -, inside, room, rfl⟩ :=
    allocationRange_eq_some hplace
  rw [hmirror, Option.some.injEq] at hmirror'
  subst hmirror'
  simp only [IndirectDraw.range, Option.bind_eq_bind, Option.bind_eq_some_iff] at hrange
  obtain ⟨length, hlength, stop, hstop, hrange⟩ := hrange
  obtain rfl := Option.some.inj hrange
  have hsum := checkedAdd64_toNat hstop
  simp only [hsum] at hbytes inside
  refine ⟨hcounter, Bool.not_eq_false _ ▸ eligible, data, memory, offset, mirror, length, hdata,
    hbound, hmirror, hlength, inside, ?_⟩
  rw [indexRange_some (by omega) (by omega), Option.some.injEq] at hbytes
  rw [← hbytes, slice, Nat.add_assoc]

theorem expand_none (draw : IndirectDraw) (bytes : List UInt8) (zero : draw.count = 0) :
    expand draw draw.count bytes drawParameters = .ok [] := by
  rw [zero]
  refine expand_ok ⟨?_, ?_, ?_⟩
  · exact UInt32.le_iff_toNat_le.mpr (Nat.zero_le _)
  · exact Nat.zero_le _
  · intro index h
    exact absurd h (Nat.not_lt_zero _)

/-- Whatever the host expands from the mirror, waiting for the backend would expand as well. -/
theorem read_of_readHost
    (mirrors : ∀ length, request.draw.byteLen request.draw.count = some length →
      ReadsMirror resources readBuffer request.draw.buffer request.draw.offset length)
    (h : readHost resources request drawParameters = .ok (some commands)) :
    read resources readBuffer request drawParameters = .ok commands := by
  unfold readHost at h
  split at h
  · rename_i bytes hsource
    obtain ⟨hcounter, -, data, memory, offset, mirror, length, hdata, hbound, hmirror, hlength,
      inside, rfl⟩ := source_eq_some hsource
    have hread := (mirrors length hlength).read hdata hbound hmirror inside
    have expanded : expand request.draw request.draw.count (slice mirror
        (offset.toNat + request.draw.offset.toNat)
        (offset.toNat + request.draw.offset.toNat + length.toNat)) drawParameters =
          .ok commands := by
      obtain ⟨all, hall, hsome⟩ := except_bind_eq_ok.mp h
      cases hsome
      exact hall
    simp only [read, hcounter, hlength, hdata, hread, okOr, bind, Except.bind, Except.mapError, pure,
      Except.pure]
    split
    · rename_i zero
      rw [expand_none _ _ zero] at expanded
      exact expanded
    · exact expanded
  · cases h

/-- A recorded draw reads the mirror only where no tracked write touches its records. -/
theorem untouched_of_readHost (same : resources.buffers = recorded.buffers)
    (h : readHost resources (IndirectRead.new recorded writes draw) drawParameters =
      .ok (some commands)) {length : UInt64} (hlength : draw.byteLen draw.count = some length) :
    Untouched resources writes draw.buffer draw.offset length := by
  unfold readHost at h
  split at h
  · rename_i bytes hsource
    have eligible := (source_eq_some hsource).2.1
    simp only [IndirectRead.new, Bool.and_eq_true, Option.any_eq_true, Bool.not_eq_true'] at eligible
    obtain ⟨-, range, hrange, apart⟩ := eligible
    simp only [IndirectDraw.range, hlength, Option.bind_eq_bind, Option.bind_some,
      Option.bind_eq_some_iff] at hrange
    obtain ⟨stop, hstop, hrange⟩ := hrange
    obtain rfl := Option.some.inj hrange
    intro writer i j place covered hj hj' written
    have bytes (handle : BufferHandle) (i : Nat) :
        allocationByte resources handle i = allocationByte recorded handle i := by
      rw [allocationByte, same]
      rfl
    rw [bytes] at written ⊢
    refine Readbacks.apart_of_mayWrite apart covered ⟨hj, ?_⟩ written
    rw [checkedAdd64_toNat hstop]
    exact hj'
  · cases h

end Mirror

/-- An indirect draw is expanded to the draws of its records exactly when its bytes are there, its
count is within the recorded one and every record is admissible; no panic is among the answers.
The host's reading of the mirror gives the commands that the backend would have given: for the same
memory contents, and, for a recorded draw, as soon as they are the same where no tracked write is. -/
theorem indirect_draws :
    (∀ draw count bytes drawParameters,
      (Expandable draw count bytes →
        expand draw count bytes drawParameters =
          .ok (indirectDraws draw count bytes drawParameters)) ∧
      (¬ Expandable draw count bytes →
        expand draw count bytes drawParameters = .error invalid)) ∧
    (∀ resources readBuffer (request : IndirectRead) drawParameters commands,
      (∀ start length, ReadsMirror resources readBuffer request.draw.buffer start length) →
      readHost resources request drawParameters = .ok (some commands) →
      read resources readBuffer request drawParameters = .ok commands) ∧
    (∀ (resources recorded : Resources) writes readBuffer draw drawParameters commands,
      resources.buffers = recorded.buffers →
      (∀ start length, Untouched resources writes draw.buffer start length →
        ReadsMirror resources readBuffer draw.buffer start length) →
      readHost resources (.new recorded writes draw) drawParameters = .ok (some commands) →
      read resources readBuffer (.new recorded writes draw) drawParameters = .ok commands) := by
  refine ⟨fun draw count bytes drawParameters => ⟨expand_ok, expand_error⟩, ?_, ?_⟩
  · intro resources readBuffer request drawParameters commands mirrors h
    exact read_of_readHost (fun length _ => mirrors request.draw.offset length) h
  · intro resources recorded writes readBuffer draw drawParameters commands same mirrors h
    exact read_of_readHost
      (fun length hlength => mirrors draw.offset length (untouched_of_readHost same h hlength)) h

end Sgfx.Vulkan
