import Sgfx.Virgl.PassRooms

/-!
# Splitting a render pass

The chunks of a pass draw what the pass draws: at every step, the chunks and the open one draw the
draws that were taken, whole or in parts of whole triangles.  A turn of the loop over the vertices
of an inline draw takes some of them or empties the open chunk, so the loop ends.

## Main Definitions

* `Splitting`, `Inlining` — the invariants of the two loops

## Main Results

* `splitInline_inlining`, `splitDraw_splitting` — one turn
* `pass_splitting`
-/

namespace Sgfx.Virgl.Passes

open Draws TextureUploads

variable {τ δ E : Type}

/-! ## The loops -/

/-- The invariant of the loops: the chunks and the open chunk draw `parts`. -/
structure Splitting (pass : ExecutionPass τ δ) (parts : List (Drawn δ)) (split : Split τ δ) :
    Prop where
  heads : ∀ i chunk, split.chunks[i]? = some chunk → Heads pass (i == 0) chunk
  room : ∀ chunk ∈ split.chunks, Room chunk.submission.vertices chunk.submission.draws
  some : ∀ chunk ∈ split.chunks,
    chunk.submission.draws ≠ [] ∨ submissionHasClear chunk.submission = true
  first : split.firstChunk = split.chunks.isEmpty
  uploads : split.firstChunk = true → split.textureUploads = pass.submission.textureUploads
  openRoom : Room split.chunkVertices split.chunkDraws
  drawn : (split.chunks.flatMap fun chunk => chunk.submission.drawn) ++
    split.chunkDraws.map (Passes.drawn split.chunkVertices) = parts

/-- The error of a reservation that fails. -/
def OutOfMemory (alloc : Allocator) (error : IrSubmitError E) : Prop :=
  error = .outOfMemory ∧ ∃ site, alloc site = false

section Steps

variable {alloc : Allocator} {pass : ExecutionPass τ δ} {parts : List (Drawn δ)}
  {split : Split τ δ} {draw : PlannedDraw δ}

theorem tryReserve_error {site : ReserveSite} {e : IrSubmitError E}
    (h : tryReserve alloc site = .error e) : OutOfMemory alloc e := by
  obtain ⟨failed, rfl⟩ := failIf_eq_error.mp h
  exact ⟨rfl, site, failed⟩

theorem pushPassChunk_ensures (vertices : List IrVertex) (draws : List (PlannedDraw δ))
    (uploads : List IrTextureUpload) (first : Bool) :
    Fallible.Ensures (pushPassChunk alloc pass vertices draws uploads first) split
      (fun _ after => after =
        { split with chunks := split.chunks ++ [pass.chunk vertices draws uploads first] })
      fun (e : IrSubmitError E) _ => OutOfMemory alloc e := by
  refine .lift_bind (fun _ _ => .read_bind (.lift_bind (fun _ _ => .update rfl) ?_)) ?_
  · exact fun e => tryReserve_error
  · exact fun e => tryReserve_error

/-- After a flush. -/
def Split.flushed (pass : ExecutionPass τ δ) (left : List IrTextureUpload → List IrTextureUpload)
    (split : Split τ δ) : Split τ δ where
  chunks := split.chunks ++ [pass.chunk split.chunkVertices split.chunkDraws
    (if split.firstChunk then split.textureUploads else []) split.firstChunk]
  chunkVertices := []
  chunkDraws := []
  textureUploads := if split.firstChunk then left split.textureUploads else split.textureUploads
  firstChunk := false

theorem flushChunk_ensures (left : List IrTextureUpload → List IrTextureUpload) :
    Fallible.Ensures (flushChunk alloc pass left) split
      (fun _ after => after = split.flushed pass left)
      fun (e : IrSubmitError E) _ => OutOfMemory alloc e := by
  refine .read_bind (.update_bind ((pushPassChunk_ensures ..).bind ?_))
  rintro _ _ rfl
  exact .update rfl

/-- A flush draws what was open. -/
theorem Splitting.flushed (splitting : Splitting pass parts split)
    (left : List IrTextureUpload → List IrTextureUpload)
    (something : split.chunkDraws ≠ [] ∨
      split.firstChunk = true ∧ submissionHasClear pass.submission = true) :
    Splitting pass parts (split.flushed pass left) where
  heads i chunk found := by
    rw [Split.flushed, List.getElem?_append] at found
    split at found
    · exact splitting.heads i chunk found
    · rename_i last
      obtain ⟨hi, rfl⟩ := List.getElem?_eq_some_iff.mp found
      have index : i = split.chunks.length := by
        rw [List.length_singleton] at hi
        omega
      have first : (i == 0) = split.firstChunk := by
        rw [splitting.first, index]
        cases split.chunks <;> rfl
      rw [first]
      simp only [List.getElem_singleton]
      refine ⟨rfl, rfl, rfl, rfl, rfl, rfl, rfl, ?_⟩
      cases hfirst : split.firstChunk with
      | true => exact splitting.uploads hfirst
      | false => rfl
  room chunk member := by
    obtain member | member := List.mem_append.mp member
    · exact splitting.room chunk member
    · rw [List.mem_singleton.mp member]
      exact splitting.openRoom
  some chunk member := by
    obtain member | member := List.mem_append.mp member
    · exact splitting.some chunk member
    · rw [List.mem_singleton.mp member]
      refine something.imp_right ?_
      rintro ⟨first, clear⟩
      rw [first]
      simpa [submissionHasClear, ExecutionPass.chunk, Function.comp_def] using clear
  first := by simp [Split.flushed]
  uploads := nofun
  openRoom := room_nil
  drawn := by
    rw [← splitting.drawn, Split.flushed, List.flatMap_append, List.flatMap_singleton]
    exact List.append_nil _

/-- One draw more in the open chunk. -/
theorem Splitting.push (splitting : Splitting pass parts split) {more : List IrVertex}
    (room : Room (split.chunkVertices ++ more) (split.chunkDraws ++ [draw])) :
    Splitting pass (parts ++ [Passes.drawn (split.chunkVertices ++ more) draw])
      { split with
        chunkVertices := split.chunkVertices ++ more, chunkDraws := split.chunkDraws ++ [draw] } where
  heads := splitting.heads
  room := splitting.room
  some := splitting.some
  first := splitting.first
  uploads := splitting.uploads
  openRoom := room
  drawn := by
    rw [← splitting.drawn, List.map_append, splitting.openRoom.drawn_append, List.append_assoc]
    rfl

/-- One draw more that has no inline vertices. -/
theorem Splitting.push_whole (splitting : Splitting pass parts split)
    (room : Room split.chunkVertices (split.chunkDraws ++ [draw]))
    (whole : draw.isInline = false) :
    Splitting pass (parts ++ [⟨draw, []⟩])
      { split with chunkDraws := split.chunkDraws ++ [draw] } := by
  rw [← List.append_nil split.chunkVertices] at room
  have pushed := splitting.push room
  rw [List.append_nil, Passes.drawn, whole] at pushed
  exact pushed

theorem pushDraw_ensures :
    Fallible.Ensures (pushDraw alloc draw) split
      (fun _ after => after = { split with chunkDraws := split.chunkDraws ++ [draw] })
      fun (e : IrSubmitError E) _ => OutOfMemory alloc e :=
  .read_bind (.lift_bind (fun _ _ => .update rfl) fun _ => tryReserve_error)

theorem pushSegment_ensures (sourceStart count : Nat) :
    Fallible.Ensures (pushSegment alloc pass draw sourceStart count) split
      (fun _ after => after = { split with
        chunkVertices := split.chunkVertices ++
          (pass.submission.vertices.drop sourceStart).take count
        chunkDraws := split.chunkDraws ++
          [{ draw with startVertex := split.chunkVertices.length, vertexCount := count }] })
      fun (e : IrSubmitError E) _ => OutOfMemory alloc e :=
  .read_bind (.lift_bind (fun _ _ => .update_bind pushDraw_ensures) fun _ => tryReserve_error)

/-- After the flush before a draw, the open chunk can take it. -/
theorem flushBefore_ensures (splitting : Splitting pass parts split) :
    Fallible.Ensures (flushBefore alloc pass draw) split
      (fun _ after => Splitting pass parts after ∧ flushesBefore after.chunkDraws draw = false)
      fun (e : IrSubmitError E) _ => OutOfMemory alloc e := by
  refine .read_bind ?_
  split
  · rename_i flushes
    have nonempty : split.chunkDraws ≠ [] := by
      intro empty
      rw [empty] at flushes
      cases flushes
    refine (flushChunk_ensures takeUploads).imp ?_ fun _ _ h => h
    rintro _ _ rfl
    exact ⟨splitting.flushed takeUploads (.inl nonempty), rfl⟩
  · rename_i stays
    exact .pure ⟨splitting, Bool.eq_false_of_not_eq_true stays⟩

/-- A chunk that can take a fixed draw has fixed draws. -/
theorem fixed_of_stays (uniform : Uniform split.chunkDraws)
    (hdraw : draw.programmable.isSome = false)
    (stays : flushesBefore split.chunkDraws draw = false) :
    ∀ other ∈ split.chunkDraws, other.programmable.isSome = false := by
  obtain fixed | ⟨place, programmable⟩ := uniform
  · exact fixed
  · cases hdraws : split.chunkDraws with
    | nil => exact fun _ member => (List.not_mem_nil member).elim
    | cons first rest =>
        rw [hdraws] at stays programmable
        rw [flushesBefore, hdraw, if_neg Bool.false_ne_true,
          (programmable first List.mem_cons_self).1] at stays
        cases stays

/-! ### Inline draws -/

/-- What is left of an inline draw once its place is forgotten. -/
def PlannedDraw.unplaced (draw : PlannedDraw δ) : PlannedDraw δ :=
  { draw with startVertex := 0, vertexCount := 0 }

/-- The invariant of the loop over the vertices of an inline draw: those before `sourceStart` are
drawn in parts. -/
structure Inlining (pass : ExecutionPass τ δ) (parts : List (Drawn δ)) (draw : PlannedDraw δ)
    (stop sourceStart : Nat) (split : Split τ δ) : Prop where
  fixed : ∀ other ∈ split.chunkDraws, other.programmable.isSome = false
  low : draw.startVertex ≤ sourceStart
  high : sourceStart ≤ stop
  whole : (stop - sourceStart) % 3 = 0
  parts : ∃ slices : List (List IrVertex),
    slices.flatten = (pass.submission.vertices.drop draw.startVertex).take
      (sourceStart - draw.startVertex) ∧
    (∀ slice ∈ slices, slice ≠ [] ∧ slice.length % 3 = 0) ∧
    Splitting pass (parts ++ slices.map fun slice => ⟨draw.unplaced, slice⟩) split

/-- What every turn makes smaller: a turn takes vertices, or it empties the open chunk. -/
def inlineVariant (stop sourceStart : Nat) (split : Split τ δ) : Nat :=
  2 * (stop - sourceStart) + if split.chunkDraws.isEmpty then 0 else 1

theorem inlineVariant_bounds (stop sourceStart : Nat) (split : Split τ δ) :
    2 * (stop - sourceStart) ≤ inlineVariant stop sourceStart split ∧
      inlineVariant stop sourceStart split ≤ 2 * (stop - sourceStart) + 1 := by
  unfold inlineVariant
  split <;> omega

/-- Where there is no room for an inline draw, the open chunk is not empty. -/
theorem Splitting.nonempty_of_full (splitting : Splitting pass parts split)
    (full : 64 ≤ split.chunkDraws.length ∨
      inlineVertexCapacity split.chunkVertices.length (split.chunkDraws.length + 1) -
        inlineVertexCapacity split.chunkVertices.length (split.chunkDraws.length + 1) % 3 = 0) :
    split.chunkDraws ≠ [] := by
  intro empty
  have room := splitting.openRoom
  rw [empty] at room
  rw [empty, room.vertices_nil, List.length_nil, List.length_nil, Nat.zero_add,
    inlineVertexCapacity_empty] at full
  omega

/-- The segment of an inline draw in the open chunk draws its vertices. -/
theorem drawn_segment (inline : draw.isInline = true) (vertices slice : List IrVertex) :
    Passes.drawn (vertices ++ slice)
        { draw with startVertex := vertices.length, vertexCount := slice.length } =
      ⟨draw.unplaced, slice⟩ := by
  have segment : ({ draw with startVertex := vertices.length, vertexCount := slice.length } :
      PlannedDraw δ).isInline = true := inline
  rw [Passes.drawn, if_pos segment, List.drop_left, List.take_length]
  rfl

/-- One segment more. -/
theorem Splitting.segment (splitting : Splitting pass parts split)
    (fixed : ∀ other ∈ split.chunkDraws, other.programmable.isSome = false)
    (inline : draw.isInline = true) (slice : List IrVertex) (positive : 0 < slice.length)
    (whole : slice.length % 3 = 0) (few : split.chunkDraws.length < 64)
    (fits : slice.length ≤
      inlineVertexCapacity split.chunkVertices.length (split.chunkDraws.length + 1)) :
    Splitting pass (parts ++ [⟨draw.unplaced, slice⟩])
      { split with
        chunkVertices := split.chunkVertices ++ slice
        chunkDraws := split.chunkDraws ++
          [{ draw with startVertex := split.chunkVertices.length, vertexCount := slice.length }] } := by
  obtain ⟨vertices_le, bytes_le⟩ := inlineVertexCapacity_fits positive fits
  have hdraw : draw.programmable = none := by
    rw [PlannedDraw.isInline, Bool.and_eq_true, Option.isNone_iff_eq_none] at inline
    exact inline.1
  have counted := drawCountValid_none ⟨positive, whole⟩
  rw [← drawn_segment inline split.chunkVertices slice]
  refine splitting.push (splitting.openRoom.push_fixed _ _ fixed ?_ ?_ ?_ ?_ few ?_)
  · rw [hdraw]
    rfl
  · rw [PlannedDraw.counted, hdraw]
    exact counted
  · exact fun _ => Nat.le_of_eq List.length_append.symm
  · rwa [List.length_append]
  · rwa [List.length_append]

/-- One turn of the loop over the vertices of an inline draw. -/
theorem splitInline_inlining {stop sourceStart : Nat} (inline : draw.isInline = true)
    (inside : stop ≤ pass.submission.vertices.length)
    (inlining : Inlining pass parts draw stop sourceStart split) (more : sourceStart < stop) :
    Fallible.Ensures (splitInline alloc pass draw stop sourceStart) split
      (fun next after => Inlining pass parts draw stop next after ∧
        inlineVariant stop next after < inlineVariant stop sourceStart split)
      fun (e : IrSubmitError E) _ => OutOfMemory alloc e := by
  obtain ⟨slices, hslices, hwhole, splitting⟩ := inlining.parts
  unfold splitInline
  refine .read_bind ?_
  simp only
  split
  · -- no room: the chunk is flushed, and the same vertices come again
    rename_i full
    have nonempty := splitting.nonempty_of_full full
    refine (flushChunk_ensures takeUploads).bind ?_
    rintro _ _ rfl
    refine .pure ⟨{ inlining with
      fixed := fun _ member => (List.not_mem_nil member).elim
      parts := ⟨slices, hslices, hwhole, splitting.flushed takeUploads (.inl nonempty)⟩ }, ?_⟩
    rw [inlineVariant, inlineVariant, List.isEmpty_eq_false_iff.mpr nonempty]
    exact Nat.lt_succ_self _
  · rename_i room
    rw [not_or, MAX_IR_DRAWS_PER_SUBMISSION, Nat.not_le] at room
    obtain ⟨few, positive⟩ := room
    generalize hcapacity :
      inlineVertexCapacity split.chunkVertices.length (split.chunkDraws.length + 1) = capacity
      at positive ⊢
    generalize hcount : min (stop - sourceStart) (capacity - capacity % 3) = count
    have left := inlining.whole
    have hpositive : 0 < count := by omega
    have hmod : count % 3 = 0 := by omega
    have hstop : sourceStart + count ≤ stop := by omega
    have length : ((pass.submission.vertices.drop sourceStart).take count).length = count :=
      length_take_drop (Nat.le_trans hstop inside)
    have pushed := splitting.segment inlining.fixed inline
      ((pass.submission.vertices.drop sourceStart).take count) (by rw [length]; exact hpositive)
      (by rw [length]; exact hmod) few (by omega)
    rw [length] at pushed
    have hparts : (slices ++ [(pass.submission.vertices.drop sourceStart).take count]).flatten =
        (pass.submission.vertices.drop draw.startVertex).take
          (sourceStart + count - draw.startVertex) := by
      have low := inlining.low
      rw [Nat.sub_add_comm low, List.take_add, List.drop_drop, Nat.add_sub_of_le low,
        List.flatten_append, hslices, List.flatten_singleton]
    have hwhole' : ∀ slice ∈ slices ++ [(pass.submission.vertices.drop sourceStart).take count],
        slice ≠ [] ∧ slice.length % 3 = 0 := by
      intro slice member
      obtain member | member := List.mem_append.mp member
      · exact hwhole slice member
      · rw [List.mem_singleton.mp member, ← List.length_pos_iff, length]
        exact ⟨hpositive, hmod⟩
    have next {after : Split τ δ}
        (fixed : ∀ other ∈ after.chunkDraws, other.programmable.isSome = false)
        (splitting : Splitting pass (parts ++ slices.map (fun slice => ⟨draw.unplaced, slice⟩) ++
          [⟨draw.unplaced, (pass.submission.vertices.drop sourceStart).take count⟩]) after) :
        Inlining pass parts draw stop (sourceStart + count) after ∧
          inlineVariant stop (sourceStart + count) after < inlineVariant stop sourceStart split := by
      refine ⟨⟨fixed, Nat.le_add_right_of_le inlining.low, hstop, by omega, _, hparts, hwhole', ?_⟩, ?_⟩
      · rwa [List.map_append, ← List.append_assoc]
      · have before := (inlineVariant_bounds stop sourceStart split).1
        have after := (inlineVariant_bounds stop (sourceStart + count) after).2
        omega
    refine (pushSegment_ensures sourceStart count).bind ?_
    rintro _ _ rfl
    split
    · refine (flushChunk_ensures takeUploads).bind ?_
      rintro _ _ rfl
      exact .pure (next (fun _ member => (List.not_mem_nil member).elim)
        (pushed.flushed takeUploads (.inl (by simp))))
    · refine .pure (next ?_ pushed)
      intro other member
      obtain member | member := List.mem_append.mp member
      · exact inlining.fixed other member
      · rw [PlannedDraw.isInline, Bool.and_eq_true, Option.isNone_iff_eq_none] at inline
        rw [List.mem_singleton.mp member, inline.1]
        rfl

/-- The count of a fixed draw that lowering accepts. -/
theorem counted_fixed (fixed : draw.programmable = none) (counted : draw.counted = true) :
    0 < draw.vertexCount ∧ draw.vertexCount % 3 = 0 := by
  rw [PlannedDraw.counted, fixed] at counted
  simpa [drawCountValid] using counted

/-- An inline draw. -/
theorem splitInlineDraw_settles (lowered : Lowered pass)
    (member : draw ∈ pass.submission.draws) (inline : draw.isInline = true)
    (splitting : Splitting pass parts split)
    (fixed : ∀ other ∈ split.chunkDraws, other.programmable.isSome = false) :
    Fueled.Settles (splitInlineDraw alloc pass draw) split
      (fun _ after => ∃ cut, Cut (Passes.drawn pass.submission.vertices draw) cut ∧
        Splitting pass (parts ++ cut) after)
      fun (e : IrSubmitError E) _ => OutOfMemory alloc e := by
  have hfixed : draw.programmable = none := by
    rw [PlannedDraw.isInline, Bool.and_eq_true, Option.isNone_iff_eq_none] at inline
    exact inline.1
  have inside := lowered.placed draw member inline
  obtain ⟨positive, whole⟩ := counted_fixed hfixed (lowered.counted draw member)
  have hend : (inlineEnd pass draw : Except (IrSubmitError E) Nat) =
      .ok (draw.startVertex + draw.vertexCount) := by
    have fits : draw.startVertex + draw.vertexCount < 2 ^ 64 := Nat.lt_of_le_of_lt inside lowered.held
    rw [inlineEnd, checkedAddUsize_iff.mpr ⟨fits, rfl⟩]
    refine except_bind_eq_ok.mpr ⟨_, rfl, except_bind_eq_ok.mpr ⟨(), failIf_eq_ok.mpr ?_, rfl⟩⟩
    rintro (past | odd)
    · exact absurd inside (Nat.not_le_of_lt past)
    · exact odd whole
  have checked : Fallible.Ensures (liftM (inlineEnd pass draw : Except (IrSubmitError E) Nat) :
      Fallible (Split τ δ) (IrSubmitError E) Nat) split
      (fun stop after => stop = draw.startVertex + draw.vertexCount ∧ after = split)
      fun e _ => OutOfMemory alloc e := by
    rw [hend]
    exact ⟨rfl, rfl⟩
  have start : Inlining pass parts draw (draw.startVertex + draw.vertexCount) draw.startVertex split :=
    { fixed
      low := Nat.le_refl _
      high := Nat.le_add_right ..
      whole := by rwa [Nat.add_sub_cancel_left]
      parts := ⟨[], by simp, by simp, by simpa using splitting⟩ }
  unfold splitInlineDraw
  refine .lift_bind checked ?_
  rintro _ _ ⟨rfl, rfl⟩
  refine (Fueled.Settles.whileDo
    (Inlining pass parts draw (draw.startVertex + draw.vertexCount))
    (inlineVariant (draw.startVertex + draw.vertexCount)) start ?_).bind ?_
  · intro sourceStart split inlining more
    exact .lift (splitInline_inlining inline inside inlining (of_decide_eq_true more))
  · rintro last after ⟨inlining, done⟩
    obtain ⟨slices, hslices, hwhole, splitting⟩ := inlining.parts
    have hlast : last = draw.startVertex + draw.vertexCount :=
      Nat.le_antisymm inlining.high (Nat.le_of_not_lt (of_decide_eq_false done))
    rw [hlast, Nat.add_sub_cancel_left] at hslices
    refine .pure ⟨_, ?_, splitting⟩
    rw [Passes.drawn, if_pos inline, ← hslices]
    refine .parts inline ?_ hwhole
    rintro rfl
    have length := congrArg List.length hslices
    rw [length_take_drop inside, List.flatten_nil, List.length_nil] at length
    exact absurd length (Nat.ne_of_lt positive)

/-- A draw of a persistent buffer. -/
theorem splitPersistentDraw_ensures (hdraw : draw.programmable = none)
    (persistent : draw.isInline = false) (counted : draw.counted = true)
    (splitting : Splitting pass parts split)
    (fixed : ∀ other ∈ split.chunkDraws, other.programmable.isSome = false) :
    Fallible.Ensures (splitPersistentDraw alloc pass draw) split
      (fun _ after => Splitting pass (parts ++ [⟨draw, []⟩]) after)
      fun (e : IrSubmitError E) _ => OutOfMemory alloc e := by
  -- the draw goes into a chunk that has room for it
  have push {split : Split τ δ} (splitting : Splitting pass parts split)
      (fixed : ∀ other ∈ split.chunkDraws, other.programmable.isSome = false)
      (few : split.chunkDraws.length < 64)
      (fits : split.chunkVertices.length * 40 + 6144 + (split.chunkDraws.length + 1) * 256 ≤ 65536) :
      Fallible.Ensures (pushDraw alloc draw) split
        (fun _ after => Splitting pass (parts ++ [⟨draw, []⟩]) after)
        fun (e : IrSubmitError E) _ => OutOfMemory alloc e := by
    refine pushDraw_ensures.imp ?_ fun _ _ h => h
    rintro _ _ rfl
    have room := splitting.openRoom
    have pushed := room.push_fixed draw [] fixed (by rw [hdraw]; rfl) counted
      (by rw [persistent]; exact nofun) (by rw [List.append_nil]; exact room.vertices_le) few
      (by rw [List.append_nil]; exact fits)
    rw [List.append_nil] at pushed
    exact splitting.push_whole pushed persistent
  unfold splitPersistentDraw
  refine .read_bind ?_
  split
  · rename_i full
    have nonempty : split.chunkDraws ≠ [] := by
      intro empty
      have room := splitting.openRoom
      rw [empty] at room
      rw [empty, room.vertices_nil, List.length_nil, List.length_nil] at full
      exact absurd full (by decide)
    refine (flushChunk_ensures cloneUploads).bind ?_
    rintro _ _ rfl
    exact push (splitting.flushed cloneUploads (.inl nonempty))
      (fun _ member => (List.not_mem_nil member).elim) (by simp [Split.flushed])
      (by simp [Split.flushed])
  · rename_i room
    rw [not_or, MAX_IR_DRAWS_PER_SUBMISSION, Nat.not_le, Bool.not_eq_false,
      chunkFitsTransport_iff] at room
    exact push splitting fixed room.1 room.2

/-- One draw. -/
theorem splitDraw_splitting (lowered : Lowered pass) (member : draw ∈ pass.submission.draws)
    (splitting : Splitting pass parts split) :
    Fueled.Settles (splitDraw alloc pass draw) split
      (fun _ after => ∃ cut, Cut (Passes.drawn pass.submission.vertices draw) cut ∧
        Splitting pass (parts ++ cut) after)
      fun (e : IrSubmitError E) _ => OutOfMemory alloc e := by
  have counted := lowered.counted draw member
  unfold splitDraw
  refine .lift_bind (flushBefore_ensures splitting) ?_
  rintro _ after ⟨splitting, stays⟩
  split
  · rename_i programmable
    have whole : draw.isInline = false := by
      rw [PlannedDraw.isInline, Option.isNone_eq_false_iff.mpr programmable, Bool.false_and]
    refine .lift (pushDraw_ensures.imp ?_ fun _ _ h => h)
    rintro _ _ rfl
    rw [Passes.drawn, whole]
    exact ⟨_, .whole whole,
      splitting.push_whole (splitting.openRoom.push_programmable programmable counted stays) whole⟩
  · rename_i notProgrammable
    have fixed := fixed_of_stays splitting.openRoom.uniform
      (Bool.eq_false_of_not_eq_true notProgrammable) stays
    have hdraw : draw.programmable = none := by simpa using notProgrammable
    split
    · rename_i noBuffer
      have inline : draw.isInline = true := by
        rw [PlannedDraw.isInline, hdraw, noBuffer]
        rfl
      exact splitInlineDraw_settles lowered member inline splitting fixed
    · rename_i buffer
      have persistent : draw.isInline = false := by
        rw [PlannedDraw.isInline, hdraw, Bool.eq_false_of_not_eq_true buffer]
        rfl
      refine .lift ((splitPersistentDraw_ensures hdraw persistent counted splitting fixed).imp ?_
        fun _ _ h => h)
      intro _ after splitting
      rw [Passes.drawn, persistent]
      exact ⟨_, .whole persistent, splitting⟩

/-- The last chunk. -/
theorem splitRest_ensures (splitting : Splitting pass parts split)
    (something : parts ≠ [] ∨ submissionHasClear pass.submission = true) :
    Fallible.Ensures (splitRest alloc pass) split
      (fun chunks _ => ∃ last, last.chunks = chunks ∧ last.chunkDraws = [] ∧
        Splitting pass parts last)
      fun (e : IrSubmitError E) _ => OutOfMemory alloc e := by
  unfold splitRest
  refine .read_bind ?_
  split
  · rename_i done
    exact .pure ⟨split, rfl, List.isEmpty_iff.mp done.2.2, splitting⟩
  · rename_i more
    have left : split.chunkDraws ≠ [] ∨
        split.firstChunk = true ∧ submissionHasClear pass.submission = true := by
      by_cases empty : split.chunkDraws = []
      · have novertices := splitting.openRoom
        rw [empty] at novertices
        have first : split.firstChunk = true := by
          by_contra later
          exact more ⟨Bool.eq_false_of_not_eq_true later,
            List.isEmpty_iff.mpr novertices.vertices_nil, List.isEmpty_iff.mpr empty⟩
        refine .inr ⟨first, something.resolve_left ?_⟩
        have nochunks := splitting.first
        rw [first, eq_comm, List.isEmpty_iff] at nochunks
        rw [ne_eq, not_not, ← splitting.drawn, nochunks, empty]
        rfl
      · exact .inl empty
    refine (pushPassChunk_ensures ..).bind ?_
    rintro _ _ rfl
    exact .read_bind (.pure ⟨split.flushed pass takeUploads, rfl, rfl,
      splitting.flushed takeUploads left⟩)

end Steps

/-- A draw is cut into some part. -/
theorem Cut.ne_nil {whole : Drawn δ} {cut : List (Drawn δ)} (h : Cut whole cut) : cut ≠ [] := by
  cases h with
  | whole => exact List.cons_ne_nil _ _
  | parts _ some => exact fun empty => some (List.map_eq_nil_iff.mp empty)

/-- The whole of `split_pass`. -/
theorem splitDraws_settles (alloc : Allocator) {pass : ExecutionPass τ δ} (lowered : Lowered pass) :
    Fueled.Settles (splitDraws alloc pass) (Split.start pass)
      (fun chunks _ => ∃ cuts last, List.Forall₂ Cut pass.submission.drawn cuts ∧
        last.chunks = chunks ∧ last.chunkDraws = [] ∧ Splitting pass cuts.flatten last)
      fun (e : IrSubmitError E) _ => OutOfMemory alloc e := by
  have start : Splitting pass [] (Split.start pass) :=
    { heads := by simp [Split.start]
      room := by simp [Split.start]
      some := by simp [Split.start]
      first := rfl
      uploads := fun _ => rfl
      openRoom := room_nil
      drawn := rfl }
  unfold splitDraws
  refine (Fueled.Settles.loop (fun done split => ∃ cuts,
    List.Forall₂ Cut (done.map (drawn pass.submission.vertices)) cuts ∧
      Splitting pass cuts.flatten split) ⟨[], .nil, start⟩ ?_).bind ?_
  · rintro done draw split member ⟨cuts, hcuts, splitting⟩
    refine (splitDraw_splitting lowered member splitting).imp ?_
    rintro _ after ⟨cut, hcut, splitting⟩
    refine ⟨cuts ++ [cut], ?_, ?_⟩
    · rw [List.map_append]
      exact List.rel_append hcuts (.cons hcut .nil)
    · rwa [List.flatten_append, List.flatten_singleton]
  · rintro _ after ⟨cuts, hcuts, splitting⟩
    have something : cuts.flatten ≠ [] ∨ submissionHasClear pass.submission = true := by
      refine lowered.something.imp_left fun some empty => ?_
      obtain ⟨draw, draws, hdraws⟩ := List.exists_cons_of_ne_nil some
      rw [hdraws, List.map_cons] at hcuts
      cases hcuts with
      | cons hcut _ =>
          rw [List.flatten_cons, List.append_eq_nil_iff] at empty
          exact hcut.ne_nil empty.1
    refine .lift ((splitRest_ensures splitting something).imp ?_ fun _ _ h => h)
    rintro chunks _ ⟨last, hlast, empty, splitting⟩
    exact ⟨cuts, last, hcuts, hlast, empty, splitting⟩

/-- Splitting ends.  Its chunks draw the pass in order, they are of one kind each, only the first
has the clears and uploads, and the check of the chunks accepts them; it fails only where a
reservation does. -/
theorem pass_splitting {η : Type} (alloc : Allocator) (pass : ExecutionPass τ δ)
    (lowered : Lowered pass) :
    ∃ enough result, (∀ fuel, enough ≤ fuel → splitPass alloc pass fuel = some result) ∧
      (∀ chunks, result = .ok chunks → Splits pass chunks ∧
        validateTransportChunks (chunks.map (ExecutionEvent.pass (η := η))) =
          (.ok () : Except (IrSubmitError E) Unit)) ∧
      ∀ e : IrSubmitError E, result = .error e → e = .outOfMemory ∧ ∃ site, alloc site = false := by
  obtain ⟨enough, ⟨result, after⟩, run, h⟩ := splitDraws_settles (E := E) alloc lowered
  refine ⟨enough, result, fun fuel hfuel => by rw [splitPass, run fuel hfuel]; rfl, ?_, ?_⟩
  · rintro chunks rfl
    obtain ⟨cuts, last, hcuts, rfl, empty, splitting⟩ := h
    have hdrawn := splitting.drawn
    rw [empty, List.map_nil, List.append_nil] at hdrawn
    refine ⟨⟨splitting.heads, ⟨cuts, hcuts, hdrawn⟩, fun chunk member =>
      (splitting.room chunk member).uniform⟩, forEach_eq_ok.mpr ?_⟩
    intro event hevent
    obtain ⟨chunk, member, rfl⟩ := List.mem_map.mp hevent
    exact (splitting.room chunk member).valid (splitting.some chunk member)
  · rintro e rfl
    exact h

/-- A draw of six inline vertices. -/
def sixVertices : PlannedDraw Unit where
  drawIndex := 0
  programmable := none
  startVertex := 0
  instanceCount := 1
  firstInstance := 0
  vertexBuffers := .replicate 8 none
  vertexCount := 6
  vertexBuffer := none
  pipeline := ⟨0, .solid⟩
  texture := none
  sampler := none
  uniforms := ⟨.replicate 16 ⟨0⟩, .replicate 4 ⟨0⟩⟩
  scissor := ⟨0, 0, 8, 8⟩
  pipelinePlace := 0
  more := ()

/-- A pass of such a draw and one of a persistent buffer, without a clear. -/
def twoDraws : ExecutionPass Unit Unit where
  target := ()
  submission :=
    { clearColor := none
      additionalColors := []
      depthAttachment := none
      depthReadOnly := false
      clearDepth := none
      renderArea := ⟨0, 0, 8, 8⟩
      vertices := .replicate 6 ⟨.replicate 4 ⟨0⟩, .replicate 4 ⟨0⟩, .replicate 2 ⟨0⟩⟩
      draws := [sixVertices, { sixVertices with vertexBuffer := some ⟨⟨0, 240, 0⟩, 0⟩ }]
      textureUploads := [] }

theorem twoDraws_lowered : Lowered twoDraws where
  counted := by decide
  placed := by decide
  held := by decide
  something := .inl (List.cons_ne_nil _ _)

theorem pass_splitting_twoDraws :
    ∃ enough result, (∀ fuel, enough ≤ fuel →
        splitPass (fun _ => true) twoDraws fuel = some result) ∧
      (∀ chunks, result = .ok chunks → Splits twoDraws chunks ∧
        validateTransportChunks (chunks.map (ExecutionEvent.pass (η := Unit))) =
          (.ok () : Except (IrSubmitError Unit) Unit)) ∧
      ∀ e : IrSubmitError Unit, result = .error e →
        e = .outOfMemory ∧ ∃ site : ReserveSite, (fun _ => true) site = false :=
  pass_splitting (fun _ => true) twoDraws twoDraws_lowered

end Sgfx.Virgl.Passes
