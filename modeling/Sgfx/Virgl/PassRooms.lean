import Mathlib.Data.List.Forall2
import Sgfx.Virgl.PassChunks

/-!
# What the chunks of a pass draw

What a pass draws, how a draw may be cut, and what the open chunk satisfies while a pass is split:
`Room` is within the budgets and of one kind, and the check of a chunk accepts it once something is
in it.

## Main Definitions

* `Drawn`, `Cut` — what a draw draws, and the parts that it is cut into
* `Placed`, `Lowered` — what lowering promises of a pass
* `Heads` — what a chunk has of the pass besides draws
* `Splits` — chunks that draw a pass
* `Room` — the open chunk

## Main Results

* `appendDraw_placed`, `finishPass_eq`
* `Room.push_fixed`, `Room.push_programmable`, `Room.valid`
-/

namespace Sgfx.Virgl.Passes

open Draws TextureUploads

variable {τ δ E : Type}

/-! ## What is drawn -/

/-- A draw, and the inline vertices that it draws. -/
structure Drawn (δ : Type) where
  draw : PlannedDraw δ
  vertices : List IrVertex

/-- The vertices of the draw are inline. -/
def PlannedDraw.isInline (draw : PlannedDraw δ) : Bool :=
  draw.programmable.isNone && draw.vertexBuffer.isNone

/-- What a draw draws: of an inline draw the vertices, and not where they are. -/
def drawn (vertices : List IrVertex) (draw : PlannedDraw δ) : Drawn δ :=
  if draw.isInline then
    ⟨{ draw with startVertex := 0, vertexCount := 0 },
      (vertices.drop draw.startVertex).take draw.vertexCount⟩
  else ⟨draw, []⟩

/-- What a submission draws, in order. -/
def IrSubmission.drawn (submission : IrSubmission δ) : List (Drawn δ) :=
  submission.draws.map (Passes.drawn submission.vertices)

/-- The parts that a draw may be cut into: itself, or parts of whole triangles of an inline one. -/
inductive Cut : Drawn δ → List (Drawn δ) → Prop
  | whole {draw : PlannedDraw δ} : draw.isInline = false → Cut ⟨draw, []⟩ [⟨draw, []⟩]
  | parts {draw : PlannedDraw δ} {parts : List (List IrVertex)} : draw.isInline = true →
      parts ≠ [] → (∀ part ∈ parts, part ≠ [] ∧ part.length % 3 = 0) →
      Cut ⟨draw, parts.flatten⟩ (parts.map fun part => ⟨draw, part⟩)

/-- The number of vertices of a draw is one that its topology accepts. -/
def PlannedDraw.counted (draw : PlannedDraw δ) : Bool :=
  drawCountValid (draw.programmable.map fun programmable => programmable.pipeline.topology)
    draw.vertexCount

/-- The draws of a pass have counts that are accepted, and the inline ones have their vertices. -/
structure Placed (submission : IrSubmission δ) : Prop where
  counted : ∀ draw ∈ submission.draws, draw.counted = true
  placed : ∀ draw ∈ submission.draws, draw.isInline = true →
    draw.startVertex + draw.vertexCount ≤ submission.vertices.length
  held : submission.vertices.length < 2 ^ 64

/-- A pass that `finish_pass` splits: there is something to do. -/
structure Lowered (pass : ExecutionPass τ δ) : Prop extends Placed pass.submission where
  something : pass.submission.draws ≠ [] ∨ submissionHasClear pass.submission = true

/-- What a chunk has of the pass: clears and uploads only if it is the first. -/
structure Heads (pass : ExecutionPass τ δ) (first : Bool) (chunk : ExecutionPass τ δ) : Prop where
  target : chunk.target = pass.target
  clearColor : chunk.submission.clearColor = if first then pass.submission.clearColor else none
  additionalColors : chunk.submission.additionalColors =
    pass.submission.additionalColors.map fun color =>
      { color with clear := if first then color.clear else none }
  depthAttachment : chunk.submission.depthAttachment = pass.submission.depthAttachment
  depthReadOnly : chunk.submission.depthReadOnly = pass.submission.depthReadOnly
  clearDepth : chunk.submission.clearDepth = if first then pass.submission.clearDepth else none
  renderArea : chunk.submission.renderArea = pass.submission.renderArea
  textureUploads : chunk.submission.textureUploads =
    if first then pass.submission.textureUploads else []

/-- All draws are fixed, or all are programmable and of one pipeline. -/
def Uniform (draws : List (PlannedDraw δ)) : Prop :=
  (∀ draw ∈ draws, draw.programmable.isSome = false) ∨
    ∃ place, ∀ draw ∈ draws, draw.programmable.isSome = true ∧ draw.pipelinePlace = place

/-- Chunks that draw a pass, the first of them with its clears and uploads. -/
structure Splits (pass : ExecutionPass τ δ) (chunks : List (ExecutionPass τ δ)) : Prop where
  heads : ∀ i chunk, chunks[i]? = some chunk → Heads pass (i == 0) chunk
  drawn : ∃ parts, List.Forall₂ Cut pass.submission.drawn parts ∧
    (chunks.flatMap fun chunk => chunk.submission.drawn) = parts.flatten
  uniform : ∀ chunk ∈ chunks, Uniform chunk.submission.draws

/-! ## Lowering -/

theorem checkedMulUsize_eq_some {a b c : Nat} :
    checkedMulUsize a b = some c ↔ a * b < 2 ^ 64 ∧ a * b = c := by
  unfold checkedMulUsize
  split <;> rename_i bound
  · exact ⟨fun h => ⟨bound, Option.some.inj h⟩, fun h => congrArg some h.2⟩
  · exact ⟨nofun, fun h => absurd h.1 bound⟩

theorem checkedAddUsize_iff {a b c : Nat} :
    checkedAddUsize a b = some c ↔ a + b < 2 ^ 64 ∧ a + b = c := by
  unfold checkedAddUsize
  split <;> rename_i bound
  · exact ⟨fun h => ⟨bound, Option.some.inj h⟩, fun h => congrArg some h.2⟩
  · exact ⟨nofun, fun h => absurd h.1 bound⟩

section Lowering

variable {alloc : Allocator} {submission after : IrSubmission δ} {draw : PlannedDraw δ}

/-- The vertices of a fixed draw, as decoding returns them: some whole triangles. -/
def Triangles : DecodedVertices IrVertex → Prop
  | .inline vertices => 0 < vertices.length ∧ vertices.length % 3 = 0
  | .persistent _ _ vertexCount => 0 < vertexCount ∧ vertexCount % 3 = 0

theorem drawCountValid_none {count : Nat} (h : 0 < count ∧ count % 3 = 0) :
    drawCountValid none count = true := by
  simp only [drawCountValid, h, decide_true, Bool.true_and, beq_self_eq_true]

/-- One draw more. -/
theorem Placed.push (placed : Placed submission) (draw : PlannedDraw δ) (more : List IrVertex)
    (counted : draw.counted = true)
    (inside : draw.isInline = true →
      draw.startVertex + draw.vertexCount ≤ (submission.vertices ++ more).length)
    (held : (submission.vertices ++ more).length < 2 ^ 64) :
    Placed { submission with
      vertices := submission.vertices ++ more, draws := submission.draws ++ [draw] } where
  counted other member := by
    obtain member | member := List.mem_append.mp member
    · exact placed.counted other member
    · rwa [List.mem_singleton.mp member]
  placed other member hinline := by
    obtain member | member := List.mem_append.mp member
    · have old := placed.placed other member hinline
      rw [List.length_append]
      omega
    · rw [List.mem_singleton.mp member] at hinline ⊢
      exact inside hinline
  held := held

/-- A programmable draw, whose count `decode_draw` has checked. -/
theorem Placed.programmable (placed : Placed submission) (counted : draw.counted = true)
    (programmable : draw.programmable.isSome = true) :
    Placed { submission with draws := submission.draws ++ [draw] } := by
  have whole : draw.isInline = false := by
    rw [PlannedDraw.isInline, Option.isNone_eq_false_iff.mpr programmable, Bool.false_and]
  have pushed := placed.push draw [] counted (by rw [whole]; exact nofun)
    (by rw [List.append_nil]; exact placed.held)
  rwa [List.append_nil] at pushed

/-- A fixed draw. -/
theorem appendDraw_placed {decoded : DecodedDraw δ} (placed : Placed submission)
    (triangles : Triangles decoded.vertices)
    (h : appendDraw alloc submission decoded = (.ok after : Except (IrSubmitError E) _)) :
    Placed after := by
  unfold appendDraw at h
  split at h
  · rename_i vertices hvertices
    rw [hvertices] at triangles
    obtain ⟨stop, hstop, h⟩ := except_bind_eq_ok.mp h
    obtain ⟨-, -, h⟩ := except_bind_eq_ok.mp h
    obtain ⟨-, -, h⟩ := except_bind_eq_ok.mp h
    cases h
    obtain ⟨fits, rfl⟩ := checkedAddUsize_iff.mp (okOr_eq_ok.mp hstop)
    rw [Nat.add_sub_cancel_left]
    refine placed.push _ _ (drawCountValid_none triangles) (fun _ => ?_) ?_
    · exact Nat.le_of_eq List.length_append.symm
    · rwa [List.length_append]
  · rename_i binding first count hvertices
    rw [hvertices] at triangles
    obtain ⟨-, -, h⟩ := except_bind_eq_ok.mp h
    cases h
    have pushed := placed.push (decoded.planned first count (some binding)) []
      (drawCountValid_none triangles) nofun (by rw [List.append_nil]; exact placed.held)
    rwa [List.append_nil] at pushed

/-- `finish_pass` splits the passes that are lowered, and no other. -/
theorem finishPass_eq {alloc : Allocator} {pass : ExecutionPass τ δ} (placed : Placed pass.submission)
    (preserves : Bool) (fuel : Nat) :
    (Lowered pass ∧ finishPass (E := E) alloc pass preserves fuel = splitPass alloc pass fuel) ∨
      (pass.submission.draws = [] ∧ finishPass (E := E) alloc pass preserves fuel =
        some (if preserves then .ok [] else .error .unsupported)) := by
  unfold finishPass
  split
  · rename_i nothing
    exact .inr ⟨List.isEmpty_iff.mp nothing.1, by cases preserves <;> rfl⟩
  · rename_i more
    rw [not_and_or, List.isEmpty_iff, Bool.not_eq_false] at more
    exact .inl ⟨⟨placed, more⟩, rfl⟩

end Lowering

/-! ## Budgets -/

section Budgets

variable {v d : Nat}

theorem transportBytes_eq_some {bytes : Nat} :
    transportBytes v d = some bytes ↔ v * 40 + 6144 + d * 256 < 2 ^ 64 ∧
      v * 40 + 6144 + d * 256 = bytes := by
  simp only [transportBytes, Option.bind_eq_bind, Option.bind_eq_some_iff, checkedMulUsize_eq_some,
    checkedAddUsize_iff, IR_INLINE_VERTEX_BYTES, IR_COMMAND_FIXED_BUDGET, IR_DRAW_COMMAND_BUDGET]
  constructor
  · rintro ⟨_, ⟨-, rfl⟩, _, ⟨-, rfl⟩, _, ⟨-, rfl⟩, fits, rfl⟩
    exact ⟨fits, rfl⟩
  · rintro ⟨fits, rfl⟩
    exact ⟨_, ⟨by omega, rfl⟩, _, ⟨by omega, rfl⟩, _, ⟨by omega, rfl⟩, fits, rfl⟩

theorem chunkFitsTransport_iff :
    chunkFitsTransport v d = true ↔ v * 40 + 6144 + d * 256 ≤ 65536 := by
  rw [chunkFitsTransport, Option.any_eq_true]
  constructor
  · rintro ⟨bytes, hbytes, fits⟩
    obtain ⟨-, rfl⟩ := transportBytes_eq_some.mp hbytes
    exact of_decide_eq_true fits
  · intro fits
    exact ⟨_, transportBytes_eq_some.mpr ⟨by omega, rfl⟩, decide_eq_true fits⟩

/-- As many vertices as there is capacity for fit. -/
theorem inlineVertexCapacity_fits {c : Nat} (positive : 0 < c)
    (within : c ≤ inlineVertexCapacity v d) :
    v + c ≤ 1440 ∧ (v + c) * 40 + 6144 + d * 256 ≤ 65536 := by
  unfold inlineVertexCapacity at within
  split at within
  · omega
  · rename_i used hused
    obtain ⟨-, rfl⟩ := transportBytes_eq_some.mp hused
    simp only [IR_COMMAND_TRANSPORT_BYTES, IR_INLINE_VERTEX_BYTES, MAX_IR_VERTICES] at within
    omega

theorem inlineVertexCapacity_empty : inlineVertexCapacity 0 1 = 1440 := by decide

end Budgets

/-! ## The open chunk -/

/-- The open chunk, within the budgets and of one kind. -/
structure Room (vertices : List IrVertex) (draws : List (PlannedDraw δ)) : Prop where
  vertices_le : vertices.length ≤ 1440
  draws_le : draws.length ≤ 64
  bytes_le : vertices.length * 40 + 6144 + draws.length * 256 ≤ 65536
  counted : ∀ draw ∈ draws, draw.counted = true
  placed : ∀ draw ∈ draws, draw.isInline = true →
    draw.startVertex + draw.vertexCount ≤ vertices.length
  uniform : Uniform draws
  budget : 1 < draws.length → draws.head?.any (fun draw => draw.programmable.isSome) = true →
    overBudget draws = false
  fixed : vertices ≠ [] → ∃ draw ∈ draws, draw.programmable.isSome = false

section Room

variable {vertices more : List IrVertex} {draws : List (PlannedDraw δ)} {draw first : PlannedDraw δ}

theorem room_nil : Room ([] : List IrVertex) ([] : List (PlannedDraw δ)) where
  vertices_le := Nat.zero_le _
  draws_le := Nat.zero_le _
  bytes_le := by simp
  counted := by simp
  placed := by simp
  uniform := .inl (by simp)
  budget := by simp
  fixed := fun h => absurd rfl h

/-- Without draws there are no vertices. -/
theorem Room.vertices_nil (room : Room vertices ([] : List (PlannedDraw δ))) : vertices = [] := by
  by_contra h
  obtain ⟨draw, member, -⟩ := room.fixed h
  cases member

/-- A chunk of fixed draws has room for one more, if the budgets do. -/
theorem Room.push_fixed (room : Room vertices draws) (draw : PlannedDraw δ) (more : List IrVertex)
    (fixed : ∀ other ∈ draws, other.programmable.isSome = false)
    (hdraw : draw.programmable.isSome = false) (counted : draw.counted = true)
    (placed : draw.isInline = true →
      draw.startVertex + draw.vertexCount ≤ (vertices ++ more).length)
    (vertices_le : (vertices ++ more).length ≤ 1440) (draws_le : draws.length + 1 ≤ 64)
    (bytes_le : (vertices ++ more).length * 40 + 6144 + (draws.length + 1) * 256 ≤ 65536) :
    Room (vertices ++ more) (draws ++ [draw]) := by
  have count : (draws ++ [draw]).length = draws.length + 1 := List.length_append
  have allFixed : ∀ other ∈ draws ++ [draw], other.programmable.isSome = false := by
    intro other member
    obtain member | member := List.mem_append.mp member
    · exact fixed other member
    · rwa [List.mem_singleton.mp member]
  constructor
  · exact vertices_le
  · rwa [count]
  · rwa [count]
  · intro other member
    obtain member | member := List.mem_append.mp member
    · exact room.counted other member
    · rwa [List.mem_singleton.mp member]
  · intro other member hinline
    obtain member | member := List.mem_append.mp member
    · have inside := room.placed other member hinline
      rw [List.length_append]
      omega
    · rw [List.mem_singleton.mp member] at hinline ⊢
      exact placed hinline
  · exact .inl allFixed
  · intro _ programmable
    obtain ⟨first, hfirst, some⟩ := (Option.any_eq_true ..).mp programmable
    rw [allFixed first (List.mem_of_mem_head? hfirst)] at some
    cases some
  · exact fun _ => ⟨draw, by simp, hdraw⟩

/-- Draws with an estimate are programmable and of the first one's pipeline. -/
theorem addProgrammableDraw_all {place : UInt64} {bytes total : Nat}
    (h : draws.foldlM (addProgrammableDraw place) bytes = some total) :
    ∀ draw ∈ draws, draw.programmable.isSome = true ∧ draw.pipelinePlace = place := by
  induction draws generalizing bytes with
  | nil => simp
  | cons first rest ih =>
      rw [List.foldlM_cons, Option.bind_eq_bind, Option.bind_eq_some_iff] at h
      obtain ⟨sum, added, h⟩ := h
      rw [addProgrammableDraw, Option.bind_eq_bind, Option.bind_eq_some_iff] at added
      obtain ⟨programmable, hprogrammable, added⟩ := added
      split at added
      · rename_i same
        rintro draw member
        obtain rfl | member := List.mem_cons.mp member
        · exact ⟨by rw [hprogrammable]; rfl, same.symm⟩
        · exact ih h draw member
      · cases added

theorem programmableChunkBytes_all {bytes : Nat}
    (h : programmableChunkBytes (first :: draws) = some bytes) :
    ∀ draw ∈ first :: draws,
      draw.programmable.isSome = true ∧ draw.pipelinePlace = first.pipelinePlace := by
  rw [programmableChunkBytes, Option.bind_eq_bind, Option.bind_eq_some_iff] at h
  obtain ⟨programmable, hprogrammable, h⟩ := h
  simp only [Option.bind_eq_bind, Option.bind_eq_some_iff] at h
  obtain ⟨-, -, total, -, h⟩ := h
  intro draw member
  obtain rfl | member := List.mem_cons.mp member
  · exact ⟨by rw [hprogrammable]; rfl, rfl⟩
  · exact addProgrammableDraw_all h draw member

/-- A chunk within the estimate has room for a programmable draw. -/
theorem Room.push_programmable (room : Room vertices draws)
    (hdraw : draw.programmable.isSome = true) (counted : draw.counted = true)
    (stays : flushesBefore draws draw = false) :
    Room vertices (draws ++ [draw]) := by
  have notInline : draw.isInline = false := by
    rw [PlannedDraw.isInline, Option.isNone_eq_false_iff.mpr hdraw, Bool.false_and]
  cases draws with
  | nil =>
      obtain rfl := room.vertices_nil
      exact
        { vertices_le := Nat.zero_le _
          draws_le := by simp
          bytes_le := by simp
          counted := by simpa using counted
          placed := by simp [notInline]
          uniform := .inr ⟨draw.pipelinePlace, by simpa using hdraw⟩
          budget := by simp
          fixed := fun h => absurd rfl h }
  | cons first rest =>
      rw [flushesBefore, if_pos hdraw, Bool.or_eq_false_iff] at stays
      obtain ⟨few, within⟩ := stays
      have few : (first :: rest).length < 64 := Nat.lt_of_not_le (of_decide_eq_false few)
      obtain ⟨bytes, hbytes⟩ : ∃ bytes, programmableChunkBytes (first :: (rest ++ [draw])) = some bytes := by
        cases hbytes : programmableChunkBytes (first :: (rest ++ [draw])) with
        | some bytes => exact ⟨bytes, rfl⟩
        | none =>
            rw [overBudget, List.cons_append, hbytes] at within
            cases within
      have all := programmableChunkBytes_all hbytes
      have novertices : vertices = [] := by
        by_contra h
        obtain ⟨other, member, hfixed⟩ := room.fixed h
        rw [(all other (List.mem_append_left [draw] member)).1] at hfixed
        cases hfixed
      subst novertices
      exact
        { vertices_le := Nat.zero_le _
          draws_le := by rwa [List.length_append, List.length_singleton]
          bytes_le := by
            rw [List.length_append, List.length_singleton, List.length_nil]
            omega
          counted := fun other member => by
            obtain member | member := List.mem_append.mp member
            · exact room.counted other member
            · rwa [List.mem_singleton.mp member]
          placed := fun other member hinline => by
            obtain member | member := List.mem_append.mp member
            · exact room.placed other member hinline
            · rw [List.mem_singleton.mp member, notInline] at hinline
              cases hinline
          uniform := .inr ⟨first.pipelinePlace, all⟩
          budget := fun _ _ => within
          fixed := fun h => absurd rfl h }

/-- The check of a chunk accepts a chunk in which there is something to do. -/
theorem Room.valid {submission : IrSubmission δ}
    (room : Room submission.vertices submission.draws)
    (something : submission.draws ≠ [] ∨ submissionHasClear submission = true) :
    validateChunk submission = (.ok () : Except (IrSubmitError E) Unit) := by
  rw [validateChunk, except_bind_eq_ok]
  refine ⟨(), failIf_eq_ok.mpr ?_, forEach_eq_ok.mpr fun draw member => ?_⟩
  · rintro (⟨empty, noclear⟩ | vertices | draws | bytes | ⟨many, programmable, past⟩)
    · obtain some | clear := something
      · exact some (List.isEmpty_iff.mp empty)
      · rw [clear] at noclear
        cases noclear
    · exact absurd room.vertices_le (Nat.not_le_of_lt vertices)
    · exact absurd room.draws_le (Nat.not_le_of_lt draws)
    · rw [chunkFitsTransport_iff.mpr room.bytes_le] at bytes
      cases bytes
    · rw [room.budget many programmable] at past
      cases past
  · rw [validateDraw, except_bind_eq_ok]
    refine ⟨(), failIf_eq_ok.mpr ?_, failIf_eq_ok.mpr ?_⟩
    · have counted := room.counted draw member
      rw [PlannedDraw.counted] at counted
      rw [counted]
      exact nofun
    · rintro ⟨fixed, inline, past⟩
      have inside := room.placed draw member (by rw [PlannedDraw.isInline, fixed, inline]; rfl)
      have fits : draw.startVertex + draw.vertexCount < 2 ^ 64 := by
        have few := room.vertices_le
        omega
      rw [checkedAddUsize_iff.mpr ⟨fits, rfl⟩, Option.all_some, decide_eq_true_eq] at past
      exact absurd inside (Nat.not_le_of_lt past)

/-- Vertices that are appended change nothing of what is drawn. -/
theorem Room.drawn_append (room : Room vertices draws) :
    draws.map (drawn (vertices ++ more)) = draws.map (drawn vertices) := by
  refine List.map_congr_left fun draw member => ?_
  unfold drawn
  split
  · rename_i hinline
    have inside := room.placed draw member hinline
    rw [List.drop_append_of_le_length (by omega), List.take_append_of_le_length]
    rw [List.length_drop]
    omega
  · rfl

end Room

end Sgfx.Virgl.Passes
