import Sgfx.Session

/-!
# Vertex fetch bounds

A programmable draw reads, for every vertex and every instance of its ranges, the attributes of one
record of each bound slot.  A slot stepped per vertex reads the record of the vertex; a slot stepped
per instance starts at the record of the first instance and advances once every `instanceDivisor`
instances.  The encoder computes only the end of the last record, in machine numbers, and compares
it with the size of the buffer.  Here every byte of every record is inside the buffer, and every
number the encoder computes on the way is the mathematical one.

## Main Definitions

* `VertexBufferLayout.record`, `ProgrammableDraw.Reads` — what a draw reads
* `RenderPassEncoder.SlotInside` — a bound slot of which every byte read is in its buffer
* `ProgrammableDraw.SlotExact` — the encoder's arithmetic on a slot does not wrap

## Main Results

* `RenderPassEncoder.checkVertexSlot_inside`
* `vertex_fetch_in_bounds` — for every accepted non-indexed programmable draw
-/

namespace Sgfx

open Fallible

/-! ## What a draw reads -/

/-- The ranges of a non-indexed draw. -/
structure ProgrammableDraw where
  count : UInt32
  first : UInt32
  instances : UInt32
  firstInstance : UInt32

/-- The record of a slot that one vertex of one instance reads. -/
def VertexBufferLayout.record (l : VertexBufferLayout) (firstInstance vertex inst : Nat) : Nat :=
  match l.stepMode with
  | .vertex => vertex
  | .perInstance => firstInstance + (inst - firstInstance) / l.instanceDivisor.toNat

/-- Some vertex of some instance reads this byte of a slot, counted from the slot's offset. -/
def ProgrammableDraw.Reads (d : ProgrammableDraw) (l : VertexBufferLayout) (byte : Nat) : Prop :=
  ∃ vertex inst, d.first.toNat ≤ vertex ∧ vertex < d.first.toNat + d.count.toNat ∧
    d.firstInstance.toNat ≤ inst ∧ inst < d.firstInstance.toNat + d.instances.toNat ∧
    ∃ a ∈ l.attributes, ∃ k < a.format.byteSize.toNat,
      byte = l.record d.firstInstance.toNat vertex inst * l.stride.toNat + a.offset.toNat + k

/-- The slot is bound, and every byte read through it is in the buffer. -/
def RenderPassEncoder.SlotInside (T : ResourceTable) (p : RenderPassEncoder)
    (d : ProgrammableDraw) (slot : VertexBufferLayout × Nat) : Prop :=
  ∃ buffer offset desc, p.vertexBuffers[slot.2]?.join = some (buffer, offset) ∧
    T.buffer buffer = .ok desc ∧
    ∀ byte, d.Reads slot.1 byte → offset.toNat + byte < desc.size.toNat

/-! ## The encoder's arithmetic -/

/-- The last record the encoder computes for a slot. -/
def ProgrammableDraw.lastRecord (d : ProgrammableDraw) (l : VertexBufferLayout) : UInt32 :=
  match l.stepMode with
  | .vertex => d.first + d.count - 1
  | .perInstance => d.firstInstance + (d.instances - 1) / l.instanceDivisor

/-- None of the numbers the encoder computes for a slot at `offset` wraps. -/
structure ProgrammableDraw.SlotExact (d : ProgrammableDraw) (l : VertexBufferLayout)
    (offset : UInt64) : Prop where
  vertices : (d.first + d.count).toNat = d.first.toNat + d.count.toNat
  lastVertex : (d.first + d.count - 1).toNat + 1 = d.first.toNat + d.count.toNat
  instances : (d.firstInstance + d.instances).toNat = d.firstInstance.toNat + d.instances.toNat
  lastInstance : (d.instances - 1).toNat + 1 = d.instances.toNat
  attributes : ∀ a ∈ l.attributes, (a.offset.toUInt64 + a.format.byteSize.toUInt64).toNat =
    a.offset.toNat + a.format.byteSize.toNat
  record : l.stepMode = .perInstance → (d.lastRecord l).toNat =
    d.firstInstance.toNat + (d.instances.toNat - 1) / l.instanceDivisor.toNat
  start : ((d.lastRecord l).toUInt64 * l.stride.toUInt64).toNat =
    (d.lastRecord l).toNat * l.stride.toNat
  bytes : ((d.lastRecord l).toUInt64 * l.stride.toUInt64 + l.attributeEnd).toNat =
    (d.lastRecord l).toNat * l.stride.toNat + l.attributeEnd.toNat
  finish : (offset + ((d.lastRecord l).toUInt64 * l.stride.toUInt64 + l.attributeEnd)).toNat =
    offset.toNat + ((d.lastRecord l).toNat * l.stride.toNat + l.attributeEnd.toNat)

/-- Subtracting one from a non-zero number is exact. -/
theorem pred_toNat {a : UInt32} (nonzero : a ≠ 0) : (a - 1).toNat + 1 = a.toNat := by
  have positive : a.toNat ≠ 0 := fun zero => nonzero (UInt32.toNat_inj.mp zero)
  have atLeast : (1 : UInt32).toNat ≤ a.toNat := Nat.one_le_iff_ne_zero.mpr positive
  rw [UInt32.toNat_sub_of_le _ _ (UInt32.le_iff_toNat_le.mpr atLeast)]
  exact Nat.sub_add_cancel atLeast

namespace VertexBufferLayout

variable {l : VertexBufferLayout}

/-- The end of an attribute, computed in 64 bits. -/
theorem attribute_toNat (a : VertexAttribute) :
    (a.offset.toUInt64 + a.format.byteSize.toUInt64).toNat =
      a.offset.toNat + a.format.byteSize.toNat := by
  have offset := a.offset.toNat_lt
  have size := a.format.byteSize.toNat_lt
  rw [UInt64.toNat_add, UInt32.toNat_toUInt64, UInt32.toNat_toUInt64]
  omega

theorem le_max (a b : UInt64) : a ≤ max a b ∧ b ≤ max a b := by
  show a ≤ (if a ≤ b then b else a) ∧ b ≤ if a ≤ b then b else a
  split
  · exact ⟨by assumption, UInt64.le_refl _⟩
  · exact ⟨UInt64.le_refl _, (UInt64.le_total a b).resolve_left (by assumption)⟩

theorem le_foldl_max (ends : List UInt64) (start : UInt64) :
    start ≤ ends.foldl max start ∧ ∀ e ∈ ends, e ≤ ends.foldl max start := by
  induction ends generalizing start with
  | nil => exact ⟨UInt64.le_refl _, fun e member => (List.not_mem_nil member).elim⟩
  | cons e rest ih =>
      obtain ⟨above, each⟩ := ih (max start e)
      obtain ⟨left, right⟩ := le_max start e
      refine ⟨UInt64.le_trans left above, fun e' member => ?_⟩
      rcases List.mem_cons.mp member with rfl | member
      · exact UInt64.le_trans right above
      · exact each e' member

/-- Every attribute ends before `attributeEnd`. -/
theorem attribute_le_end {a : VertexAttribute} (member : a ∈ l.attributes) :
    a.offset.toNat + a.format.byteSize.toNat ≤ l.attributeEnd.toNat := by
  rw [← attribute_toNat]
  exact (le_foldl_max _ 0).2 _ (List.mem_map_of_mem member)

/-- A record read is not past the last one. -/
theorem record_le {d : ProgrammableDraw} {vertex inst last : Nat}
    (vertexLt : vertex < d.first.toNat + d.count.toNat)
    (instGe : d.firstInstance.toNat ≤ inst)
    (instLt : inst < d.firstInstance.toNat + d.instances.toNat)
    (perVertex : l.stepMode = .vertex → last + 1 = d.first.toNat + d.count.toNat)
    (perInstance : l.stepMode = .perInstance →
      last = d.firstInstance.toNat + (d.instances.toNat - 1) / l.instanceDivisor.toNat) :
    l.record d.firstInstance.toNat vertex inst ≤ last := by
  unfold record
  cases h : l.stepMode with
  | vertex =>
      have := perVertex h
      show vertex ≤ last
      omega
  | perInstance =>
      rw [perInstance h]
      exact Nat.add_le_add_left (Nat.div_le_div_right (by omega)) _

end VertexBufferLayout

/-! ## Accepted slots -/

namespace RenderPassEncoder

variable {T : ResourceTable} {p : RenderPassEncoder} {d : ProgrammableDraw}

/-- What a draw checks before its slots. -/
structure RangesExact (d : ProgrammableDraw) : Prop where
  vertices : (d.first + d.count).toNat = d.first.toNat + d.count.toNat
  lastVertex : (d.first + d.count - 1).toNat + 1 = d.first.toNat + d.count.toNat
  instances : (d.firstInstance + d.instances).toNat = d.firstInstance.toNat + d.instances.toNat
  lastInstance : (d.instances - 1).toNat + 1 = d.instances.toNat

/-- What follows is done with the last record, which is exact. -/
theorem lastRecord_ok {α : Type} {l : VertexBufferLayout} (ranges : RangesExact d)
    {rest : UInt32 → Except Error α} {a : α}
    (h : (match l.stepMode with
      | .vertex => pure (d.first + d.count - 1) >>= rest
      | .perInstance => okOr (checkedAdd32 d.firstInstance ((d.instances - 1) / l.instanceDivisor))
          Error.overflow >>= rest) = .ok a) :
    (l.stepMode = .perInstance → (d.lastRecord l).toNat =
      d.firstInstance.toNat + (d.instances.toNat - 1) / l.instanceDivisor.toNat) ∧
      rest (d.lastRecord l) = .ok a := by
  unfold ProgrammableDraw.lastRecord
  cases mode : l.stepMode with
  | vertex =>
      rw [mode] at h
      exact ⟨fun other => (VertexStepMode.noConfusion other), h⟩
  | perInstance =>
      rw [mode] at h
      obtain ⟨last, hlast, h⟩ := except_bind_eq_ok.mp h
      obtain ⟨rfl, exact⟩ := checkedAdd32_eq_some (okOr_eq_ok.mp hlast)
      refine ⟨fun _ => ?_, h⟩
      have lastInstance := ranges.lastInstance
      show (d.firstInstance + (d.instances - 1) / l.instanceDivisor).toNat = _
      rw [exact, UInt32.toNat_div]
      congr 2
      omega

/-- An accepted slot: its arithmetic is exact, and what is read through it is inside. -/
theorem checkVertexSlot_inside (ranges : RangesExact d) {slot : VertexBufferLayout × Nat} {u : Unit}
    (h : p.checkVertexSlot T (d.first + d.count - 1) d.instances d.firstInstance slot = .ok u) :
    p.SlotInside T d slot ∧ ∀ vertex ∈ p.vertexBuffers[slot.2]?.join,
      d.SlotExact slot.1 vertex.2 := by
  rw [checkVertexSlot, except_bind_eq_ok] at h
  obtain ⟨⟨buffer, offset⟩, bound, h⟩ := h
  rw [except_bind_eq_ok] at h
  obtain ⟨desc, found, h⟩ := h
  rw [except_bind_eq_ok] at h
  obtain ⟨_, -, h⟩ := h
  rw [except_bind_eq_ok] at h
  obtain ⟨_, -, h⟩ := h
  obtain ⟨perInstance, h⟩ := lastRecord_ok ranges h
  rw [except_bind_eq_ok] at h
  obtain ⟨bytes, hbytes, h⟩ := h
  rw [okOr_eq_ok] at bound
  rw [okOr_eq_ok, Option.bind_eq_some_iff] at hbytes
  obtain ⟨start, hstart, hbytes⟩ := hbytes
  obtain ⟨rfl, startExact⟩ := checkedMul64_eq_some hstart
  obtain ⟨rfl, bytesExact⟩ := checkedAdd64_eq_some hbytes
  simp only [CommandEncoder.validateByteRange, except_bind_eq_ok, okOr_eq_ok, failIf_eq_ok] at h
  obtain ⟨finish, hfinish, inside⟩ := h
  obtain ⟨rfl, finishExact⟩ := checkedAdd64_eq_some hfinish
  rw [UInt32.toNat_toUInt64, UInt32.toNat_toUInt64] at startExact
  rw [startExact] at bytesExact
  rw [bytesExact] at finishExact
  have inside : offset.toNat + ((d.lastRecord slot.1).toNat * slot.1.stride.toNat +
      slot.1.attributeEnd.toNat) ≤ desc.size.toNat := by
    rw [← finishExact]
    exact Nat.le_of_not_lt inside
  refine ⟨⟨buffer, offset, desc, bound, found, ?_⟩, ?_⟩
  · rintro byte ⟨vertex, inst, -, vertexLt, instGe, instLt, a, member, k, hk, rfl⟩
    have within := VertexBufferLayout.attribute_le_end member
    have perVertex : slot.1.stepMode = .vertex →
        (d.lastRecord slot.1).toNat + 1 = d.first.toNat + d.count.toNat := by
      intro mode
      rw [ProgrammableDraw.lastRecord, mode]
      exact ranges.lastVertex
    have record := VertexBufferLayout.record_le (l := slot.1) vertexLt instGe instLt perVertex
      perInstance
    have scaled := Nat.mul_le_mul_right slot.1.stride.toNat record
    omega
  · intro vertex member
    rw [bound] at member
    obtain rfl : (buffer, offset) = vertex := Option.some.inj member
    exact ⟨ranges.vertices, ranges.lastVertex, ranges.instances, ranges.lastInstance,
      fun a _ => VertexBufferLayout.attribute_toNat a, perInstance, startExact, bytesExact,
      finishExact⟩

/-! ## Accepted draws -/

/-- Every slot of the pipeline in force is read inside its buffer, by arithmetic that is exact. -/
def FetchesInside (T : ResourceTable) (p : RenderPassEncoder) (d : ProgrammableDraw) : Prop :=
  ∃ pipeline desc, p.programmablePipeline = some pipeline ∧
    T.programmableRenderPipelineShared pipeline = .ok desc ∧
    ∀ slot ∈ desc.vertexBuffers.zipIdx, p.SlotInside T d slot ∧
      ∀ vertex ∈ p.vertexBuffers[slot.2]?.join, d.SlotExact slot.1 vertex.2

theorem drawProgrammable_inside {alloc : Allocator} {u : Unit} {p' : RenderPassEncoder}
    (h : drawProgrammable T alloc d.count d.first d.instances d.firstInstance p = (.ok u, p')) :
    p.FetchesInside T d := by
  simp only [drawProgrammable, read_bind_run, lift_bind_eq_ok, failIf_eq_ok, okOr_eq_ok,
    forEach_eq_ok] at h
  obtain ⟨_, some_, ends, hends, desc, hdesc, finish, hfinish, _, nonzero, _, slots, -⟩ := h
  obtain ⟨rfl, endsExact⟩ := checkedAdd32_eq_some hends
  obtain ⟨rfl, finishExact⟩ := checkedAdd32_eq_some hfinish
  have ranges : RangesExact d :=
    ⟨finishExact, finishExact ▸ pred_toNat nonzero, endsExact, pred_toNat some_⟩
  simp only [validateProgrammableCount, except_bind_eq_ok, okOr_eq_ok] at hdesc
  obtain ⟨pipeline, hpipeline, found, hfound, -, -, same⟩ := hdesc
  obtain rfl : found = desc := Except.ok.inj same
  exact ⟨pipeline, found, hpipeline, hfound, fun slot member =>
    checkVertexSlot_inside ranges (slots slot member)⟩

end RenderPassEncoder

/-- The non-indexed programmable draw that a call asks of a pass. -/
def RenderCall.programmableDraw (p : RenderPassEncoder) : RenderCall → Option ProgrammableDraw
  | .draw count first =>
      if p.programmablePipeline.isSome then some ⟨count, first, 1, 0⟩ else none
  | .drawInstanced count first instances firstInstance =>
      some ⟨count, first, instances, firstInstance⟩
  | _ => none

/-- **Vertex fetch bounds.**  When a call that draws without indices from a programmable pipeline is
accepted, every byte of every attribute that any of its vertices and instances reads is inside the
bound buffer, and no number computed to decide so has wrapped. -/
theorem vertex_fetch_in_bounds (T : ResourceTable) (alloc : Allocator) (p : RenderPassEncoder)
    (c : RenderCall) :
    Ensures (c.run T alloc) p (fun _ _ => ∀ d ∈ c.programmableDraw p, p.FetchesInside T d)
      fun _ _ => True := by
  unfold Ensures
  split
  · rename_i u p' h
    intro d asked
    cases c with
    | draw count first =>
        rw [RenderCall.programmableDraw] at asked
        split at asked
        · rename_i programmable
          obtain rfl : ⟨count, first, 1, 0⟩ = d := Option.some.inj asked
          rw [RenderCall.run, RenderPassEncoder.draw, read_bind_run, if_pos programmable] at h
          exact RenderPassEncoder.drawProgrammable_inside h
        · cases asked
    | drawInstanced count first instances firstInstance =>
        obtain rfl : ⟨count, first, instances, firstInstance⟩ = d := Option.some.inj asked
        exact RenderPassEncoder.drawProgrammable_inside h
    | _ => cases asked
  · trivial

end Sgfx
