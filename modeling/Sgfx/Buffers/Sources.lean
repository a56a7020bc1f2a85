import Sgfx.Library.SliceCopies
import Sgfx.Buffers.Updates

/-!
# Sparse and contiguous sources

A sparse source stands for the buffer that it would be if the overlays were written over the
accepted bytes.  Copying a range from either gives the same bytes, and no slice is indexed
out of its bounds on the way.

## Main Definitions

* `Overlays` — overlays in order inside a buffer
* `materialized` — the buffer that a sparse source stands for
* `BufferSource.copyInto` — `copy_range` with the bounds of every slice checked

## Main Results

* `BufferSource.copyInto_eq` — no bound is ever missed
* `BufferSource.copyInto_materialized`
-/

namespace Sgfx

open Ranges

/-! ## Checked copies -/

/-- `copy_intersection`; nothing if a slice is indexed out of bounds. -/
def copyIntersectionInto (source : List UInt8) (sourceStart : Nat) (requested : ByteRange)
    (destination : List UInt8) : Option (List UInt8) :=
  let first := max requested.start sourceStart
  let last := min requested.stop (sourceStart + source.length)
  if last ≤ first then some destination
  else do
    let destinationStart := first - requested.start
    let sourceOffset := first - sourceStart
    let count := last - first
    let data ← indexRange source sourceOffset (sourceOffset + count)
    copyFromSlice destination destinationStart (destinationStart + count) data

/-- `copy_range` into a destination; nothing if a slice is indexed out of bounds. -/
def BufferSource.copyInto (source : BufferSource) (range : ByteRange)
    (destination : List UInt8) : Option (Except Error Unit × List UInt8) :=
  if range.stop < range.start ∨ range.stop - range.start ≠ destination.length ∨
      source.len < range.stop then
    some (.error .outOfBounds, destination)
  else
    let destination := List.replicate destination.length 0
    match source with
    | .contiguous bytes =>
        match indexRange bytes range.start range.stop with
        | none => some (.error .outOfBounds, destination)
        | some source => do
            let copied ← copyFromSlice destination 0 destination.length source
            return (.ok (), copied)
    | .sparse base overlays _ => do
        let destination ← match base with
          | some base => copyIntersectionInto base 0 range destination
          | none => some destination
        let copied ← (intersecting overlays range BufferOverlay.range).foldlM
          (fun destination overlay =>
            copyIntersectionInto overlay.bytes overlay.range.start range destination) destination
        return (.ok (), copied)

/-- The copy of an intersection is in bounds on both sides. -/
theorem copyIntersectionInto_eq {source destination : List UInt8} {sourceStart : Nat}
    {requested : ByteRange} (length : destination.length = requested.stop - requested.start) :
    copyIntersectionInto source sourceStart requested destination =
      some (copyIntersection source sourceStart requested destination) := by
  rw [copyIntersectionInto, copyIntersection]
  split
  · rfl
  · rename_i meet
    have data : indexRange source (max requested.start sourceStart - sourceStart)
        (max requested.start sourceStart - sourceStart +
          (min requested.stop (sourceStart + source.length) - max requested.start sourceStart)) =
        some ((source.drop (max requested.start sourceStart - sourceStart)).take
          (min requested.stop (sourceStart + source.length) -
            max requested.start sourceStart)) := by
      rw [indexRange_some (Nat.le_add_right ..) (by omega), Nat.add_sub_cancel_left]
    dsimp only
    rw [data]
    refine copyFromSlice_some (by omega) (Nat.le_add_right ..) ?_
    rw [length_take_drop (by omega), Nat.add_sub_cancel_left]

theorem copyOverlaysInto_eq {overlays : List BufferOverlay} {requested : ByteRange}
    {destination : List UInt8} (length : destination.length = requested.stop - requested.start) :
    overlays.foldlM (fun destination overlay =>
        copyIntersectionInto overlay.bytes overlay.range.start requested destination)
        destination =
      some (overlays.foldl (fun destination overlay =>
        copyIntersection overlay.bytes overlay.range.start requested destination)
        destination) := by
  induction overlays generalizing destination with
  | nil => rfl
  | cons overlay rest ih =>
      rw [List.foldlM_cons, List.foldl_cons, copyIntersectionInto_eq length]
      exact ih ((copyIntersection_length length).trans length)

/-- No slice is indexed out of its bounds, whatever the source, the range and the
destination. -/
theorem BufferSource.copyInto_eq (source : BufferSource) (range : ByteRange)
    (destination : List UInt8) :
    source.copyInto range destination =
      some (match source.copyRange range destination.length with
        | .ok copied => (.ok (), copied)
        | .error e => (.error e, destination)) := by
  rw [copyInto, copyRange.eq_def]
  split
  · rfl
  · rename_i fits
    have zeros : (List.replicate destination.length (0 : UInt8)).length =
        range.stop - range.start := by
      rw [List.length_replicate]
      omega
    cases source with
    | contiguous bytes =>
        have inside : range.stop ≤ bytes.length := by
          rw [BufferSource.len] at fits
          omega
        dsimp only
        rw [indexRange_some (by omega) inside]
        dsimp only
        rw [copyFromSlice_some (by rw [List.length_replicate]) (Nat.zero_le _) (by
          rw [length_take_drop (by omega)]
          omega)]
        -- The whole destination is overwritten.
        have rest : (List.replicate destination.length (0 : UInt8)).drop
            (0 + (range.stop - range.start)) = [] := by
          rw [← zeros, Nat.zero_add, List.drop_length]
        refine congrArg (fun copied => some (Except.ok (), copied)) ?_
        rw [Bytes.splice, length_take_drop (by omega), rest, List.take_zero, List.nil_append,
          List.append_nil]
    | sparse base overlays len =>
        cases base with
        | none =>
            show ((_ : Option (List UInt8)) >>= _) = _
            dsimp only [Option.bind_eq_bind, Option.bind_some]
            rw [copyOverlaysInto_eq zeros]
            rfl
        | some base =>
            dsimp only
            rw [copyIntersectionInto_eq zeros]
            dsimp only [Option.bind_eq_bind, Option.bind_some]
            rw [copyOverlaysInto_eq ((copyIntersection_length zeros).trans zeros)]
            rfl

/-! ## Overlays that agree with some bytes -/

open Bytes

/-- An overlay holds its part of some bytes. -/
structure Agrees (bytes : List UInt8) (overlay : BufferOverlay) : Prop where
  ordered : overlay.range.start ≤ overlay.range.stop
  length : overlay.bytes.length = overlay.range.stop - overlay.range.start
  same : ∀ i, overlay.range.start ≤ i → i < overlay.range.stop →
    get overlay.bytes (i - overlay.range.start) = get bytes i

/-- Copying overlays one after another. -/
theorem copyOverlays_agrees {bytes : List UInt8} {range : ByteRange} {overlays : List BufferOverlay}
    (agrees : ∀ overlay ∈ overlays, Agrees bytes overlay) {destination : List UInt8}
    (length : destination.length = range.stop - range.start) :
    (overlays.foldl (fun destination overlay =>
        copyIntersection overlay.bytes overlay.range.start range destination)
        destination).length = destination.length ∧
      ∀ j < destination.length, get (overlays.foldl (fun destination overlay =>
          copyIntersection overlay.bytes overlay.range.start range destination) destination) j =
        if overlays.any fun overlay => decide (overlay.range.start ≤ range.start + j) &&
            decide (range.start + j < overlay.range.stop)
          then get bytes (range.start + j) else get destination j := by
  induction overlays generalizing destination with
  | nil => exact ⟨rfl, fun j _ => rfl⟩
  | cons overlay rest ih =>
      have here := agrees overlay List.mem_cons_self
      have copied : (copyIntersection overlay.bytes overlay.range.start range destination).length =
        destination.length := copyIntersection_length length
      obtain ⟨kept, later⟩ := ih (fun other h => agrees other (List.mem_cons_of_mem _ h))
        (copied.trans length)
      refine ⟨kept.trans copied, fun j bound => ?_⟩
      have ordered := here.ordered
      have copy : get (copyIntersection overlay.bytes overlay.range.start range destination) j = _ :=
        get_copyIntersection length j
      rw [here.length] at copy
      rw [List.foldl_cons, later j (copied.symm ▸ bound), List.any_cons]
      by_cases covered : overlay.range.start ≤ range.start + j ∧ range.start + j < overlay.range.stop
      · have any : (decide (overlay.range.start ≤ range.start + j) &&
            decide (range.start + j < overlay.range.stop)) = true := by
          rw [Bool.and_eq_true, decide_eq_true_eq, decide_eq_true_eq]
          exact covered
        rw [if_pos (by omega), here.same _ covered.1 covered.2] at copy
        rw [any, Bool.true_or, if_pos rfl, copy, ite_self]
      · have any : (decide (overlay.range.start ≤ range.start + j) &&
            decide (range.start + j < overlay.range.stop)) = false := by
          rw [Bool.and_eq_false_iff, decide_eq_false_iff_not, decide_eq_false_iff_not]
          omega
        rw [if_neg (by omega)] at copy
        rw [any, Bool.false_or, copy]

/-- A sparse source holds `bytes` when its overlays do, and its base does outside
them. -/
theorem copyRange_agrees {base : Option (List UInt8)} {overlays : List BufferOverlay}
    {len : Nat} {bytes : List UInt8} (agrees : ∀ overlay ∈ overlays, Agrees bytes overlay)
    (ascending : overlays.Pairwise fun x y => x.range.stop ≤ y.range.start)
    (outside : ∀ i < len, (∀ overlay ∈ overlays,
        ¬ (overlay.range.start ≤ i ∧ i < overlay.range.stop)) → get bytes i = get (base.getD []) i)
    {range : ByteRange} (order : range.start ≤ range.stop) (inside : range.stop ≤ len) :
    (BufferSource.sparse base overlays len).copyRange range (range.stop - range.start) =
      .ok (window bytes range.start (range.stop - range.start)) := by
  -- Copying the overlays over the base, whatever its destination was.
  have layered : ∀ destination : List UInt8, destination.length = range.stop - range.start →
      (∀ j < range.stop - range.start,
        get destination j = get (base.getD []) (range.start + j)) →
      (intersecting overlays range BufferOverlay.range).foldl (fun destination overlay =>
          copyIntersection overlay.bytes overlay.range.start range destination) destination =
        window bytes range.start (range.stop - range.start) := by
    intro destination filled initial
    obtain ⟨sub, -, found⟩ := RangeIndex.intersecting_spec BufferOverlay.range
      (fun overlay h => (agrees overlay h).ordered) ascending range
    obtain ⟨kept, read⟩ := copyOverlays_agrees (fun overlay h => agrees overlay (sub.subset h)) filled
    refine Bytes.ext ?_ fun j bound => ?_
    · rw [kept, filled, window_length]
    · rw [kept] at bound
      have within : j < range.stop - range.start := filled ▸ bound
      rw [read j bound, initial j within, get_window, if_pos within]
      split
      · rfl
      · rename_i uncovered
        refine (outside _ (by omega) fun overlay h covered => uncovered ?_).symm
        refine List.any_eq_true.mpr ⟨overlay, found overlay h (range.start + j) covered.1 covered.2
          (Nat.le_add_right ..) (by omega), ?_⟩
        rw [Bool.and_eq_true, decide_eq_true_eq, decide_eq_true_eq]
        exact covered
  have zeros : (List.replicate (range.stop - range.start) (0 : UInt8)).length =
    range.stop - range.start := List.length_replicate
  have fits : ¬ (range.stop < range.start ∨ range.stop - range.start ≠ range.stop - range.start ∨
      (BufferSource.sparse base overlays len).len < range.stop) := by
    rw [BufferSource.len]
    omega
  rw [BufferSource.copyRange, if_neg fits]
  refine congrArg Except.ok ?_
  cases base with
  | none =>
      refine layered _ zeros fun j _ => ?_
      rw [get_replicate_zero, Option.getD_none, get_of_length_le (Nat.zero_le _)]
  | some base =>
      refine layered _ ((copyIntersection_length zeros).trans zeros) fun j bound => ?_
      rw [get_copyIntersection zeros, zeros, Option.getD_some, Nat.sub_zero, Nat.zero_add]
      split
      · rfl
      · rw [get_replicate_zero, get_of_length_le (by omega)]

/-! ## The buffer of a sparse source -/

/-- Overlays inside a buffer of `len` bytes, in ascending order. -/
structure Overlays (len : Nat) where
  items : List BufferOverlay
  length : ∀ overlay ∈ items, overlay.range.start + overlay.bytes.length = overlay.range.stop
  inside : ∀ overlay ∈ items, overlay.range.stop ≤ len
  ascending : items.Pairwise fun x y => x.range.stop ≤ y.range.start

/-- Where an overlay goes. -/
def BufferOverlay.piece (overlay : BufferOverlay) : Piece := ⟨overlay.range.start, overlay.bytes⟩

/-- The base extended with zeros, with the overlays written over it. -/
def materialized (base : Option (List UInt8)) (overlays : List BufferOverlay) (len : Nat) :
    List UInt8 :=
  overwrite (Bytes.resize (base.getD []) len) (overlays.map BufferOverlay.piece)

namespace Overlays

variable {len : Nat}

theorem piece_stop (overlays : Overlays len) {overlay : BufferOverlay}
    (member : overlay ∈ overlays.items) : overlay.piece.stop = overlay.range.stop :=
  overlays.length overlay member

/-- The overlays are apart in the base extended to the buffer. -/
theorem apart (overlays : Overlays len) (base : Option (List UInt8)) :
    Apart (resize (base.getD []) len).length (overlays.items.map BufferOverlay.piece) where
  inside := by
    intro piece member
    rw [resize_length]
    obtain ⟨overlay, h, rfl⟩ := List.mem_map.mp member
    rw [overlays.piece_stop h]
    exact overlays.inside overlay h
  disjoint := by
    rw [List.pairwise_map]
    refine overlays.ascending.imp_of_mem fun hx hy order => .inl ?_
    rw [overlays.piece_stop hx]
    exact order

theorem materialized_length (overlays : Overlays len) (base : Option (List UInt8)) :
    (materialized base overlays.items len).length = len := by
  exact (overwrite_length (overlays.apart base).inside).trans (resize_length ..)

/-- The overlays agree with the buffer. -/
theorem agrees (overlays : Overlays len) (base : Option (List UInt8)) :
    ∀ overlay ∈ overlays.items, Agrees (materialized base overlays.items len) overlay := by
  intro overlay member
  have length := overlays.length overlay member
  refine ⟨by omega, by omega, fun i low high => ?_⟩
  refine (get_overwrite_piece (overlays.apart base) (List.mem_map_of_mem member) low ?_).symm
  rw [overlays.piece_stop member]
  exact high

/-- Outside the overlays the buffer reads as the base. -/
theorem get_outside (overlays : Overlays len) (base : Option (List UInt8)) {i : Nat}
    (hi : i < len) (outside : ∀ overlay ∈ overlays.items,
      ¬ (overlay.range.start ≤ i ∧ i < overlay.range.stop)) :
    get (materialized base overlays.items len) i = get (base.getD []) i := by
  rw [materialized, get_overwrite_outside (overlays.apart base).inside, get_resize_lt hi]
  intro piece member
  obtain ⟨overlay, h, rfl⟩ := List.mem_map.mp member
  rw [overlays.piece_stop h]
  exact outside overlay h

end Overlays

/-- **Sparse and contiguous sources agree.**  For any base, overlays in order inside the
buffer, range and destination: no slice is indexed out of bounds, and the sparse source
does what the contiguous source of the whole buffer does.  A range inside the buffer that
fits the destination fills it with the bytes of that range, and any other is refused with
the destination as it was. -/
theorem BufferSource.copyInto_materialized {len : Nat} (base : Option (List UInt8))
    (overlays : Overlays len) (range : ByteRange) (destination : List UInt8) :
    (sparse base overlays.items len).copyInto range destination =
        (contiguous (materialized base overlays.items len)).copyInto range destination ∧
      (sparse base overlays.items len).copyInto range destination =
        some (if range.start ≤ range.stop ∧ range.stop ≤ len ∧
            range.stop - range.start = destination.length then
          (.ok (), window (materialized base overlays.items len) range.start destination.length)
        else (.error .outOfBounds, destination)) := by
  have whole : (contiguous (materialized base overlays.items len)).len = len :=
    overlays.materialized_length base
  rw [copyInto_eq, copyInto_eq]
  by_cases fits : range.start ≤ range.stop ∧ range.stop ≤ len ∧
      range.stop - range.start = destination.length
  · obtain ⟨order, inside, length⟩ := fits
    have copied : (sparse base overlays.items len).copyRange range destination.length =
        .ok (window (materialized base overlays.items len) range.start destination.length) := by
      rw [← length]
      exact copyRange_agrees (overlays.agrees base) overlays.ascending
        (fun i hi outside => overlays.get_outside base hi outside) order inside
    have direct : (contiguous (materialized base overlays.items len)).copyRange range
        destination.length =
        .ok (window (materialized base overlays.items len) range.start destination.length) := by
      rw [copyRange.eq_def, whole, if_neg (by omega)]
      refine congrArg Except.ok (Bytes.ext ?_ fun i hi => ?_)
      · rw [length_take_drop (by rw [overlays.materialized_length]; omega), window_length, length]
      · rw [length_take_drop (by rw [overlays.materialized_length]; omega)] at hi
        rw [get_take, if_pos hi, get_drop, get_window, if_pos (length ▸ hi)]
    rw [copied, direct, if_pos ⟨order, inside, length⟩]
    exact ⟨rfl, rfl⟩
  · have refused : ∀ source : BufferSource, source.len = len →
        source.copyRange range destination.length = .error .outOfBounds := by
      intro source hlen
      rw [copyRange.eq_def, hlen, if_pos (by omega)]
    rw [refused _ rfl, refused _ whole, if_neg fits]
    exact ⟨rfl, rfl⟩

end Sgfx
