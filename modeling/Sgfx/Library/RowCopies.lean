import Sgfx.Library.SliceCopies

/-!
# Copies of rows

Rows of a rectangle are copied from one array into another, in each of which a row starts some
stride after the row before it.

## Main Definitions

* `RowCopy` — where rows are read and written
* `RowCopy.pieces`, `RowCopy.packed` — the copies, row by row or in one piece
* `RowCopy.Fits` — the rows are inside both arrays

## Main Results

* `RowCopy.Fits.apart` — the rows do not overlap
* `RowCopy.Fits.get_row`, `RowCopy.Fits.get_outside` — what is read after the copies
* `RowCopy.Fits.overwrite_packed` — rows without gaps are one piece
-/

namespace Sgfx

/-- Where rows are read and written. -/
structure RowCopy where
  sourceStart : Nat
  sourceStride : Nat
  targetStart : Nat
  targetStride : Nat
  rowBytes : Nat
  rows : Nat

namespace RowCopy

/-- Where a row is written. -/
def targetRow (c : RowCopy) (row : Nat) : Nat := c.targetStart + row * c.targetStride

/-- Where a row is read. -/
def sourceRow (c : RowCopy) (row : Nat) : Nat := c.sourceStart + row * c.sourceStride

/-- The copy of one row. -/
def piece (c : RowCopy) (source : List UInt8) (row : Nat) : Piece :=
  ⟨c.targetRow row, (source.drop (c.sourceRow row)).take c.rowBytes⟩

/-- The copies row by row. -/
def pieces (c : RowCopy) (source : List UInt8) : List Piece :=
  (List.range c.rows).map (c.piece source)

/-- All rows as one copy. -/
def packed (c : RowCopy) (source : List UInt8) : Piece :=
  ⟨c.targetStart, (source.drop c.sourceStart).take (c.rows * c.rowBytes)⟩

/-- The rows are inside both arrays, and do not overlap where they are written. -/
structure Fits (c : RowCopy) (sourceLength targetLength : Nat) : Prop where
  source : ∀ row < c.rows, c.sourceRow row + c.rowBytes ≤ sourceLength
  target : ∀ row < c.rows, c.targetRow row + c.rowBytes ≤ targetLength
  tight : c.rowBytes ≤ c.targetStride

variable {c : RowCopy} {source target : List UInt8} {row : Nat}

theorem Fits.piece_stop {targetLength : Nat} (fits : c.Fits source.length targetLength)
    (inside : row < c.rows) : (c.piece source row).stop = c.targetRow row + c.rowBytes :=
  congrArg (c.targetRow row + ·) (length_take_drop (fits.source row inside))

/-- A row is written before the rows after it. -/
theorem targetRow_lt (tight : c.rowBytes ≤ c.targetStride) {later : Nat} (order : row < later) :
    c.targetRow row + c.rowBytes ≤ c.targetRow later := by
  have next : (row + 1) * c.targetStride ≤ later * c.targetStride := Nat.mul_le_mul_right _ order
  rw [Nat.succ_mul] at next
  unfold targetRow
  omega

theorem Fits.apart {targetLength : Nat} (fits : c.Fits source.length targetLength) :
    Apart targetLength (c.pieces source) := by
  refine ⟨?_, ?_⟩
  · intro piece member
    obtain ⟨row, hrow, rfl⟩ := List.mem_map.mp member
    have inside := List.mem_range.mp hrow
    rw [fits.piece_stop inside]
    exact fits.target row inside
  · unfold pieces
    rw [List.pairwise_map]
    refine (List.Pairwise.and_mem.mp List.pairwise_lt_range).imp ?_
    rintro row later ⟨hrow, -, order⟩
    rw [fits.piece_stop (List.mem_range.mp hrow)]
    exact .inl (targetRow_lt fits.tight order)

/-- A byte of a row is the byte of the source row. -/
theorem Fits.get_row (fits : c.Fits source.length target.length) (inside : row < c.rows) {k : Nat}
    (hk : k < c.rowBytes) :
    Bytes.get (overwrite target (c.pieces source)) (c.targetRow row + k) =
      Bytes.get source (c.sourceRow row + k) := by
  have member : c.piece source row ∈ c.pieces source :=
    List.mem_map_of_mem (List.mem_range.mpr inside)
  have low : (c.piece source row).offset ≤ c.targetRow row + k := Nat.le_add_right ..
  have high : c.targetRow row + k < (c.piece source row).stop := by
    rw [fits.piece_stop inside]
    exact Nat.add_lt_add_left hk _
  rw [get_overwrite_piece fits.apart member low high, piece, Nat.add_sub_cancel_left, Bytes.get_take, if_pos hk, Bytes.get_drop]

/-- What is outside the rows stays as it is. -/
theorem Fits.get_outside (fits : c.Fits source.length target.length) {i : Nat}
    (outside : ∀ row < c.rows, ¬ (c.targetRow row ≤ i ∧ i < c.targetRow row + c.rowBytes)) :
    Bytes.get (overwrite target (c.pieces source)) i = Bytes.get target i := by
  refine get_overwrite_outside fits.apart.inside ?_
  intro piece member
  obtain ⟨row, hrow, rfl⟩ := List.mem_map.mp member
  have inside := List.mem_range.mp hrow
  rw [fits.piece_stop inside]
  exact outside row inside

/-! ## Rows without gaps -/

/-- The rows are next to each other in both arrays. -/
structure Gapless (c : RowCopy) : Prop where
  source : c.sourceStride = c.rowBytes
  target : c.targetStride = c.rowBytes

/-- All rows are inside both arrays. -/
theorem Fits.packed_inside {sourceLength targetLength : Nat} (fits : c.Fits sourceLength targetLength)
    (gapless : c.Gapless) (nonempty : 0 < c.rows) :
    c.sourceStart + c.rows * c.rowBytes ≤ sourceLength ∧
      c.targetStart + c.rows * c.rowBytes ≤ targetLength := by
  have last : c.rows - 1 < c.rows := Nat.sub_lt nonempty Nat.one_pos
  have whole : (c.rows - 1) * c.rowBytes + c.rowBytes = c.rows * c.rowBytes := by
    rw [← Nat.succ_mul]
    congr 1
    omega
  have source := fits.source _ last
  have target := fits.target _ last
  rw [sourceRow, gapless.source] at source
  rw [targetRow, gapless.target] at target
  omega

theorem Fits.packed_stop {targetLength : Nat} (fits : c.Fits source.length targetLength)
    (gapless : c.Gapless) (nonempty : 0 < c.rows) : (c.packed source).stop ≤ targetLength := by
  obtain ⟨readable, writable⟩ := fits.packed_inside gapless nonempty
  have length : ((source.drop c.sourceStart).take (c.rows * c.rowBytes)).length =
      c.rows * c.rowBytes := length_take_drop readable
  show c.targetStart + ((source.drop c.sourceStart).take (c.rows * c.rowBytes)).length ≤ targetLength
  rw [length]
  exact writable

/-- Rows without gaps are one piece. -/
theorem Fits.overwrite_packed (fits : c.Fits source.length target.length) (gapless : c.Gapless)
    (nonempty : 0 < c.rows) :
    overwrite target [c.packed source] = overwrite target (c.pieces source) := by
  have length : ((source.drop c.sourceStart).take (c.rows * c.rowBytes)).length =
      c.rows * c.rowBytes := length_take_drop (fits.packed_inside gapless nonempty).1
  have inside : c.targetStart + ((source.drop c.sourceStart).take (c.rows * c.rowBytes)).length ≤
      target.length := fits.packed_stop gapless nonempty
  have one : overwrite target [c.packed source] =
      Bytes.splice target c.targetStart ((source.drop c.sourceStart).take (c.rows * c.rowBytes)) := rfl
  refine Bytes.ext ?_ ?_
  · rw [one, Bytes.splice_length inside, overwrite_length fits.apart.inside]
  intro i _
  rw [one, Bytes.get_splice inside, length]
  split
  · -- the byte is in the row that its distance from the first one says
    rename_i here
    obtain ⟨low, high⟩ := here
    have within : i - c.targetStart < c.rows * c.rowBytes := by omega
    have positive : 0 < c.rowBytes := Nat.pos_of_mul_pos_left (Nat.zero_lt_of_lt within)
    have hrow : (i - c.targetStart) / c.rowBytes < c.rows := by
      rw [Nat.div_lt_iff_lt_mul positive]
      exact within
    have split := Nat.div_add_mod' (i - c.targetStart) c.rowBytes
    have at' : i = c.targetRow ((i - c.targetStart) / c.rowBytes) +
        (i - c.targetStart) % c.rowBytes := by
      rw [targetRow, gapless.target]
      omega
    have read := fits.get_row hrow (Nat.mod_lt (i - c.targetStart) positive)
    rw [← at', sourceRow, gapless.source, Nat.add_assoc, split] at read
    rw [read, Bytes.get_take, if_pos within, Bytes.get_drop]
  · rename_i outside
    refine (fits.get_outside fun row hrow covered => outside ?_).symm
    have below : (row + 1) * c.rowBytes ≤ c.rows * c.rowBytes := Nat.mul_le_mul_right _ hrow
    rw [Nat.succ_mul] at below
    rw [targetRow, gapless.target] at covered
    omega

end RowCopy

end Sgfx
