import Sgfx.Vulkan.UploadBatches
import Sgfx.Library.Slices

/-!
# The rows of an upload

An upload writes texels of one level and layer of a texture.  Its pieces, each of some rows of it,
write the same texels with the same bytes.

## Main Definitions

* `Texels`, `Upload.write` — what an upload writes
* `Upload.Fits` — an upload with all its rows
* `Upload.IsPiece`, `Upload.SplitsInto`

## Main Results

* `Upload.piece_ok` — the pieces of an upload can be made
* `Upload.write_rows` — a piece continues the rows before it
-/

namespace Sgfx.Vulkan

/-- The bytes of every texel, by texture, level, layer, column and row. -/
abbrev Texels := TextureId → UInt32 → UInt32 → Nat → Nat → List UInt8

namespace Upload

/-- The bytes of a texel in the data of an upload. -/
def texel (pixel : Nat) (u : Upload) (x y : Nat) : List UInt8 :=
  (u.data.bytes.drop ((y - u.rect.y.toNat) * u.stride.toNat + (x - u.rect.x.toNat) * pixel)).take
    pixel

/-- The texel is in one of the first rows of the rectangle. -/
def CoversRows (rows : Nat) (u : Upload) (x y : Nat) : Prop :=
  u.rect.x.toNat ≤ x ∧ x < u.rect.x.toNat + u.rect.width.toNat ∧
    u.rect.y.toNat ≤ y ∧ y < u.rect.y.toNat + rows

instance {rows : Nat} {u : Upload} {x y : Nat} : Decidable (u.CoversRows rows x y) :=
  inferInstanceAs (Decidable (_ ∧ _ ∧ _ ∧ _))

/-- Write the first rows. -/
def writeRows (pixel rows : Nat) (u : Upload) (I : Texels) : Texels := fun t m l x y =>
  if t = u.texture ∧ m = u.mipLevel ∧ l = u.arrayLayer ∧ u.CoversRows rows x y then u.texel pixel x y
  else I t m l x y

/-- What an upload does to the texels. -/
def write (pixel : Nat) (u : Upload) (I : Texels) : Texels :=
  u.writeRows pixel u.rect.height.toNat I

/-- The data have all the rows, which are not wider than the stride. -/
structure Fits (pixel : Nat) (u : Upload) : Prop where
  tight : u.rect.width.toNat * pixel ≤ u.stride.toNat
  rows : u.stride.toNat * (u.rect.height.toNat - 1) + u.rect.width.toNat * pixel ≤ u.data.len

/-- A piece of some rows, without padding. -/
structure IsPiece (u : Upload) (rowBytes start rows : Nat) (p : Upload) : Prop where
  texture : p.texture = u.texture
  mipLevel : p.mipLevel = u.mipLevel
  arrayLayer : p.arrayLayer = u.arrayLayer
  x : p.rect.x = u.rect.x
  y : p.rect.y.toNat = u.rect.y.toNat + start
  width : p.rect.width = u.rect.width
  height : p.rect.height.toNat = rows
  stride : p.stride.toNat = rowBytes
  data : p.data.bytes = u.pixels rowBytes start rows

/-- The upload is replaced by pieces of its rows, from top to bottom, that write what it writes. -/
structure SplitsInto (pixel : Nat) (u : Upload) (pieces : List Upload) : Prop where
  rowwise : ∀ p ∈ pieces, ∃ start rows, u.IsPiece (u.rect.width.toNat * pixel) start rows p
  ordered : pieces.Pairwise fun p q => p.rect.y.toNat + p.rect.height.toNat ≤ q.rect.y.toNat
  same : ∀ I, pieces.foldl (fun I p => p.write pixel I) I = u.write pixel I

section Rows

variable {u p : Upload} {pixel rowBytes start rows : Nat}

/-- A row that is there has all its bytes. -/
theorem Fits.row_length (h : u.Fits pixel) {y : Nat} (hy : y < u.rect.height.toNat) :
    (u.row (u.rect.width.toNat * pixel) y).length = u.rect.width.toNat * pixel := by
  have hrows := h.rows
  have hlast : y * u.stride.toNat ≤ u.stride.toNat * (u.rect.height.toNat - 1) := by
    rw [Nat.mul_comm]
    exact Nat.mul_le_mul_left _ (Nat.le_sub_one_of_lt hy)
  rw [row, List.length_take, List.length_drop]
  have hlen : u.data.len = u.data.bytes.length := rfl
  omega

theorem Fits.pixels_length (h : u.Fits pixel) (hrows : start + rows ≤ u.rect.height.toNat) :
    (u.pixels (u.rect.width.toNat * pixel) start rows).length =
      rows * (u.rect.width.toNat * pixel) :=
  flatMap_range_length fun y hy => h.row_length (by omega)

/-- The rows of a piece are not more bytes than the data. -/
theorem Fits.pixels_le (h : u.Fits pixel) (hrows : start + rows ≤ u.rect.height.toNat) :
    rows * (u.rect.width.toNat * pixel) ≤ u.data.len := by
  have hall := h.rows
  rcases Nat.eq_zero_or_pos rows with rfl | hpos
  · rw [Nat.zero_mul]
    exact Nat.zero_le _
  · obtain ⟨n, rfl⟩ := Nat.exists_eq_succ_of_ne_zero (Nat.ne_of_gt hpos)
    have hstride : n * (u.rect.width.toNat * pixel) ≤
        u.stride.toNat * (u.rect.height.toNat - 1) := by
      rw [Nat.mul_comm]
      exact Nat.mul_le_mul h.tight (by omega)
    rw [Nat.succ_mul]
    omega

/-- The pieces of an upload can be made. -/
theorem piece_ok (place : Placement) (h : u.Fits pixel) (hpos : 0 < rows)
    (hrows : start + rows ≤ u.rect.height.toNat) :
    ∃ p, u.piece place (u.rect.width.toNat * pixel) start rows = .ok p ∧
      u.IsPiece (u.rect.width.toNat * pixel) start rows p := by
  obtain ⟨hwidth, -, hright, hbottom⟩ := u.rect.valid
  have hlength : (u.pixels (u.rect.width.toNat * pixel) start rows).length < 2 ^ 63 := by
    rw [h.pixels_length hrows]
    exact Nat.lt_of_le_of_lt (h.pixels_le hrows) u.data.length_lt
  have hstart : (UInt32.ofNat start).toNat = start :=
    UInt32.toNat_ofNat_of_lt' (show start < 2 ^ 32 by omega)
  have hheight : (UInt32.ofNat rows).toNat = rows :=
    UInt32.toNat_ofNat_of_lt' (show rows < 2 ^ 32 by omega)
  have hy : (u.rect.y + UInt32.ofNat start).toNat = u.rect.y.toNat + start := by
    rw [UInt32.toNat_add, hstart, Nat.mod_eq_of_lt (by omega)]
  have hvalid : u.rect.width ≠ 0 ∧ UInt32.ofNat rows ≠ 0 ∧
      u.rect.x.toNat + u.rect.width.toNat < 2 ^ 32 ∧
      (u.rect.y + UInt32.ofNat start).toNat + (UInt32.ofNat rows).toNat < 2 ^ 32 := by
    refine ⟨hwidth, fun hzero => ?_, hright, by rw [hy, hheight]; omega⟩
    rw [hzero] at hheight
    exact Nat.ne_of_gt hpos hheight.symm
  have hstride : (UInt32.ofNat (u.rect.width.toNat * pixel)).toNat = u.rect.width.toNat * pixel :=
    UInt32.toNat_ofNat_of_lt' (Nat.lt_of_le_of_lt h.tight u.stride.toNat_lt)
  obtain ⟨data, hdata, hbytes⟩ : ∃ data, newPayload place
      (u.pixels (u.rect.width.toNat * pixel) start rows) = .ok data ∧
        data.bytes = u.pixels (u.rect.width.toNat * pixel) start rows :=
    ⟨_, dif_pos hlength, rfl⟩
  refine ⟨⟨u.texture, u.mipLevel, u.arrayLayer, ⟨u.rect.x, _, u.rect.width, _, hvalid⟩, _, data⟩,
    ?_, ⟨rfl, rfl, rfl, rfl, hy, rfl, hheight, hstride, hbytes⟩⟩
  rw [piece, hdata, PixelRect.new, dif_pos hvalid]
  rfl

/-- A texel of a piece has the bytes that it has in the upload. -/
theorem IsPiece.texel_eq (hp : u.IsPiece (u.rect.width.toNat * pixel) start rows p)
    (h : u.Fits pixel) (hrows : start + rows ≤ u.rect.height.toNat) {x y : Nat}
    (hx : u.rect.x.toNat ≤ x) (hx' : x < u.rect.x.toNat + u.rect.width.toNat)
    (hy : u.rect.y.toNat + start ≤ y) (hy' : y < u.rect.y.toNat + start + rows) :
    p.texel pixel x y = u.texel pixel x y := by
  obtain ⟨k, rfl⟩ := Nat.exists_eq_add_of_le hy
  obtain ⟨j, rfl⟩ := Nat.exists_eq_add_of_le hx
  have hwindow : j * pixel + pixel ≤ u.rect.width.toNat * pixel := by
    rw [← Nat.succ_mul]
    exact Nat.mul_le_mul_right _ (by omega)
  have hrow : u.rect.y.toNat + start + k - u.rect.y.toNat = start + k := by omega
  rw [texel, hp.data, hp.stride, hp.y, hp.x, Nat.add_sub_cancel_left, Nat.add_sub_cancel_left,
    pixels, flatMap_range_window (fun y hy => h.row_length (by omega)) (by omega) hwindow, row,
    texel, hrow, Nat.add_sub_cancel_left, List.drop_take, List.take_take, List.drop_drop,
    Nat.min_eq_left (by omega)]

/-- A piece continues the rows before it. -/
theorem write_rows (hp : u.IsPiece (u.rect.width.toNat * pixel) start rows p) (h : u.Fits pixel)
    (hrows : start + rows ≤ u.rect.height.toNat) (I : Texels) :
    p.write pixel (u.writeRows pixel start I) = u.writeRows pixel (start + rows) I := by
  funext t m l x y
  have hpiece : (t = p.texture ∧ m = p.mipLevel ∧ l = p.arrayLayer ∧
      p.CoversRows p.rect.height.toNat x y) ↔ t = u.texture ∧ m = u.mipLevel ∧ l = u.arrayLayer ∧
        u.rect.x.toNat ≤ x ∧ x < u.rect.x.toNat + u.rect.width.toNat ∧
        u.rect.y.toNat + start ≤ y ∧ y < u.rect.y.toNat + start + rows := by
    rw [CoversRows, hp.texture, hp.mipLevel, hp.arrayLayer, hp.x, hp.y, hp.width, hp.height]
  show (if _ then _ else _) = if _ then _ else _
  by_cases hnew : t = u.texture ∧ m = u.mipLevel ∧ l = u.arrayLayer ∧ u.rect.x.toNat ≤ x ∧
      x < u.rect.x.toNat + u.rect.width.toNat ∧ u.rect.y.toNat + start ≤ y ∧
      y < u.rect.y.toNat + start + rows
  · -- A texel of the piece.
    rw [if_pos (hpiece.mpr hnew)]
    obtain ⟨ht, hm, hl, hx, hx', hy, hy'⟩ := hnew
    rw [if_pos ⟨ht, hm, hl, hx, hx', by omega, by omega⟩]
    exact hp.texel_eq h hrows hx hx' hy hy'
  · -- A texel of the rows before it, or of none.
    rw [if_neg (mt hpiece.mp hnew)]
    refine if_congr ?_ rfl rfl
    constructor
    · rintro ⟨ht, hm, hl, hx, hx', hy, hy'⟩
      exact ⟨ht, hm, hl, hx, hx', hy, by omega⟩
    · rintro ⟨ht, hm, hl, hx, hx', hy, hy'⟩
      refine ⟨ht, hm, hl, hx, hx', hy, ?_⟩
      by_contra hlater
      exact hnew ⟨ht, hm, hl, hx, hx', by omega, by omega⟩

theorem writeRows_zero (I : Texels) : u.writeRows pixel 0 I = I := by
  funext t m l x y
  refine if_neg ?_
  rintro ⟨-, -, -, -, -, hy, hy'⟩
  omega

end Rows

end Upload

end Sgfx.Vulkan
