import Mathlib.Data.List.Forall2
import Sgfx.Library.Tilings
import Sgfx.Virgl.InlineWrites

/-!
# Inline writes tile the rectangle

The boxes of the packets of an upload tile its rectangle: each span loop tiles the rows that it
is given from its column on, and the row loop stacks these.  Both loops end because each turn
moves on, which needs a packet to have room for a texel.  The checks ask for room for a word
only: under a limit with room for a word but not for a texel the span loop sends empty boxes
for ever.

## Main Definitions

* `Delivers`

## Main Results

* `submitSpans_delivers`, `submitRows_delivers`
* `submitIrTextureInlineWrite_diverges`
* `inline_write_tiles`
-/

namespace Sgfx.Virgl.TextureUploads

open Draws

/-- The packets carry boxes of the upload that tile a region of the texture. -/
def Delivers (resourceId : UInt32) (upload : IrTextureUpload) (maxCommandSize : UInt64)
    (packets : List (List UInt8)) (region : Set (Nat × Nat)) : Prop :=
  ∃ writes, List.Forall₂ (Carries resourceId upload maxCommandSize) packets writes ∧
    Tiles (writes.map InlineWrite.cells) region

section Delivers

variable {resourceId : UInt32} {upload : IrTextureUpload} {maxCommandSize : UInt64}
  {packets more : List (List UInt8)} {a b c : Nat} {s : Set Nat}

theorem Delivers.nil : Delivers resourceId upload maxCommandSize [] ∅ := ⟨[], .nil, Tiles.nil⟩

theorem Delivers.columns (hab : a ≤ b) (hbc : b ≤ c)
    (left : Delivers resourceId upload maxCommandSize packets (Set.Ico a b ×ˢ s))
    (right : Delivers resourceId upload maxCommandSize more (Set.Ico b c ×ˢ s)) :
    Delivers resourceId upload maxCommandSize (packets ++ more) (Set.Ico a c ×ˢ s) := by
  obtain ⟨writes, carried, tiled⟩ := left
  obtain ⟨writes', carried', tiled'⟩ := right
  refine ⟨writes ++ writes', List.rel_append carried carried', ?_⟩
  rw [List.map_append]
  exact Tiles.columns hab hbc tiled tiled'

theorem Delivers.rows (hab : a ≤ b) (hbc : b ≤ c)
    (above : Delivers resourceId upload maxCommandSize packets (s ×ˢ Set.Ico a b))
    (below : Delivers resourceId upload maxCommandSize more (s ×ˢ Set.Ico b c)) :
    Delivers resourceId upload maxCommandSize (packets ++ more) (s ×ˢ Set.Ico a c) := by
  obtain ⟨writes, carried, tiled⟩ := above
  obtain ⟨writes', carried', tiled'⟩ := below
  refine ⟨writes ++ writes', List.rel_append carried carried', ?_⟩
  rw [List.map_append]
  exact Tiles.rows hab hbc tiled tiled'

end Delivers

section Loops

variable {resourceId : UInt32} {upload : IrTextureUpload} {maxCommandSize : UInt64}
  {layout : InlineLayout} {y rows x width : UInt32}

/-- The box of one packet. -/
theorem Fits.delivers (fits : Fits upload layout y rows x width)
    (admitted : Admitted resourceId upload maxCommandSize layout) :
    ∃ packet, inlinePacket resourceId upload layout y rows x width = .ok packet ∧
      Delivers resourceId upload maxCommandSize [packet]
        (cells (upload.destination.x.toNat + x.toNat) (upload.destination.y.toNat + y.toNat)
          width.toNat rows.toNat) := by
  refine ⟨_, inlinePacket_eq admitted fits, [_], .cons (inlinePacket_carries admitted fits) .nil, ?_⟩
  rw [List.map_singleton, fits.boxWrite_cells admitted]
  refine Tiles.single ⟨(_, _), ⟨le_rfl, ?_⟩, le_rfl, ?_⟩
  · exact Nat.lt_add_of_pos_right fits.width_pos
  · exact Nat.lt_add_of_pos_right fits.rows_pos

theorem inlineWidth_toNat (admitted : Admitted resourceId upload maxCommandSize layout)
    (hx : x < upload.destination.width) :
    (inlineWidth layout upload x).toNat =
      min (upload.destination.width.toNat - x.toNat)
        (layout.maxPayload.toNat / (bytesPerTexel upload.storageFormat).toNat) := by
  have hpayload := admitted.payload
  have hquotient := Nat.div_le_self layout.maxPayload.toNat
    (bytesPerTexel upload.storageFormat).toNat
  rw [inlineWidth, toNat_min32, UInt32.toNat_sub_of_le _ _ (UInt32.le_of_lt hx),
    UInt64.toNat_toUInt32, UInt64.toNat_div, admitted.texel, Nat.mod_eq_of_lt (by omega)]

theorem inlineRows_toNat (hy : y < upload.destination.height) :
    (inlineRows layout upload y).toNat =
      if layout.rowBytes.toNat ≤ layout.maxPayload.toNat then
        min (layout.maxPayload.toNat / layout.rowBytes.toNat)
          (upload.destination.height.toNat - y.toNat)
      else 1 := by
  have hheight := upload.destination.height.toNat_lt
  unfold inlineRows
  rw [apply_ite UInt32.toNat, UInt64.toNat_toUInt32, toNat_min64, UInt64.toNat_div,
    UInt32.toNat_toUInt64, UInt32.toNat_sub_of_le _ _ (UInt32.le_of_lt hy),
    Nat.mod_eq_of_lt (by omega)]
  rfl

/-- The rows of a turn: one, or as many whole rows as fit. -/
theorem inlineRows_bounds (admitted : Admitted resourceId upload maxCommandSize layout)
    (hy : y < upload.destination.height) :
    0 < (inlineRows layout upload y).toNat ∧
      y.toNat + (inlineRows layout upload y).toNat ≤ upload.destination.height.toNat ∧
      ((inlineRows layout upload y).toNat = 1 ∨
        upload.destination.width.toNat * (bytesPerTexel upload.storageFormat).toNat *
          (inlineRows layout upload y).toNat ≤ layout.maxPayload.toNat) := by
  have hlt : y.toNat < upload.destination.height.toNat := hy
  have hrow : 0 < layout.rowBytes.toNat := by
    rw [admitted.row]
    exact Nat.mul_pos admitted.width_pos (bytesPerTexel_bounds upload.storageFormat).1
  rw [inlineRows_toNat hy, ← admitted.row]
  split
  · rename_i whole
    have hquotient := Nat.div_pos whole hrow
    have hbytes := Nat.mul_div_le layout.maxPayload.toNat layout.rowBytes.toNat
    refine ⟨by omega, by omega, .inr (Nat.le_trans (Nat.mul_le_mul_left _ ?_) hbytes)⟩
    exact Nat.min_le_left ..
  · exact ⟨Nat.one_pos, hlt, .inl rfl⟩

/-- A turn of the span loop sends its packet and moves on. -/
theorem spanTurn_runs {σ : Type} {packet : List UInt8} {next : UInt32}
    (submit : List UInt8 → Fallible σ HandleError Unit)
    (h : inlinePacket resourceId upload layout y rows x width = .ok packet) :
    Fueled.Runs (do
        let packet ← (inlinePacket resourceId upload layout y rows x width :
          Fallible σ HandleError _)
        submit packet
        return next : Fueled σ HandleError UInt32)
      (Fallible.loop [packet] submit >>= fun _ => pure next) := by
  refine ⟨0, fun fuel _ s => ?_⟩
  rw [h, Fallible.loop, Fallible.bind_assoc, Fallible.bind_run]
  simp only [Fueled.bind_run, Fueled.lift_run, Fallible.lift_run]
  rcases submit packet s with ⟨_ | ⟨⟩, s'⟩
  · rfl
  · rfl

/-- From column `x` on, the span loop tiles its rows.  Several rows are taken only when whole
rows fit, so that their loop has one turn. -/
theorem submitSpans_delivers (admitted : Admitted resourceId upload maxCommandSize layout)
    (room : (bytesPerTexel upload.storageFormat).toNat ≤ layout.maxPayload.toNat)
    (hrows : 0 < rows.toNat) (hbottom : y.toNat + rows.toNat ≤ upload.destination.height.toNat)
    (hx : x.toNat ≤ upload.destination.width.toNat)
    (shape : rows.toNat = 1 ∨
      (x.toNat = 0 ∨ x.toNat = upload.destination.width.toNat) ∧
        upload.destination.width.toNat * (bytesPerTexel upload.storageFormat).toNat *
          rows.toNat ≤ layout.maxPayload.toNat) :
    ∃ packets, Delivers resourceId upload maxCommandSize packets
        (Set.Ico (upload.destination.x.toNat + x.toNat)
            (upload.destination.x.toNat + upload.destination.width.toNat) ×ˢ
          Set.Ico (upload.destination.y.toNat + y.toNat)
            (upload.destination.y.toNat + y.toNat + rows.toNat)) ∧
      ∀ {σ : Type} (submit : List UInt8 → Fallible σ HandleError Unit),
        Fueled.Runs (submitSpans resourceId upload layout submit y rows x)
          (Fallible.loop packets submit >>= fun _ => pure upload.destination.width) := by
  have htexel := (bytesPerTexel_bounds upload.storageFormat).1
  induction left : upload.destination.width.toNat - x.toNat using Nat.strongRecOn
    generalizing x with
  | ind left ih =>
    obtain full | hlt := Nat.eq_or_lt_of_le hx
    · -- the row is done
      obtain rfl := UInt32.toNat_inj.mp full
      refine ⟨[], ?_, fun submit => ?_⟩
      · rw [Set.Ico_self, Set.empty_prod]
        exact Delivers.nil
      · exact Fueled.Runs.whileDo_done (decide_eq_false (UInt32.lt_irrefl _))
    · have hwidth := inlineWidth_toNat admitted (x := x) hlt
      have hcolumns := Nat.div_pos room htexel
      have hbytes := Nat.div_mul_le_self layout.maxPayload.toNat
        (bytesPerTexel upload.storageFormat).toNat
      -- a span of one row, or whole rows in one turn
      have hcase : rows.toNat = 1 ∨ x.toNat = 0 ∧
          (inlineWidth layout upload x).toNat = upload.destination.width.toNat ∧
          upload.destination.width.toNat * (bytesPerTexel upload.storageFormat).toNat *
            rows.toNat ≤ layout.maxPayload.toNat := by
        refine shape.imp_right fun ⟨edge, whole⟩ => ?_
        have hstart : x.toNat = 0 := by omega
        have hfits := (Nat.le_div_iff_mul_le htexel).mpr
          (Nat.le_trans (Nat.le_mul_of_pos_right _ hrows) whole)
        exact ⟨hstart, by omega, whole⟩
      have fits : Fits upload layout y rows x (inlineWidth layout upload x) := by
        refine ⟨by omega, hrows, by omega, hbottom, ?_, hcase.imp_right fun h => ⟨h.1, h.2.1⟩⟩
        obtain one | ⟨-, full, whole⟩ := hcase
        · rw [one, Nat.mul_one]
          refine Nat.le_trans (Nat.mul_le_mul_right _ ?_) hbytes
          omega
        · rwa [full]
      have hnext : (x + inlineWidth layout upload x).toNat =
          x.toNat + (inlineWidth layout upload x).toNat := by
        rw [UInt32.toNat_add]
        exact Nat.mod_eq_of_lt (Nat.lt_of_le_of_lt fits.right upload.destination.width.toNat_lt)
      obtain ⟨packet, hpacket, here⟩ := fits.delivers admitted
      have hpos := fits.width_pos
      have hright := fits.right
      obtain ⟨packets, rest, runs⟩ := ih _ (by omega) (x := x + inlineWidth layout upload x)
        (by omega) (hcase.imp_right fun h => ⟨.inr (by omega), h.2.2⟩) rfl
      refine ⟨[packet] ++ packets, ?_, fun submit => ?_⟩
      · rw [hnext, ← Nat.add_assoc] at rest
        exact Delivers.columns (Nat.le_add_right ..) (by omega) here rest
      · exact Fueled.Runs.whileDo_row (decide_eq_true hlt) (spanTurn_runs submit hpacket)
          (runs submit)

/-- From row `y` on, the row loop tiles the rectangle. -/
theorem submitRows_delivers (admitted : Admitted resourceId upload maxCommandSize layout)
    (room : (bytesPerTexel upload.storageFormat).toNat ≤ layout.maxPayload.toNat)
    (hy : y.toNat ≤ upload.destination.height.toNat) :
    ∃ packets, Delivers resourceId upload maxCommandSize packets
        (Set.Ico upload.destination.x.toNat
            (upload.destination.x.toNat + upload.destination.width.toNat) ×ˢ
          Set.Ico (upload.destination.y.toNat + y.toNat)
            (upload.destination.y.toNat + upload.destination.height.toNat)) ∧
      ∀ {σ : Type} (submit : List UInt8 → Fallible σ HandleError Unit),
        Fueled.Runs (submitRows resourceId upload layout submit y)
          (Fallible.loop packets submit >>= fun _ => pure upload.destination.height) := by
  have htexel := (bytesPerTexel_bounds upload.storageFormat).1
  induction left : upload.destination.height.toNat - y.toNat using Nat.strongRecOn
    generalizing y with
  | ind left ih =>
    obtain full | hlt := Nat.eq_or_lt_of_le hy
    · obtain rfl := UInt32.toNat_inj.mp full
      refine ⟨[], ?_, fun submit => ?_⟩
      · rw [Set.Ico_self, Set.prod_empty]
        exact Delivers.nil
      · exact Fueled.Runs.whileDo_done (decide_eq_false (UInt32.lt_irrefl _))
    · obtain ⟨hpos, hbottom, shape⟩ := inlineRows_bounds admitted hlt
      obtain ⟨first, here, run⟩ := submitSpans_delivers admitted room hpos hbottom (x := 0)
        (Nat.zero_le _) (shape.imp_right fun whole => ⟨.inl rfl, whole⟩)
      have hnext : (y + inlineRows layout upload y).toNat =
          y.toNat + (inlineRows layout upload y).toNat := by
        rw [UInt32.toNat_add]
        exact Nat.mod_eq_of_lt (Nat.lt_of_le_of_lt hbottom upload.destination.height.toNat_lt)
      obtain ⟨packets, rest, runs⟩ := ih _ (by omega) (y := y + inlineRows layout upload y)
        (by omega) rfl
      refine ⟨first ++ packets, ?_, fun submit => ?_⟩
      · rw [hnext, ← Nat.add_assoc] at rest
        exact Delivers.rows (Nat.le_add_right ..) (by omega) here rest
      · exact Fueled.Runs.whileDo_row (decide_eq_true hlt) ((run submit).seq (Fueled.Runs.pure _))
          (runs submit)

/-- An empty span at the corner has a packet. -/
theorem inlinePacket_empty (resourceId : UInt32) (upload : IrTextureUpload) (layout : InlineLayout)
    (rows : UInt32) :
    ∃ packet, inlinePacket resourceId upload layout 0 rows 0 0 = .ok packet := by
  have hstart : (0 : UInt32).toUInt64 * layout.rowBytes +
      (0 : UInt32).toUInt64 * layout.bytesPerTexel = 0 := by simp
  have hlength : (0 * layout.bytesPerTexel.toUInt32).toUInt64 * rows.toUInt64 = 0 := by simp
  have hslice : indexRange upload.pixels (0 : UInt64).toNat (0 + 0 : UInt64).toNat = some [] :=
    indexRange_some (Nat.le_refl _) (Nat.zero_le _)
  simp only [inlinePacket, hstart, hlength, hslice]
  exact ⟨_, rfl⟩

/-- Without room for a texel the first span is empty, and is sent again and again. -/
theorem submitSpans_diverges {σ : Type} (admitted : Admitted resourceId upload maxCommandSize layout)
    (short : layout.maxPayload.toNat < (bytesPerTexel upload.storageFormat).toNat) :
    Fueled.Diverges (submitSpans resourceId upload layout (fun _ => pure () : List UInt8 →
      Fallible σ HandleError Unit) 0 rows 0) := by
  have hwidth : inlineWidth layout upload 0 = 0 := by
    apply UInt32.toNat_inj.mp
    rw [inlineWidth_toNat admitted admitted.width_pos, Nat.div_eq_of_lt short, Nat.min_zero]
    rfl
  refine Fueled.Diverges.whileDo_stuck (decide_eq_true admitted.width_pos) fun fuel s => ⟨s, ?_⟩
  obtain ⟨packet, hpacket⟩ := inlinePacket_empty resourceId upload layout rows
  rw [hwidth, hpacket]
  rfl

/-- The row loop never gets past the first group of rows. -/
theorem submitRows_diverges {σ : Type} (admitted : Admitted resourceId upload maxCommandSize layout)
    (short : layout.maxPayload.toNat < (bytesPerTexel upload.storageFormat).toNat) :
    Fueled.Diverges (submitRows resourceId upload layout (fun _ => pure () : List UInt8 →
      Fallible σ HandleError Unit) 0) :=
  Fueled.Diverges.whileDo (decide_eq_true admitted.height_pos)
    (Fueled.Diverges.bind (submitSpans_diverges admitted short) _)

end Loops

/-! ## The whole upload -/

section Upload

variable {reserve : UInt64 → Bool} {resourceId : UInt32} {upload : IrTextureUpload}
  {maxCommandSize : UInt64} {layout : InlineLayout}

/-- After the checks, an upload is its row loop. -/
theorem submitIrTextureInlineWrite_eq {σ : Type} (submit : List UInt8 → Fallible σ HandleError Unit)
    (accepted : inlineLayout reserve resourceId upload maxCommandSize = .ok layout) :
    submitIrTextureInlineWrite resourceId upload submit reserve maxCommandSize =
      (do let _ ← submitRows resourceId upload layout submit 0; return ()) := by
  unfold submitIrTextureInlineWrite
  rw [accepted]
  rfl

/-- A packet has room for a texel exactly when the limit has room for it after the words. -/
theorem Admitted.room_iff (admitted : Admitted resourceId upload maxCommandSize layout) :
    (bytesPerTexel upload.storageFormat).toNat ≤ layout.maxPayload.toNat ↔
      48 + (bytesPerTexel upload.storageFormat).toNat ≤ maxCommandSize.toNat := by
  have hpayload := admitted.payload
  have hroom := admitted.room
  have htexel : (bytesPerTexel upload.storageFormat).toNat ≤ 4 ∨
      (bytesPerTexel upload.storageFormat).toNat = 8 ∨
      (bytesPerTexel upload.storageFormat).toNat = 16 := by
    cases upload.storageFormat <;> decide
  omega

/-- Of an upload that is not rejected, the packets tile the rectangle and the run is the one that
submits them, if and only if the limit has room for a texel after the words of a packet. -/
theorem inline_write_tiles
    (accepted : inlineLayout reserve resourceId upload maxCommandSize = .ok layout) :
    (∃ packets, Delivers resourceId upload maxCommandSize packets upload.cells ∧
        ∀ {σ : Type} (submit : List UInt8 → Fallible σ HandleError Unit),
          Fueled.Runs (submitIrTextureInlineWrite resourceId upload submit reserve maxCommandSize)
            (Fallible.loop packets submit)) ↔
      48 + (bytesPerTexel upload.storageFormat).toNat ≤ maxCommandSize.toNat := by
  have admitted := inlineLayout_admitted accepted
  rw [← admitted.room_iff]
  constructor
  · rintro ⟨packets, -, runs⟩
    by_contra short
    have ends := runs (fun _ => pure () : List UInt8 → Fallible Unit HandleError Unit)
    rw [submitIrTextureInlineWrite_eq _ accepted] at ends
    exact ends.not_diverges (Fueled.Diverges.bind (submitRows_diverges admitted (by omega)) _)
  · intro room
    obtain ⟨packets, delivered, runs⟩ := submitRows_delivers admitted room (y := 0) (Nat.zero_le _)
    refine ⟨packets, delivered, fun submit => ?_⟩
    rw [submitIrTextureInlineWrite_eq _ accepted, ← Fallible.bind_pure_unit (Fallible.loop packets submit)]
    exact Fueled.Runs.seq (runs submit) (Fueled.Runs.pure ())

/-- The upload of one texel of sixteen bytes. -/
def oneTexel : IrTextureUpload where
  texture := { slot := 0, width := 1, height := 1, mipLevels := 1, arrayLayers := 1, cube := false,
               sampled := true, renderAttachment := false, copyDestination := true,
               present := false, format := .rgba32Float }
  destination := ⟨0, 0, 1, 1⟩
  pixels := List.replicate 16 0
  storageFormat := .rgba32Float
  mipLevel := 0
  arrayLayer := 0

/-- One texel under a limit of a packet with room for it. -/
theorem inline_write_tiles_oneTexel :
    (∃ packets, Delivers 1 oneTexel 64 packets oneTexel.cells ∧
        ∀ {σ : Type} (submit : List UInt8 → Fallible σ HandleError Unit),
          Fueled.Runs (submitIrTextureInlineWrite 1 oneTexel submit (fun _ => true) 64)
            (Fallible.loop packets submit)) ↔
      48 + (bytesPerTexel oneTexel.storageFormat).toNat ≤ (64 : UInt64).toNat :=
  inline_write_tiles
    (show inlineLayout (fun _ => true) 1 oneTexel 64 = .ok ⟨16, 16, 16⟩ from rfl)

/-- Under a limit of 52 bytes the same upload passes the checks, and no fuel is enough for it. -/
theorem oneTexel_diverges :
    inlineLayout (fun _ => true) 1 oneTexel 52 = .ok ⟨4, 16, 16⟩ ∧
      ∀ {σ : Type}, Fueled.Diverges (submitIrTextureInlineWrite 1 oneTexel (fun _ => pure () :
        List UInt8 → Fallible σ HandleError Unit) (fun _ => true) 52) := by
  have accepted : inlineLayout (fun _ => true) 1 oneTexel 52 = .ok ⟨4, 16, 16⟩ := rfl
  refine ⟨accepted, fun {σ} => ?_⟩
  rw [submitIrTextureInlineWrite_eq _ accepted]
  exact Fueled.Diverges.bind
    (submitRows_diverges (inlineLayout_admitted accepted) (by decide)) _

end Upload

end Sgfx.Virgl.TextureUploads
