import Sgfx.Vulkan.UploadRows
import Sgfx.OwnedValidation

/-!
# Pieces are accepted where uploads are

Wherever a recording accepts an upload, a session that is at least as lenient accepts each piece of
it, and is then at least as lenient as the session behind the upload.

## Main Definitions

* `Accepted` — what is known of an upload that is accepted

## Main Results

* `accepted_of_step`, `Accepted.piece`
-/

namespace Sgfx.Vulkan

open Fallible Replay

/-- An upload that an encoder accepts: its texture, the size of its texels, and the encoder behind
it. -/
structure Accepted (T : ResourceTable) (e : CommandEncoder) (u : Upload) (desc : TextureDesc)
    (pixel : UInt32) (e₁ : CommandEncoder) : Prop where
  reference : T.textureRef u.texture = .ok u.texture
  resolves : T.texture u.texture = .ok desc
  format : desc.format.bytesPerPixel = some pixel
  pixel_pos : 0 < pixel.toNat
  narrow : u.rect.width.toNat * pixel.toNat < 2 ^ 32
  fits : u.Fits pixel.toNat
  usage : CommandEncoder.requireTextureUsage desc.usage .COPY_DST = .ok ()
  layer : ¬ desc.arrayLayerCount ≤ u.arrayLayer
  extent : ∃ extent, desc.mipExtent u.mipLevel = .ok extent ∧ u.rect.isWithin extent = true
  access : CommandEncoder.checkTextureMipAccess T e u.texture u.mipLevel .copyDestination = .ok ()
  closed : e.ensureOutsidePass = .ok ()
  pushed : ∃ command, CommandEncoder.consumedByPush command = [.texture u.texture] ∧
    CommandEncoder.push grantAll command e = (.ok (), e₁)

theorem bytesPerPixel_pos {format : TextureFormat} {pixel : UInt32}
    (h : format.bytesPerPixel = some pixel) : 0 < pixel.toNat := by
  cases format with
  | nv12 => cases h
  | _ =>
    cases h
    decide

theorem checkedMul32_eq_some {a b c : UInt32} :
    checkedMul32 a b = some c ↔ a.toNat * b.toNat < 2 ^ 32 ∧ c = a * b := by
  unfold checkedMul32
  split
  · rename_i h
    rw [Option.some.injEq]
    exact ⟨fun hc => ⟨h, hc.symm⟩, fun hc => hc.2.symm⟩
  · rename_i h
    exact iff_of_false (fun hc => by cases hc) fun hc => h hc.1

section Bytes

variable {write : TextureWrite} {format : TextureFormat} {required : UInt64}

theorem toUInt64_toNat (a : UInt32) : a.toUInt64.toNat = a.toNat := UInt32.toNat_toUInt64 a

/-- The bytes that an upload reads: all rows but the last with their padding, and the last. -/
theorem requiredUpload_ok (h : CommandEncoder.requiredUpload write format = .ok required) :
    ∃ pixel, format.bytesPerPixel = some pixel ∧
      write.destination.width.toNat * pixel.toNat < 2 ^ 32 ∧
      write.destination.width.toNat * pixel.toNat ≤ write.bytesPerRow.toNat ∧
      required.toNat = write.bytesPerRow.toNat * (write.destination.height.toNat - 1) +
        write.destination.width.toNat * pixel.toNat := by
  unfold CommandEncoder.requiredUpload at h
  obtain ⟨pixel, hpixel, h⟩ := except_bind_eq_ok.mp h
  obtain ⟨tight, htight, h⟩ := except_bind_eq_ok.mp h
  obtain ⟨_, hstride, h⟩ := except_bind_eq_ok.mp h
  rw [okOr_eq_ok] at hpixel htight h
  rw [failIf_eq_ok, UInt32.not_lt, UInt32.le_iff_toNat_le] at hstride
  obtain ⟨hlt, rfl⟩ := checkedMul32_eq_some.mp htight
  have hproduct : (write.destination.width * pixel).toNat =
      write.destination.width.toNat * pixel.toNat := by
    rw [UInt32.toNat_mul, Nat.mod_eq_of_lt hlt]
  obtain ⟨rows, hrows, hsum⟩ := Option.bind_eq_some_iff.mp h
  have hheight : (write.destination.height - 1).toNat = write.destination.height.toNat - 1 := by
    have hpos : 1 ≤ write.destination.height := by
      rw [UInt32.le_iff_toNat_le]
      have hne : write.destination.height.toNat ≠ 0 := fun hzero =>
        write.destination.valid.2.1 (UInt32.toNat_inj.mp hzero)
      exact Nat.one_le_iff_ne_zero.mpr hne
    exact UInt32.toNat_sub_of_le _ _ hpos
  have hmul : rows.toNat = write.bytesPerRow.toNat * (write.destination.height.toNat - 1) := by
    unfold checkedMul64 at hrows
    split at hrows
    · rename_i hfits
      cases hrows
      rw [UInt64.toNat_mul, Nat.mod_eq_of_lt hfits, toUInt64_toNat, toUInt64_toNat, hheight]
    · cases hrows
  refine ⟨pixel, hpixel, hlt, hproduct ▸ hstride, ?_⟩
  rw [checkedAdd64_toNat hsum, hmul, toUInt64_toNat, hproduct]

/-- The bytes of an upload without padding. -/
theorem requiredUpload_tight {pixel : UInt32} (hpixel : format.bytesPerPixel = some pixel)
    (hlt : write.destination.width.toNat * pixel.toNat < 2 ^ 32)
    (hstride : write.bytesPerRow.toNat = write.destination.width.toNat * pixel.toNat) :
    ∃ required, CommandEncoder.requiredUpload write format = .ok required ∧
      required.toNat = write.destination.height.toNat *
        (write.destination.width.toNat * pixel.toNat) := by
  have hheight := write.destination.height.toNat_lt
  have hpos : 1 ≤ write.destination.height.toNat := by
    have hne : write.destination.height.toNat ≠ 0 := fun hzero =>
      write.destination.valid.2.1 (UInt32.toNat_inj.mp hzero)
    exact Nat.one_le_iff_ne_zero.mpr hne
  have hless : (write.destination.height - 1).toNat = write.destination.height.toNat - 1 :=
    UInt32.toNat_sub_of_le _ _ (UInt32.le_iff_toNat_le.mpr hpos)
  have hproduct : (write.destination.width * pixel).toNat =
      write.destination.width.toNat * pixel.toNat := by
    rw [UInt32.toNat_mul, Nat.mod_eq_of_lt hlt]
  -- Rows of less than `2 ^ 32` bytes, less than `2 ^ 32` of them.
  have hall : write.destination.height.toNat *
      (write.destination.width.toNat * pixel.toNat) < 2 ^ 64 :=
    Nat.lt_of_lt_of_le (Nat.mul_lt_mul'' hheight hlt) (by decide)
  have hsplit : write.bytesPerRow.toNat * (write.destination.height.toNat - 1) +
      write.destination.width.toNat * pixel.toNat = write.destination.height.toNat *
        (write.destination.width.toNat * pixel.toNat) := by
    rw [hstride, Nat.mul_comm, ← Nat.succ_mul, Nat.succ_eq_add_one, Nat.sub_add_cancel hpos]
  have hrows : write.bytesPerRow.toUInt64.toNat * (write.destination.height - 1).toUInt64.toNat =
      write.bytesPerRow.toNat * (write.destination.height.toNat - 1) := by
    rw [toUInt64_toNat, toUInt64_toNat, hless]
  have hmul : checkedMul64 write.bytesPerRow.toUInt64 (write.destination.height - 1).toUInt64 =
      some (write.bytesPerRow.toUInt64 * (write.destination.height - 1).toUInt64) :=
    if_pos (by rw [hrows]; omega)
  have hmulNat : (write.bytesPerRow.toUInt64 *
      (write.destination.height - 1).toUInt64).toNat =
        write.bytesPerRow.toNat * (write.destination.height.toNat - 1) := by
    rw [UInt64.toNat_mul, hrows, Nat.mod_eq_of_lt (by omega)]
  have hadd : checkedAdd64 (write.bytesPerRow.toUInt64 *
      (write.destination.height - 1).toUInt64) (write.destination.width * pixel).toUInt64 =
        some (write.bytesPerRow.toUInt64 * (write.destination.height - 1).toUInt64 +
          (write.destination.width * pixel).toUInt64) :=
    if_pos (by rw [hmulNat, toUInt64_toNat, hproduct]; omega)
  refine ⟨_, ?_, (checkedAdd64_toNat hadd).trans ?_⟩
  · refine except_bind_eq_ok.mpr ⟨pixel, okOr_eq_ok.mpr hpixel, ?_⟩
    refine except_bind_eq_ok.mpr ⟨_, okOr_eq_ok.mpr (checkedMul32_eq_some.mpr ⟨hlt, rfl⟩), ?_⟩
    refine except_bind_eq_ok.mpr ⟨(), failIf_eq_ok.mpr ?_, ?_⟩
    · rw [UInt32.not_lt, UInt32.le_iff_toNat_le, hstride]
      exact Nat.le_of_eq hproduct
    · rw [okOr_eq_ok, hmul]
      exact hadd
  · rw [hmulNat, toUInt64_toNat, hproduct, hsplit]

end Bytes

section Uploads

variable {T : ResourceTable} {c : OwnedCommand} {u p : Upload} {e e₁ e' : CommandEncoder}
  {desc : TextureDesc} {pixel : UInt32} {s₁ : Session}

/-- An upload, as the encoder takes it. -/
def Upload.toWrite (u : Upload) (nonzero : u.stride ≠ 0) : TextureWrite :=
  ⟨u.rect, u.stride, u.data.slice, u.mipLevel, u.arrayLayer, nonzero⟩

theorem outside_upload (h : uploadOf c = some u) :
    outside T c =
      writeTexture T u.texture u.mipLevel u.arrayLayer u.rect u.stride u.data := by
  cases c with
  | writeTexture | writeTextureMip | writeTextureLayer =>
    cases h
    rfl
  | _ => cases h

/-- The upload of a command is what the encoder is given. -/
theorem step_upload (h : uploadOf c = some u) :
    step T grantAll (.idle e) c = .ok s₁ ↔ T.textureRef u.texture = .ok u.texture ∧
      ∃ nonzero : u.stride ≠ 0, ∃ e₁, s₁ = .idle e₁ ∧
        CommandEncoder.writeTexture T grantAll u.texture (u.toWrite nonzero) e = (.ok (), e₁) := by
  rw [step_eq_ok]
  have hresolve : resolve T (.idle e) c =
      writeTexture T u.texture u.mipLevel u.arrayLayer u.rect u.stride u.data := outside_upload h
  simp only [hresolve, writeTexture_ok]
  constructor
  · rintro ⟨call, ⟨href, write, hwrite, rfl⟩, hrun⟩
    unfold TextureWrite.new at hwrite
    split at hwrite
    · rename_i nonzero
      cases hwrite
      rcases hinner : CommandEncoder.writeTexture T grantAll u.texture (u.toWrite nonzero) e with
        ⟨r, e₁⟩
      have hcall : (Session.idle e).call T grantAll
          (.encoder (.writeTexture u.texture (u.toWrite nonzero))) = (r, .idle e₁) := by
        rw [Session.call, EncoderCall.run, hinner]
      obtain ⟨rfl, rfl⟩ := Prod.mk.inj (hcall.symm.trans hrun)
      exact ⟨href, nonzero, e₁, rfl, hinner⟩
    · cases hwrite
  · rintro ⟨href, nonzero, e₁, rfl, hinner⟩
    have hcall : (Session.idle e).call T grantAll
        (.encoder (.writeTexture u.texture (u.toWrite nonzero))) = (.ok (), .idle e₁) := by
      rw [Session.call, EncoderCall.run, hinner]
    exact ⟨_, ⟨href, u.toWrite nonzero, dif_pos nonzero, rfl⟩, hcall⟩

/-- What is known of an upload that a replay accepts. -/
theorem accepted_of_step (h : uploadOf c = some u) (hstep : step T grantAll (.idle e) c = .ok s₁) :
    ∃ desc pixel e₁, s₁ = .idle e₁ ∧ Accepted T e u desc pixel e₁ := by
  obtain ⟨href, nonzero, e₁, rfl, hrun⟩ := (step_upload h).mp hstep
  rw [CommandEncoder.writeTexture, read_bind_run] at hrun
  obtain ⟨⟨⟩, hclosed, hrun⟩ := lift_bind_eq_ok.mp hrun
  obtain ⟨desc, hdesc, hrun⟩ := lift_bind_eq_ok.mp hrun
  obtain ⟨⟨⟩, husage, hrun⟩ := lift_bind_eq_ok.mp hrun
  obtain ⟨⟨⟩, hlayer, hrun⟩ := lift_bind_eq_ok.mp hrun
  obtain ⟨extent, hextent, hrun⟩ := lift_bind_eq_ok.mp hrun
  obtain ⟨⟨⟩, hwithin, hrun⟩ := lift_bind_eq_ok.mp hrun
  obtain ⟨required, hrequired, hrun⟩ := lift_bind_eq_ok.mp hrun
  obtain ⟨⟨⟩, hlength, hrun⟩ := lift_bind_eq_ok.mp hrun
  obtain ⟨⟨⟩, haccess, hpush⟩ := lift_bind_eq_ok.mp hrun
  rw [failIf_eq_ok] at hlayer hwithin hlength
  rw [Bool.not_eq_false] at hwithin
  rw [UInt64.not_lt, UInt64.le_iff_toNat_le] at hlength
  have hlength : required.toNat ≤ u.data.slice.len.toNat := hlength
  rw [Payload.slice_len] at hlength
  obtain ⟨pixel, hpixel, hnarrow, htight, hrows⟩ := requiredUpload_ok hrequired
  exact ⟨desc, pixel, e₁, rfl, href, hdesc, hpixel, bytesPerPixel_pos hpixel, hnarrow,
    ⟨htight, hrows ▸ hlength⟩, husage, hlayer, ⟨extent, hextent, hwithin⟩, haccess, hclosed,
    ⟨_, rfl, hpush⟩⟩

/-- Commands that consume the same announcements are recorded alike. -/
theorem push_like {command command' : Command}
    (hconsumes : CommandEncoder.consumedByPush command = CommandEncoder.consumedByPush command')
    (h : CommandEncoder.push grantAll command e = (.ok (), e₁)) :
    CommandEncoder.push grantAll command' e = (.ok (),
      (e.consumeAccesses (CommandEncoder.consumedByPush command)).append command') := by
  rw [CommandEncoder.push, read_bind_run] at h ⊢
  obtain ⟨⟨⟩, hroom, h⟩ := lift_bind_eq_ok.mp h
  obtain ⟨⟨⟩, hreserve, -⟩ := lift_bind_eq_ok.mp h
  refine lift_bind_eq_ok.mpr ⟨(), hroom, lift_bind_eq_ok.mpr ⟨(), hreserve, ?_⟩⟩
  rw [hconsumes]
  rfl

/-- A band of the rectangle is within an extent that the rectangle is within. -/
theorem isWithin_band {rect band : PixelRect} {extent : Extent2D} {start rows : Nat}
    (hx : band.x = rect.x) (hwidth : band.width = rect.width)
    (hy : band.y.toNat = rect.y.toNat + start) (hheight : band.height.toNat = rows)
    (hrows : start + rows ≤ rect.height.toNat) (h : rect.isWithin extent = true) :
    band.isWithin extent = true := by
  have hvalid := band.valid
  have hvalid' := rect.valid
  unfold PixelRect.isWithin at h ⊢
  rw [Bool.and_eq_true, decide_eq_true_eq, decide_eq_true_eq] at h ⊢
  rw [hx, hwidth]
  refine ⟨h.1, ?_⟩
  have hbottom := h.2
  rw [UInt32.le_iff_toNat_le, UInt32.toNat_add, Nat.mod_eq_of_lt (by omega)] at hbottom ⊢
  omega

/-- Wherever an upload is accepted, a more lenient encoder accepts its pieces. -/
theorem Accepted.piece {start rows : Nat} (h : Accepted T e u desc pixel e₁)
    (hlenient : e.Lenient False e')
    (hp : u.IsPiece (u.rect.width.toNat * pixel.toNat) start rows p)
    (hrows : start + rows ≤ u.rect.height.toNat) :
    ∃ e₁', step T grantAll (.idle e') p.command = .ok (.idle e₁') ∧ e₁.Lenient False e₁' := by
  obtain ⟨command, hconsumes, hpush⟩ := h.pushed
  obtain ⟨extent, hextent, hwithin⟩ := h.extent
  have hwidth : p.rect.width.toNat * pixel.toNat = u.rect.width.toNat * pixel.toNat := by
    rw [hp.width]
  have hnonzero : p.stride ≠ 0 := by
    intro hzero
    have hstride := hp.stride
    have hpos : u.rect.width.toNat ≠ 0 := fun hw => u.rect.valid.1 (UInt32.toNat_inj.mp hw)
    have hproduct := Nat.mul_pos (Nat.pos_of_ne_zero hpos) h.pixel_pos
    rw [← hstride, hzero] at hproduct
    exact Nat.lt_irrefl 0 hproduct
  obtain ⟨⟨⟩, e₂, hpush', -⟩ := (hlenient.push command).of_eq_ok hpush
  have hrecord := push_like (show _ = CommandEncoder.consumedByPush
    (.writeTexture p.texture (p.toWrite hnonzero)) from hconsumes.trans (by
      rw [CommandEncoder.consumedByPush, hp.texture])) hpush'
  have htight : (p.toWrite hnonzero).bytesPerRow.toNat =
      (p.toWrite hnonzero).destination.width.toNat * pixel.toNat := hp.stride.trans hwidth.symm
  have hnarrow : (p.toWrite hnonzero).destination.width.toNat * pixel.toNat < 2 ^ 32 :=
    hwidth ▸ h.narrow
  obtain ⟨required, hrequired, hbytes⟩ := requiredUpload_tight h.format hnarrow htight
  have hlength : p.data.len = rows * (u.rect.width.toNat * pixel.toNat) := by
    rw [Payload.len, hp.data]
    exact h.fits.pixels_length hrows
  have henough : ¬ (p.toWrite hnonzero).data.len < required := by
    rw [UInt64.not_lt, UInt64.le_iff_toNat_le, hbytes]
    show p.rect.height.toNat * (p.rect.width.toNat * pixel.toNat) ≤ p.data.slice.len.toNat
    rw [Payload.slice_len, hlength, hwidth]
    exact Nat.le_of_eq (congrArg (· * _) hp.height)
  have hlayer : ¬ desc.arrayLayerCount ≤ p.arrayLayer := hp.arrayLayer ▸ h.layer
  have hmip : desc.mipExtent p.mipLevel = .ok extent := hp.mipLevel ▸ hextent
  have hrun : CommandEncoder.writeTexture T grantAll p.texture (p.toWrite hnonzero) e' = (.ok (),
      (e'.consumeAccesses (CommandEncoder.consumedByPush command)).append
        (.writeTexture p.texture (p.toWrite hnonzero))) := by
    rw [CommandEncoder.writeTexture, read_bind_run]
    refine lift_bind_eq_ok.mpr ⟨(), hlenient.ensureOutsidePass.ok () h.closed, ?_⟩
    refine lift_bind_eq_ok.mpr ⟨desc, hp.texture ▸ h.resolves, ?_⟩
    refine lift_bind_eq_ok.mpr ⟨(), h.usage, ?_⟩
    refine lift_bind_eq_ok.mpr ⟨(), failIf_eq_ok.mpr hlayer, ?_⟩
    refine lift_bind_eq_ok.mpr ⟨extent, hmip, ?_⟩
    refine lift_bind_eq_ok.mpr ⟨(), failIf_eq_ok.mpr ?_, ?_⟩
    · rw [Bool.not_eq_false]
      exact isWithin_band hp.x hp.width hp.y hp.height hrows hwithin
    refine lift_bind_eq_ok.mpr ⟨required, hrequired, ?_⟩
    refine lift_bind_eq_ok.mpr ⟨(), failIf_eq_ok.mpr henough, ?_⟩
    refine lift_bind_eq_ok.mpr ⟨(), ?_, hrecord⟩
    show CommandEncoder.checkTextureMipAccess T e' p.texture p.mipLevel .copyDestination = .ok ()
    rw [hp.texture, hp.mipLevel]
    exact (hlenient.checkTextureMipAccess ..).ok () h.access
  have hupload : uploadOf p.command = some p := rfl
  refine ⟨_, (step_upload hupload).mpr ⟨hp.texture ▸ h.reference, hnonzero, _, rfl, hrun⟩, ?_⟩
  obtain ⟨-, rfl⟩ := CommandEncoder.push_ok hpush
  have happended :=
    (hlenient.consumeAccesses (CommandEncoder.consumedByPush command)).append command
  exact ⟨happended.passOpen, happended.count_le, happended.pending, happended.announced,
    happended.same⟩

end Uploads

end Sgfx.Vulkan
