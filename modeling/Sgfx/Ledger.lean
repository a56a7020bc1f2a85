import Sgfx.Executions

/-!
# The encoder's ledger

The command encoder keeps its pending writes and announced accesses as two lists
of keys.  Seen from a location, the lists say two things: whether a storage write
is pending there (`Pending`), and which access is announced for it.  An access is
admitted when nothing is pending at its location and nothing else is announced
for it (`Admits`); the encoder's three access checks succeed exactly then.

`CommandEncoder.recorded` is what recording a command does to the encoder,
whichever call recorded it.

## Main Definitions

* `CommandEncoder.Pending`, `CommandEncoder.Admits`, `ResourceTable.Declares`
* `Command.usedKeys`, `Command.writtenKeys`
* `Command.Admissible`, `CommandEncoder.recorded`

## Main Results

* `checkBufferAccess_eq_ok`, `checkTextureMipAccess_eq_ok`, `checkTextureAccess_ok`
-/

namespace Sgfx

/-- The location exists: its buffer or texture resolves, and the texture declares
the level. -/
def ResourceTable.Declares (T : ResourceTable) : Location → Prop
  | .buffer id => ∃ desc, T.buffer id = .ok desc
  | .mip texture level => ∃ desc, T.texture texture = .ok desc ∧ level ∈ desc.mipLevels

namespace CommandEncoder

/-! ## Locations -/

/-- A storage write of the location waits for a barrier. -/
def Pending (e : CommandEncoder) : Location → Prop
  | .buffer id => .buffer id ∈ e.pendingWrites
  | .mip texture level =>
      .textureMip texture level ∈ e.pendingWrites ∨
        (level = 0 ∧ .texture texture ∈ e.pendingWrites)

/-- The access of a location agrees with what is announced for it. -/
def Agrees (e : CommandEncoder) (a : AnnouncedAccess) : Prop :=
  ∀ x ∈ e.announcedAccesses, x.location = a.location → x = a

/-- The access may be recorded now. -/
structure Admits (e : CommandEncoder) (a : AnnouncedAccess) : Prop where
  synchronised : ¬ e.Pending a.location
  agrees : e.Agrees a

theorem mipPending_eq_true {e : CommandEncoder} {texture : TextureId} {mip : UInt32} :
    e.mipPending texture mip = true ↔ e.Pending (.mip texture mip) := by
  simp [mipPending, Pending]

/-- The announcement test of buffer checks and of buffer barriers. -/
theorem bufferAgrees_iff {e : CommandEncoder} {buffer : BufferId} {access : BufferAccess} :
    (¬ e.announcedAccesses.any (fun entry => match entry with
      | .buffer id expected => id == buffer && expected != access
      | .texture .. => false) = true) ↔ e.Agrees (.buffer buffer access) := by
  rw [List.any_eq_true, Agrees]
  constructor
  · intro h x hx hlocation
    cases x with
    | buffer id expected =>
        obtain rfl : id = buffer := by simpa [AnnouncedAccess.location] using hlocation
        have : expected = access := by
          by_contra hne
          exact h ⟨_, hx, by simpa using hne⟩
        rw [this]
    | texture id level expected => simp [AnnouncedAccess.location] at hlocation
  · rintro h ⟨x, hx, hbad⟩
    cases x with
    | buffer id expected =>
        simp only [Bool.and_eq_true, beq_iff_eq, bne_iff_ne, ne_eq] at hbad
        obtain ⟨rfl, hne⟩ := hbad
        have := h _ hx rfl
        simp only [AnnouncedAccess.buffer.injEq, true_and] at this
        exact hne this
    | texture id level expected => simp at hbad

/-- The announcement test of texture checks and of texture barriers. -/
theorem mipAgrees_iff {e : CommandEncoder} {texture : TextureId} {mip : UInt32}
    {access : TextureAccess} :
    (¬ e.announcedAccesses.any (fun entry => match entry with
      | .texture id level expected => id == texture && level == mip && expected != access
      | .buffer .. => false) = true) ↔ e.Agrees (.texture texture mip access) := by
  rw [List.any_eq_true, Agrees]
  constructor
  · intro h x hx hlocation
    cases x with
    | texture id level expected =>
        simp only [AnnouncedAccess.location, Location.mip.injEq] at hlocation
        obtain ⟨rfl, rfl⟩ := hlocation
        have : expected = access := by
          by_contra hne
          exact h ⟨_, hx, by simpa using hne⟩
        rw [this]
    | buffer id expected => simp [AnnouncedAccess.location] at hlocation
  · rintro h ⟨x, hx, hbad⟩
    cases x with
    | texture id level expected =>
        simp only [Bool.and_eq_true, beq_iff_eq, bne_iff_ne, ne_eq] at hbad
        obtain ⟨⟨rfl, rfl⟩, hne⟩ := hbad
        have := h _ hx rfl
        simp only [AnnouncedAccess.texture.injEq, true_and] at this
        exact hne this
    | buffer id expected => simp at hbad

/-! ## The access checks -/

variable {T : ResourceTable} {e : CommandEncoder}

theorem checkBufferAccess_eq_ok {buffer : BufferId} {access : BufferAccess} {u : Unit} :
    e.checkBufferAccess buffer access = .ok u ↔ e.Admits (.buffer buffer access) := by
  rw [checkBufferAccess, except_bind_eq_ok]
  simp only [failIf_eq_ok]
  constructor
  · rintro ⟨-, hpending, hagrees⟩
    exact ⟨by simpa [Pending, AnnouncedAccess.location] using hpending,
      bufferAgrees_iff.mp hagrees⟩
  · rintro ⟨hpending, hagrees⟩
    exact ⟨(), by simpa [Pending, AnnouncedAccess.location] using hpending,
      bufferAgrees_iff.mpr hagrees⟩

/-- A level is accepted when it is declared and the encoder admits the access. -/
theorem checkTextureMipAccess_eq_ok {texture : TextureId} {mip : UInt32}
    {access : TextureAccess} {u : Unit} :
    checkTextureMipAccess T e texture mip access = .ok u ↔
      T.Declares (.mip texture mip) ∧ e.Admits (.texture texture mip access) := by
  simp only [checkTextureMipAccess, except_bind_eq_ok, failIf_eq_ok, mipPending_eq_true]
  constructor
  · rintro ⟨desc, hdesc, extent, hextent, -, hpending, hagrees⟩
    exact ⟨⟨desc, hdesc, TextureDesc.mem_mipLevels.mpr
      (TextureDesc.declared_of_mipExtent hextent)⟩, hpending, mipAgrees_iff.mp hagrees⟩
  · rintro ⟨⟨desc, hdesc, hmip⟩, hpending, hagrees⟩
    obtain ⟨extent, hextent⟩ := TextureDesc.mipExtent_of_declared
      (TextureDesc.mem_mipLevels.mp hmip)
    exact ⟨desc, hdesc, extent, hextent, (), hpending, mipAgrees_iff.mpr hagrees⟩

/-- A texture is accepted when it resolves and every declared level is. -/
theorem checkTextureAccess_eq_ok {texture : TextureId} {access : TextureAccess} {u : Unit} :
    checkTextureAccess T e texture access = .ok u ↔
      (∃ desc, T.texture texture = .ok desc) ∧
        ∀ a ∈ textureAccesses T texture access, e.Admits a := by
  simp only [checkTextureAccess, except_bind_eq_ok, forEach_eq_ok, textureAccesses]
  constructor
  · rintro ⟨desc, hdesc, hmips⟩
    refine ⟨⟨desc, hdesc⟩, ?_⟩
    simp only [hdesc, List.forall_mem_map]
    exact fun mip hmip => (checkTextureMipAccess_eq_ok.mp (hmips mip hmip)).2
  · rintro ⟨⟨desc, hdesc⟩, hadmits⟩
    simp only [hdesc, List.forall_mem_map] at hadmits
    exact ⟨desc, hdesc, fun mip hmip =>
      checkTextureMipAccess_eq_ok.mpr ⟨⟨desc, hdesc, hmip⟩, hadmits mip hmip⟩⟩

end CommandEncoder

theorem declares_of_mem_textureAccesses {T : ResourceTable} {texture : TextureId}
    {access : TextureAccess} {a : AnnouncedAccess} (h : a ∈ textureAccesses T texture access) :
    T.Declares a.location := by
  unfold textureAccesses at h
  split at h
  · rename_i desc hdesc
    obtain ⟨mip, hmip, rfl⟩ := List.mem_map.mp h
    exact ⟨desc, hdesc, hmip⟩
  · simp at h

/-! ## What recording a command does -/

namespace Bindings

/-- The keys a fixed-function draw adds to the resources its pass used. -/
def fixedKeys (b : Bindings) (desc : RenderPipelineDesc) (indexed : Bool) :
    List PendingWrite :=
  (if indexed then b.indexBuffer.toList.map fun index => .buffer index.1 else []) ++
    (getElem b.vertexBuffers 0 zero_lt_maxVertexBuffers).toList.map (fun vertex => .buffer vertex.1) ++
    (if desc.fragment.samples then b.texture else none).toList.map .texture

/-- The keys of a programmable draw. -/
def programmableKeys (T : ResourceTable) (b : Bindings) (desc : ProgrammableRenderPipelineDesc)
    (indexed : Bool) : List PendingWrite :=
  (layoutBindings T desc.layout b.bindGroups).flatMap
      (fun binding => CommandEncoder.bindingKeys binding.1) ++
    CommandEncoder.fetchKeys (b.vertexSlots desc)
      (if indexed then b.indexBuffer.map Prod.fst else none)

/-- The keys of a draw. -/
def drawKeys (T : ResourceTable) (b : Bindings) (indexed : Bool) : List PendingWrite :=
  match b.drawPipeline T with
  | some (.fixed desc) => b.fixedKeys desc indexed
  | some (.programmable desc) => b.programmableKeys T desc indexed
  | none => []

end Bindings

namespace Command

/-- The keys of the resources a draw or dispatch uses. -/
def usedKeys (T : ResourceTable) (b : Bindings) : Command → List PendingWrite
  | .draw .. | .drawInstanced .. => b.drawKeys T false
  | .drawIndexed .. | .drawIndexedInstanced .. => b.drawKeys T true
  | .dispatch .. =>
      (b.dispatchBindings T).flatMap fun binding => CommandEncoder.bindingKeys binding.1
  | _ => []

/-- The keys of its storage writes. -/
def writtenKeys (T : ResourceTable) (b : Bindings) (command : Command) : List PendingWrite :=
  ((command.boundResources T b).filter fun binding => bindingWrites binding.2).flatMap
    fun binding => CommandEncoder.bindingKeys binding.1

/-- Whether the command only sets the state of a pass. -/
def setsState : Command → Bool
  | .setPipeline _ | .setProgrammablePipeline _ | .setComputePipeline _ | .setBindGroup ..
  | .setVertexBuffer .. | .setVertexBufferSlot .. | .setIndexBuffer .. | .setTexture _
  | .setSampler _ | .setUniforms _ | .setDrawIndex _ | .setScissor _ | .setViewport _
  | .setPushConstants .. => true
  | _ => false

/-- The command sets what is in force already. -/
def Repeats (command : Command) (b : Bindings) : Prop :=
  command.setsState = true ∧ b.apply command = b

/-- Whether the command is recorded outside passes: an upload, a copy, a blit or
a barrier. -/
def transfers : Command → Bool
  | .writeBuffer .. | .writeTexture .. | .blitTexture .. | .copyTextureToTexture ..
  | .copyBufferToBuffer .. | .resourceBarrier _ => true
  | _ => false

/-- Whether the command is a draw of a render pass, and then whether it fetches
indices. -/
def drawKind : Command → Option Bool
  | .draw .. | .drawInstanced .. => some false
  | .drawIndexed .. | .drawIndexedInstanced .. => some true
  | _ => none

/-- What a call of the command encoder asks for is recorded outside passes. -/
theorem transfers_of_asks {c : EncoderCall} {command : Command} (asks : c.Asks command) :
    command.transfers = true := by
  cases c with
  | blitTexture =>
      obtain ⟨_, _, rfl⟩ := asks
      rfl
  | _ => cases asks; rfl

/-- A command and its normal form set state alike, and draw alike. -/
theorem setsState_normalise (command : Command) :
    command.normalise.setsState = command.setsState := by
  cases command with
  | setVertexBufferSlot | drawInstanced | drawIndexedInstanced =>
      rw [normalise]
      split <;> rfl
  | _ => rfl

theorem drawKind_normalise (command : Command) :
    command.normalise.drawKind = command.drawKind := by
  cases command with
  | setVertexBufferSlot | drawInstanced | drawIndexedInstanced =>
      rw [normalise]
      split <;> rfl
  | _ => rfl

theorem repeats_normalise {command : Command} {b : Bindings} :
    command.normalise.Repeats b ↔ command.Repeats b := by
  rw [Repeats, Repeats, setsState_normalise, Bindings.apply_normalise]

/-- Setting state uses no resource. -/
theorem usedKeys_of_setsState {command : Command} (T : ResourceTable) (b : Bindings)
    (state : command.setsState = true) : command.usedKeys T b = [] := by
  cases command <;> first | (cases state; done) | rfl

/-- Whether a pass is open after the command, given whether one was before. -/
def passOpenAfter (before : Bool) : Command → Bool
  | .beginRenderPass _ | .beginComputePass => true
  | .endRenderPass | .endComputePass => false
  | _ => before

/-- The accesses and barriers of the command fit the encoder's ledger, and the
textures it uses whole are live. -/
structure Admissible (command : Command) (T : ResourceTable) (b : Bindings)
    (e : CommandEncoder) : Prop where
  admits : ∀ a ∈ command.accesses T b, T.Declares a.location ∧ e.Admits a
  live : ∀ texture, .texture texture ∈ command.usedKeys T b →
    ∃ desc, T.texture texture = .ok desc
  connects : ∀ a ∈ command.sources T, T.Declares a.location ∧ e.Agrees a ∧
    (e.Pending a.location → command.covers a.location)

end Command

namespace CommandEncoder

/-- The encoder after recording a command. -/
def recorded (e : CommandEncoder) (T : ResourceTable) (b : Bindings) (command : Command) :
    CommandEncoder :=
  match command with
  | .resourceBarrier .global =>
      { e.append command with pendingWrites := [], announcedAccesses := [] }
  | .resourceBarrier barrier => (barrier.announces T).foldl announce (e.append command)
  | command =>
      { (e.consumeAccesses (consumedByPush command ++ command.usedKeys T b)).append command with
        pendingWrites := e.pendingWrites ++ command.writtenKeys T b
        passOpen := command.passOpenAfter e.passOpen }

@[simp] theorem append_pendingWrites (e : CommandEncoder) (command : Command) :
    (e.append command).pendingWrites = e.pendingWrites := rfl

@[simp] theorem append_announcedAccesses (e : CommandEncoder) (command : Command) :
    (e.append command).announcedAccesses = e.announcedAccesses := rfl

@[simp] theorem append_validationOnly (e : CommandEncoder) (command : Command) :
    (e.append command).validationOnly = e.validationOnly := rfl

@[simp] theorem consumeAccesses_nil (e : CommandEncoder) : e.consumeAccesses [] = e := by
  have unchanged : e.announcedAccesses.filter (fun _ => true) = e.announcedAccesses :=
    List.filter_eq_self.mpr fun _ _ => rfl
  simp [consumeAccesses, unchanged]

theorem announce_fields (e : CommandEncoder) (a : AnnouncedAccess) :
    (e.announce a).commands = e.commands ∧ (e.announce a).validationOnly = e.validationOnly := by
  cases a <;> exact ⟨rfl, rfl⟩

theorem foldl_announce_fields (announced : List AnnouncedAccess) (e : CommandEncoder) :
    (announced.foldl announce e).commands = e.commands ∧
      (announced.foldl announce e).validationOnly = e.validationOnly := by
  induction announced generalizing e with
  | nil => exact ⟨rfl, rfl⟩
  | cons a rest ih =>
      rw [List.foldl_cons, (ih _).1, (ih _).2]
      exact announce_fields e a

/-- Recording appends the command, unless the encoder only validates. -/
theorem recorded_fields (e : CommandEncoder) (T : ResourceTable) (b : Bindings)
    (command : Command) :
    (e.recorded T b command).commands =
        (if e.validationOnly then e.commands else e.commands ++ [command]) ∧
      (e.recorded T b command).validationOnly = e.validationOnly := by
  unfold recorded
  split
  · exact ⟨rfl, rfl⟩
  · rename_i barrier _
    rw [(foldl_announce_fields _ _).1, (foldl_announce_fields _ _).2]
    exact ⟨rfl, rfl⟩
  · exact ⟨rfl, rfl⟩

end CommandEncoder

end Sgfx
