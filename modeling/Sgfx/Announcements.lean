import Sgfx.Exclusivity

/-!
# Announced accesses

A barrier announces an access of every location it names, and the encoder keeps
the announcement until the location is named or used again.  `Announced` says this
of a history, and `World.AnnouncesExactly` compares it with the encoder's list.

The list is kept exact by every command except four.  An upload, a texture copy
and the attachments of a render pass drop the announcements of every level of
their textures, although they use one level; a blit drops none, although it uses
two.  `Command.ConsumesItsLevels` is the condition under which this makes no
difference.

## Main Definitions

* `Execution.Touches`, `Announced`
* `World.AnnouncesExactly`
* `World.ConsumesItsLevels`

## Main Results

* `CommandEncoder.mem_recorded` — the announcements after one recorded command
* `Command.consumes_iff_uses` — when a command consumes what it uses
* `announcesExactly_iff` — the list is exact in every state of a run exactly when
  every accepted call meets the condition
-/

namespace Sgfx

/-! ## Announcements of a history -/

/-- The command uses the location, or is a barrier that names it; a global
barrier names every location. -/
def Execution.Touches (e : Execution) (l : Location) : Prop :=
  e.command = .resourceBarrier .global ∨ (∃ a ∈ e.announces, a.location = l) ∨ e.Uses l

instance (e : Execution) (l : Location) : Decidable (e.Touches l) :=
  inferInstanceAs (Decidable (_ ∨ (∃ a ∈ e.announces, a.location = l) ∨
    ∃ a ∈ e.accesses, a.location = l))

/-- The last command that touches the location of an access is a barrier that
announces the access. -/
def Announced (history : List Execution) (a : AnnouncedAccess) : Prop :=
  Since (fun e => a ∈ e.announces) (fun e => e.Touches a.location) history

theorem Execution.not_touches_iff {e : Execution} {l : Location} :
    ¬ e.Touches l ↔ e.command ≠ .resourceBarrier .global ∧
      (∀ a ∈ e.announces, l ≠ a.location) ∧ ¬ e.Uses l := by
  simp [Touches, eq_comm]

theorem announced_snoc {history : List Execution} {e : Execution} {a : AnnouncedAccess} :
    Announced (history ++ [e]) a ↔
      a ∈ e.announces ∨ (Announced history a ∧ ¬ e.Touches a.location) :=
  since_snoc

/-- The encoder's list is exact: it holds what is announced, and what is announced
is what the next command that touches the location uses or waits for. -/
structure World.AnnouncesExactly (w : World) : Prop where
  exact : ∀ a, a ∈ w.session.encoder.announcedAccesses ↔ Announced (executions w.log) a
  follows : ∀ a, Along (fun past e => Announced past a →
    ∀ x ∈ e.accesses, x.location = a.location → x = a) (executions w.log)
  chains : ∀ a, Along (fun past e => Announced past a →
    ∀ s ∈ e.sources, s.location = a.location → s = a) (executions w.log)

/-! ## The condition -/

/-- The announcements the command drops are those of the levels it uses: nothing
is announced for another level of a texture that an upload, a copy or an
attachment uses, and nothing for the two levels of a blit. -/
def Command.ConsumesItsLevels (announced : List AnnouncedAccess) : Command → Prop
  | .writeTexture texture write => ∀ a ∈ announced,
      a.location.texture = some texture → a.location = .mip texture write.mipLevel
  | .copyTextureToTexture source _ destination _ =>
      ∀ a ∈ announced, ∀ texture ∈ [source, destination],
        a.location.texture = some texture → a.location = .mip texture 0
  | .beginRenderPass desc =>
      ∀ a ∈ announced,
        ∀ texture ∈ desc.colorAttachments.map (·.target) ++ desc.depth.toList.map (·.target),
          a.location.texture = some texture → a.location = .mip texture 0
  | .blitTexture source sourceMip destination destinationMip _ _ _ _ => ∀ a ∈ announced,
      a.location ≠ .mip source sourceMip ∧ a.location ≠ .mip destination destinationMip
  | _ => True

theorem Command.consumesItsLevels_of_setsState {command : Command}
    {announced : List AnnouncedAccess} (state : command.setsState = true) :
    command.ConsumesItsLevels announced := by
  cases command <;> trivial

/-- If the event is a call that records a command, the command drops the
announcements of the levels it uses. -/
def World.ConsumesItsLevels (w : World) : Event → Prop
  | .call alloc c => w.Accepts alloc c → ∀ command, c.Asks command →
      command.ConsumesItsLevels w.session.encoder.announcedAccesses
  | .table .. | .pass _ => True

/-- The condition depends on the call only: its blits differ in their rectangles. -/
theorem Call.Asks.consumesItsLevels_iff {c : Call} {command other : Command}
    {announced : List AnnouncedAccess} (asks : c.Asks command) (asks' : c.Asks other) :
    command.ConsumesItsLevels announced ↔ other.ConsumesItsLevels announced := by
  cases c with
  | encoder c =>
      cases c with
      | blitTexture =>
          obtain ⟨_, _, rfl⟩ := asks
          obtain ⟨_, _, rfl⟩ := asks'
          exact Iff.rfl
      | _ =>
          cases asks
          cases asks'
          exact Iff.rfl
  | endPass => rcases asks with rfl | rfl <;> rcases asks' with rfl | rfl <;> exact Iff.rfl
  | dropPass => cases asks
  | _ =>
      cases asks
      cases asks'
      exact Iff.rfl

/-! ## What a key consumes -/

namespace PendingWrite

variable {a : AnnouncedAccess}

@[simp] theorem consumes_buffer {id : BufferId} :
    (PendingWrite.buffer id).consumes a = true ↔ a.location = .buffer id := by
  cases a <;> simp [consumes, AnnouncedAccess.resource, AnnouncedAccess.location]

@[simp] theorem consumes_texture {id : TextureId} :
    (PendingWrite.texture id).consumes a = true ↔ a.location.texture = some id := by
  cases a <;> simp [consumes, AnnouncedAccess.resource, AnnouncedAccess.location,
    Location.texture]

@[simp] theorem consumes_textureMip {id : TextureId} {mip : UInt32} :
    (PendingWrite.textureMip id mip).consumes a = true ↔ a.location = .mip id mip := by
  cases a <;> simp [consumes, AnnouncedAccess.location]

end PendingWrite

/-- The texture of an announcement is gone, or declares the level. -/
def ResourceTable.Lists (T : ResourceTable) (a : AnnouncedAccess) : Prop :=
  ∀ texture, a.location.texture = some texture → T.Gone texture ∨ T.Declares a.location

theorem ResourceTable.Lists.mono {T T' : ResourceTable} {a : AnnouncedAccess}
    (h : T.Lists a) (evolves : T.Evolves T') : T'.Lists a := by
  intro texture htexture
  rcases h texture htexture with gone | declares
  · exact .inl (gone.mono evolves)
  · cases hl : a.location with
    | buffer id => simp [hl, Location.texture] at htexture
    | mip other level =>
        obtain rfl : other = texture := by simpa [hl, Location.texture] using htexture
        rw [hl] at declares
        obtain ⟨desc, live, hlevel⟩ := declares
        exact (evolves.get live).symm.imp_right fun live' => ⟨desc, live', hlevel⟩

/-- The keys consume an announcement exactly when one of the accesses is at its
location. -/
def Matches (a : AnnouncedAccess) (keys : List PendingWrite) (accesses : List AnnouncedAccess) :
    Prop :=
  (∃ key ∈ keys, key.consumes a = true) ↔ ∃ x ∈ accesses, x.location = a.location

namespace Matches

variable {T : ResourceTable} {a : AnnouncedAccess}

theorem nil : Matches a [] [] := by simp [Matches]

theorem append {keys keys' : List PendingWrite} {accesses accesses' : List AnnouncedAccess}
    (h : Matches a keys accesses) (h' : Matches a keys' accesses') :
    Matches a (keys ++ keys') (accesses ++ accesses') := by
  simp only [Matches, List.mem_append, or_and_right, exists_or] at h h' ⊢
  rw [h, h']

theorem flatMap {α : Type} {items : List α} {keys : α → List PendingWrite}
    {accesses : α → List AnnouncedAccess}
    (h : ∀ item ∈ items, Matches a (keys item) (accesses item)) :
    Matches a (items.flatMap keys) (items.flatMap accesses) := by
  induction items with
  | nil => exact nil
  | cons first rest ih =>
      rw [List.forall_mem_cons] at h
      rw [List.flatMap_cons, List.flatMap_cons]
      exact h.1.append (ih h.2)

theorem map {α : Type} {items : List α} {key : α → PendingWrite} {access : α → AnnouncedAccess}
    (h : ∀ item ∈ items, Matches a [key item] [access item]) :
    Matches a (items.map key) (items.map access) := by
  rw [List.map_eq_flatMap, List.map_eq_flatMap]
  exact flatMap h

theorem buffer (id : BufferId) (access : BufferAccess) :
    Matches a [.buffer id] [.buffer id access] := by
  simpa [Matches, AnnouncedAccess.location] using eq_comm

theorem textureMip (id : TextureId) (mip : UInt32) (access : TextureAccess) :
    Matches a [.textureMip id mip] [.texture id mip access] := by
  simpa [Matches, AnnouncedAccess.location] using eq_comm

/-- A live texture that is used whole: all its declared levels. -/
theorem texture {id : TextureId} {desc : TextureDesc} (lists : T.Lists a)
    (live : T.texture id = .ok desc) (access : TextureAccess) :
    Matches a [.texture id] (textureAccesses T id access) := by
  simp only [Matches, List.mem_singleton, exists_eq_left, PendingWrite.consumes_texture,
    textureAccesses, live, List.mem_map, exists_exists_and_eq_and]
  constructor
  · intro htexture
    have declared := (lists id htexture).resolve_left fun gone => gone.get_ne_ok live
    cases hl : a.location with
    | buffer other => simp [hl, Location.texture] at htexture
    | mip other level =>
        obtain rfl : other = id := by simpa [hl, Location.texture] using htexture
        rw [hl] at declared
        obtain ⟨desc', live', hlevel⟩ := declared
        obtain rfl : desc = desc' := Except.ok.inj (live.symm.trans live')
        exact ⟨level, hlevel, rfl⟩
  · rintro ⟨level, -, hl⟩
    rw [← hl]
    rfl

theorem binding (lists : T.Lists a) (binding : BindingResource × BindingType)
    (live : ∀ id, .texture id ∈ CommandEncoder.bindingKeys binding.1 →
      ∃ desc, T.texture id = .ok desc) :
    Matches a (CommandEncoder.bindingKeys binding.1) (bindingAccesses T binding) := by
  obtain ⟨resource, ty⟩ := binding
  cases resource with
  | buffer id offset size => exact buffer id _
  | textureView id view => exact map fun mip _ => textureMip id mip _
  | texture id =>
      obtain ⟨desc, hdesc⟩ := live id (by simp [CommandEncoder.bindingKeys])
      exact texture lists hdesc _
  | sampler id => exact nil

theorem bindings (lists : T.Lists a) {items : List (BindingResource × BindingType)}
    (live : ∀ id, .texture id ∈ items.flatMap
      (fun binding => CommandEncoder.bindingKeys binding.1) → ∃ desc, T.texture id = .ok desc) :
    Matches a (items.flatMap fun binding => CommandEncoder.bindingKeys binding.1)
      (items.flatMap (bindingAccesses T)) :=
  flatMap fun item hitem => binding lists item fun id hid =>
    live id (List.mem_flatMap.mpr ⟨item, hitem, hid⟩)

theorem fixed (lists : T.Lists a) (b : Bindings) (desc : RenderPipelineDesc) (indexed : Bool)
    (live : ∀ id, .texture id ∈ b.fixedKeys desc indexed → ∃ desc, T.texture id = .ok desc) :
    Matches a (b.fixedKeys desc indexed) (b.fixedAccesses T desc indexed) := by
  unfold Bindings.fixedKeys at live ⊢
  unfold Bindings.fixedAccesses Bindings.indexAccesses
  refine append (append ?_ (map fun vertex _ => buffer _ _)) ?_
  · split
    · exact map fun index _ => buffer _ _
    · exact nil
  · rw [List.map_eq_flatMap]
    refine flatMap fun id hid => ?_
    obtain ⟨desc, hdesc⟩ := live id (List.mem_append_right _ (List.mem_map_of_mem hid))
    exact texture lists hdesc _

theorem programmable (lists : T.Lists a) (b : Bindings) (desc : ProgrammableRenderPipelineDesc)
    (indexed : Bool) (live : ∀ id, .texture id ∈ b.programmableKeys T desc indexed →
      ∃ desc, T.texture id = .ok desc) :
    Matches a (b.programmableKeys T desc indexed) (b.programmableAccesses T desc indexed) := by
  unfold Bindings.programmableKeys CommandEncoder.fetchKeys at live ⊢
  unfold Bindings.programmableAccesses Bindings.indexAccesses
  rw [List.append_assoc]
  refine append (bindings lists fun id hid => live id (List.mem_append_left _ hid))
    (append (map fun vertex _ => buffer _ _) ?_)
  cases indexed with
  | false => exact nil
  | true =>
      cases b.indexBuffer with
      | none => exact nil
      | some index => exact buffer _ _

theorem draw (lists : T.Lists a) (b : Bindings) (indexed : Bool)
    (live : ∀ id, .texture id ∈ b.drawKeys T indexed → ∃ desc, T.texture id = .ok desc) :
    Matches a (b.drawKeys T indexed) (b.drawAccesses T indexed) := by
  unfold Bindings.drawKeys at live ⊢
  unfold Bindings.drawAccesses
  cases hpipeline : b.drawPipeline T with
  | none => exact nil
  | some pipeline =>
      rw [hpipeline] at live
      cases pipeline with
      | fixed desc => exact fixed lists b desc indexed live
      | programmable desc => exact programmable lists b desc indexed live

end Matches

/-! ## One recorded command -/

namespace Command

theorem announces_eq_nil {T : ResourceTable} {command : Command}
    (notBarrier : ¬ ∃ barrier, command = .resourceBarrier barrier) :
    command.announces T = [] := by
  unfold announces
  split
  · exact absurd ⟨_, rfl⟩ notBarrier
  · rfl

variable {T : ResourceTable} {b : Bindings} {e : CommandEncoder} {command : Command}

/-- Recording the command drops the announcement. -/
def Consumes (command : Command) (T : ResourceTable) (b : Bindings) (a : AnnouncedAccess) :
    Prop :=
  ∃ key ∈ CommandEncoder.consumedByPush command ++ command.usedKeys T b, key.consumes a = true

/-- Keys of whole textures, for accesses of one level of each. -/
theorem wholeKeys_consume_iff (a : AnnouncedAccess) (textures : List TextureId) (level : UInt32)
    (accesses : List AnnouncedAccess)
    (oneLevel : accesses.map AnnouncedAccess.location = textures.map (.mip · level)) :
    Matches a (textures.map .texture) accesses ↔
      ∀ texture ∈ textures, a.location.texture = some texture → a.location = .mip texture level := by
  have used : (∃ x ∈ accesses, x.location = a.location) ↔
      ∃ texture ∈ textures, .mip texture level = a.location := by
    rw [← List.mem_map, oneLevel, List.mem_map]
  rw [Matches, used]
  simp only [List.mem_map, exists_exists_and_eq_and, PendingWrite.consumes_texture]
  constructor
  · intro h texture hmem htexture
    obtain ⟨other, -, hlocation⟩ := h.mp ⟨texture, hmem, htexture⟩
    rw [← hlocation] at htexture ⊢
    rw [Option.some.inj htexture]
  · intro h
    constructor
    · rintro ⟨texture, hmem, htexture⟩
      exact ⟨texture, hmem, (h texture hmem htexture).symm⟩
    · rintro ⟨texture, hmem, hlocation⟩
      refine ⟨texture, hmem, ?_⟩
      rw [← hlocation]
      rfl

/-- A command consumes exactly the announcements of what it uses if and only if
it meets the condition. -/
theorem consumes_iff_uses {announced : List AnnouncedAccess}
    (lists : ∀ a ∈ announced, T.Lists a)
    (live : ∀ texture, .texture texture ∈ command.usedKeys T b →
      ∃ desc, T.texture texture = .ok desc) :
    (∀ a ∈ announced, (command.Consumes T b a ↔
        ∃ x ∈ command.accesses T b, x.location = a.location)) ↔
      command.ConsumesItsLevels announced := by
  have always : (∀ a ∈ announced, Matches a
      (CommandEncoder.consumedByPush command ++ command.usedKeys T b)
      (command.accesses T b)) → ((∀ a ∈ announced, (command.Consumes T b a ↔
        ∃ x ∈ command.accesses T b, x.location = a.location)) ↔ True) :=
    fun h => iff_true_intro h
  cases command with
  | writeTexture texture write =>
      refine forall₂_congr fun a _ => ?_
      have whole := wholeKeys_consume_iff a [texture] write.mipLevel
        (accesses T b (.writeTexture texture write)) rfl
      rwa [List.forall_mem_singleton] at whole
  | copyTextureToTexture source _ destination _ =>
      exact forall₂_congr fun a _ =>
        wholeKeys_consume_iff a [source, destination] 0 _ rfl
  | beginRenderPass desc =>
      refine forall₂_congr fun a _ => ?_
      have targets := wholeKeys_consume_iff a
        (desc.colorAttachments.map (·.target) ++ desc.depth.toList.map (·.target)) 0
        (accesses T b (.beginRenderPass desc))
        (by simp [accesses, AnnouncedAccess.location, Function.comp_def])
      rw [← targets, Consumes, Matches]
      simp [CommandEncoder.consumedByPush, usedKeys, Function.comp_def]
  | blitTexture source sourceMip destination destinationMip =>
      refine forall₂_congr fun a _ => ?_
      -- No key is consumed: the condition says that neither location is announced.
      constructor
      · intro h
        constructor
        · intro hl
          obtain ⟨key, hkey, -⟩ := h.mpr ⟨_, .head _, hl.symm⟩
          cases hkey
        · intro hl
          obtain ⟨key, hkey, -⟩ := h.mpr ⟨_, .tail _ (.head _), hl.symm⟩
          cases hkey
      · rintro ⟨notSource, notDestination⟩
        constructor
        · rintro ⟨key, hkey, -⟩
          cases hkey
        · rintro ⟨x, hx, hl⟩
          rw [accesses, List.mem_cons, List.mem_singleton] at hx
          rcases hx with rfl | rfl
          · exact absurd hl.symm notSource
          · exact absurd hl.symm notDestination
  | draw | drawInstanced | drawIndexed | drawIndexedInstanced =>
      exact always fun a ha => Matches.draw (lists a ha) b _ live
  | dispatch => exact always fun a ha => Matches.bindings (lists a ha) live
  | writeBuffer => exact always fun a _ => Matches.buffer _ _
  | copyBufferToBuffer => exact always fun a _ => (Matches.buffer _ _).append (Matches.buffer _ _)
  | _ => exact always fun a _ => Matches.nil

end Command

namespace CommandEncoder

variable {T : ResourceTable} {b : Bindings} {e : CommandEncoder} {command : Command}
  {x : AnnouncedAccess}

/-- Announcing an access replaces what was announced for its location. -/
theorem mem_announce {a : AnnouncedAccess} :
    x ∈ (e.announce a).announcedAccesses ↔
      x = a ∨ (x ∈ e.announcedAccesses ∧ x.location ≠ a.location) := by
  cases a with
  | buffer id access =>
      cases x <;>
        simp [announce, AnnouncedAccess.resource, AnnouncedAccess.location, or_comm]
  | texture id mip access =>
      cases x <;> simp [announce, AnnouncedAccess.location, or_comm, imp_iff_or_not]

theorem mem_foldl_announce {announced : List AnnouncedAccess}
    (distinct : announced.Pairwise fun a a' => a.location ≠ a'.location) :
    x ∈ (announced.foldl announce e).announcedAccesses ↔
      x ∈ announced ∨ (x ∈ e.announcedAccesses ∧ ∀ a ∈ announced, x.location ≠ a.location) := by
  induction announced generalizing e with
  | nil => simp
  | cons a rest ih =>
      rw [List.pairwise_cons] at distinct
      rw [List.foldl_cons, ih distinct.2, mem_announce, List.mem_cons, List.forall_mem_cons]
      constructor
      · rintro (hrest | ⟨rfl | ⟨hx, hne⟩, hdistinct⟩)
        · exact .inl (.inr hrest)
        · exact .inl (.inl rfl)
        · exact .inr ⟨hx, hne, hdistinct⟩
      · rintro ((rfl | hrest) | ⟨hx, hne, hdistinct⟩)
        · exact .inr ⟨.inl rfl, distinct.1⟩
        · exact .inl hrest
        · exact .inr ⟨.inr ⟨hx, hne⟩, hdistinct⟩

/-- A barrier announces one access for each of its locations. -/
theorem announces_distinct (T : ResourceTable) (barrier : ResourceBarrier) :
    (barrier.announces T).Pairwise fun a a' => a.location ≠ a'.location := by
  cases barrier with
  | global => exact List.Pairwise.nil
  | buffer | textureMip => exact List.pairwise_singleton ..
  | texture id before after =>
      simp only [ResourceBarrier.announces, textureAccesses]
      split
      · rename_i desc _
        rw [List.pairwise_map]
        refine desc.mipLevels_nodup.imp fun hne heq => hne ?_
        simpa [AnnouncedAccess.location] using heq
      · exact List.Pairwise.nil

/-- What is announced after one recorded command. -/
theorem mem_recorded :
    x ∈ (e.recorded T b command).announcedAccesses ↔
      x ∈ command.announces T ∨
        (x ∈ e.announcedAccesses ∧ command ≠ .resourceBarrier .global ∧
          (∀ a ∈ command.announces T, x.location ≠ a.location) ∧ ¬ command.Consumes T b x) := by
  have barrierConsumes : ∀ barrier,
      ¬ Command.Consumes (.resourceBarrier barrier) T b x := by
    rintro barrier ⟨key, hkey, -⟩
    cases hkey
  unfold recorded
  split
  · simp [Command.announces, ResourceBarrier.announces]
  · rename_i barrier notGlobal
    rw [mem_foldl_announce (announces_distinct T barrier)]
    have other : Command.resourceBarrier barrier ≠ .resourceBarrier .global := by
      rintro heq
      exact notGlobal (Command.resourceBarrier.inj heq)
    simp only [append_announcedAccesses, Command.announces, other, barrierConsumes, ne_eq,
      not_false_eq_true, true_and, and_true]
  · rename_i notGlobal notBarrier
    have silent : command.announces T = [] :=
      Command.announces_eq_nil (not_exists.mpr notBarrier)
    simp only [append_announcedAccesses, consumeAccesses, List.mem_filter, List.all_eq_true,
      Bool.not_eq_true', silent, Command.Consumes]
    have other : command ≠ .resourceBarrier .global := notGlobal
    simp [other]

end CommandEncoder

/-! ## Every run -/

namespace World

/-- Every announced texture is gone, or declares the level. -/
def Listed (w : World) : Prop :=
  ∀ a ∈ w.session.encoder.announcedAccesses, w.table.Lists a

theorem Listed.advance {w w' : World} {event : Event} (h : w.Listed)
    (advances : w.Advances event w') : w'.Listed := by
  cases advances with
  | table evolves => exact fun a ha => (h a ha).mono evolves
  | pass | notBuilt | kept | dropped => exact h
  | @recorded _ c command s' accept records asks =>
      intro a ha
      rw [records.encoder.result, CommandEncoder.mem_recorded] at ha
      rcases ha with announced | ⟨earlier, -⟩
      · -- What a barrier announces it also waits for, at a declared location.
        unfold Command.announces at announced
        split at announced
        · obtain ⟨source, hsource, hlocation⟩ := CommandEncoder.source_of_announce announced
          have declared := (records.encoder.admissible.connects source hsource).1
          exact fun _ _ => .inr (hlocation ▸ declared)
        · cases announced
      · exact h a earlier

theorem Listed.run (id : UInt64) (id_ne : id ≠ 0) (events : List Event) :
    ((World.new id id_ne).run events).Listed :=
  run_invariant (fun _ ha => absurd ha List.not_mem_nil)
    (fun _ _ _ _ h advances => h.advance advances) events

/-- A recorded command keeps the list exact if and only if it meets the
condition. -/
theorem AnnouncesExactly.recorded_iff {w : World} {command : Command} {s' : Session}
    (h : w.AnnouncesExactly) (listed : w.Listed)
    (records : w.session.Records w.table (bindingsAfter w.log) command s') :
    ({ w with session := s', log := w.log ++ [⟨w.table, command⟩] } : World).AnnouncesExactly ↔
      command.ConsumesItsLevels w.session.encoder.announcedAccesses := by
  have admissible := records.encoder.admissible
  rw [← Command.consumes_iff_uses (T := w.table) (b := bindingsAfter w.log) listed
    admissible.live]
  -- The encoder's list and the history change alike, up to what is consumed and used.
  have exact_iff : ∀ a, (a ∈ s'.encoder.announcedAccesses ↔
      Announced (executions (w.log ++ [⟨w.table, command⟩])) a) ↔
        ((a ∈ command.announces w.table ∨ (a ∈ w.session.encoder.announcedAccesses ∧
            command ≠ .resourceBarrier .global ∧
            (∀ x ∈ command.announces w.table, a.location ≠ x.location) ∧
            ¬ command.Consumes w.table (bindingsAfter w.log) a)) ↔
          (a ∈ command.announces w.table ∨ (a ∈ w.session.encoder.announcedAccesses ∧
            command ≠ .resourceBarrier .global ∧
            (∀ x ∈ command.announces w.table, a.location ≠ x.location) ∧
            ¬ ∃ x ∈ command.accesses w.table (bindingsAfter w.log),
              x.location = a.location))) := by
    intro a
    rw [records.encoder.result, CommandEncoder.mem_recorded, executions_snoc, announced_snoc,
      ← h.exact a, Execution.not_touches_iff]
    exact Iff.rfl
  constructor
  · intro h' a ha
    have same := (exact_iff a).mp (h'.exact a)
    by_cases barrier : ∃ barrier, command = .resourceBarrier barrier
    · obtain ⟨barrier, rfl⟩ := barrier
      constructor
      · rintro ⟨key, hkey, -⟩
        cases hkey
      · rintro ⟨x, hx, -⟩
        cases hx
    · have notGlobal : command ≠ .resourceBarrier .global := fun heq => barrier ⟨_, heq⟩
      rw [Command.announces_eq_nil barrier] at same
      rw [← not_iff_not]
      simpa [ha, notGlobal] using same
  · intro consumes
    refine ⟨fun a => (exact_iff a).mpr ?_, fun a => ?_, fun a => ?_⟩
    · refine or_congr_right (and_congr_right fun ha => ?_)
      rw [consumes a ha]
    · rw [executions_snoc, along_snoc]
      refine ⟨h.follows a, fun announced x hx hl => ?_⟩
      exact ((admissible.admits x hx).2.agrees a ((h.exact a).mpr announced) hl.symm).symm
    · rw [executions_snoc, along_snoc]
      refine ⟨h.chains a, fun announced x hx hl => ?_⟩
      exact ((admissible.connects x hx).2.1 a ((h.exact a).mpr announced) hl.symm).symm

/-- One event keeps the list exact if and only if it meets the condition. -/
theorem AnnouncesExactly.advance_iff {w w' : World} {event : Event}
    (h : w.AnnouncesExactly) (listed : w.Listed) (advances : w.Advances event w') :
    w'.AnnouncesExactly ↔ w.ConsumesItsLevels event := by
  cases advances with
  | table | pass | notBuilt =>
      exact iff_of_true ⟨h.exact, h.follows, h.chains⟩ trivial
  | @dropped alloc c leaves =>
      refine iff_of_true ⟨h.exact, h.follows, h.chains⟩ fun _ command asks => ?_
      cases c with
      | endPass => rcases asks with rfl | rfl <;> trivial
      | dropPass => cases asks
      | _ => cases leaves
  | @kept alloc c repeats =>
      refine iff_of_true h fun accepts command asks => ?_
      obtain ⟨repeated, hrepeated, state, -⟩ := repeats accepts
      rcases asks.cases with ⟨asked, hasked, rfl⟩ | ⟨silent, -⟩
      · rw [Option.mem_unique hrepeated hasked, ← Command.setsState_normalise] at state
        exact Command.consumesItsLevels_of_setsState state
      · rw [silent] at hrepeated
        cases hrepeated
  | @recorded alloc c command s' accept records asks =>
      rw [h.recorded_iff listed records]
      exact ⟨fun meets _ other asked => (asks.consumesItsLevels_iff asked).mp meets,
        fun meets => meets accept command asks⟩

end World

/-- **Announced accesses are tracked exactly** in every state of a run if and only
if every accepted call drops the announcements of the levels it uses. -/
theorem announcesExactly_iff (id : UInt64) (id_ne : id ≠ 0) (events : List Event) :
    (∀ past, past <+: events → ((World.new id id_ne).run past).AnnouncesExactly) ↔
      Along (fun past event => ((World.new id id_ne).run past).ConsumesItsLevels event)
        events := by
  induction events using List.reverseRecOn with
  | nil =>
      refine iff_of_true (fun past hpast => ?_) along_nil
      rw [List.prefix_nil.mp hpast]
      exact ⟨fun a => by simp [World.new, Session.new, Session.encoder, CommandEncoder.new,
        Announced], fun _ => along_nil, fun _ => along_nil⟩
  | append_singleton events event ih =>
      have advances := World.step_advances ((World.new_tracks id id_ne).run events) event
      have listed := World.Listed.run id id_ne events
      rw [along_snoc, ← ih]
      constructor
      · intro h
        have before := h events (List.prefix_append ..)
        refine ⟨fun past hpast => h past (hpast.trans (List.prefix_append ..)), ?_⟩
        rw [← before.advance_iff listed advances, ← World.run_snoc]
        exact h _ List.prefix_rfl
      · rintro ⟨h, meets⟩ past hpast
        rcases List.prefix_concat_iff.mp hpast with rfl | earlier
        · rw [World.run_snoc]
          exact ((h events List.prefix_rfl).advance_iff listed advances).mpr meets
        · exact h past earlier

/-! ### An upload, and a blit -/

/-- A barrier announces a copy of level one of the first texture. -/
def announceLevelOne : List Event :=
  [.table true (.defineTexture mippedTexture),
    .call grantAll (.encoder (.resourceBarrier
      (.textureMip ⟨1, 0, 0⟩ 1 .sampled .copySource)))]

/-- An upload of level zero. -/
def uploadLevelZero : Event :=
  .call grantAll (.encoder (.writeTexture ⟨1, 0, 0⟩
    ⟨wholeRect, 8, ⟨1, 16, by decide, by decide⟩, 0, 0, by decide⟩))

/-- A blit of level one to level zero. -/
def blitLevels : Event :=
  .call grantAll (.encoder (.blitTexture ⟨1, 0, 0⟩ 1 ⟨1, 0, 0⟩ 0 .nearest))

/-- The upload of level zero drops the announcement of level one, and the blit
keeps the announcement it has met. -/
theorem not_announcesExactly_levels :
    ¬ ((World.new 1 (by decide)).run (announceLevelOne ++ [uploadLevelZero])).AnnouncesExactly ∧
      ¬ ((World.new 1 (by decide)).run (announceLevelOne ++ [blitLevels])).AnnouncesExactly := by
  constructor
  · intro h
    have announced := (h.exact (.texture ⟨1, 0, 0⟩ 1 .copySource)).mpr
      (.of_getElem 0 (List.getElem?_eq_getElem (by decide +kernel)) (by decide +kernel)
        (by decide +kernel))
    exact absurd announced (by decide +kernel)
  · intro h
    have announced := (h.exact (.texture ⟨1, 0, 0⟩ 1 .copySource)).mp (by decide +kernel)
    exact not_since_of_getLast (List.getLast?_eq_some_getLast (by decide +kernel))
      (by decide +kernel) (by decide +kernel) announced

theorem announcesExactly_iff_levels :
    (∀ past, past <+: announceLevelOne ++ [uploadLevelZero] →
        ((World.new 1 (by decide)).run past).AnnouncesExactly) ↔
      Along (fun past event => ((World.new 1 (by decide)).run past).ConsumesItsLevels event)
        (announceLevelOne ++ [uploadLevelZero]) :=
  announcesExactly_iff 1 (by decide) (announceLevelOne ++ [uploadLevelZero])

end Sgfx
