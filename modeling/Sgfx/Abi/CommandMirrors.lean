import Sgfx.Abi.Exchanges

/-!
# Recordings and mirrors of earlier tables

A plug-in may be given a recording when the caller has gone on since the snapshot that the plug-in
applied.  The mirror is then one of an earlier table.  What it has of the textures of a render pass
is still what the pass was begun with, since a texture keeps its descriptor.  So it decodes the
commands if it has all that they refer to, as the caller's own table does.

## Main Definitions

* `AgreesOnPasses` — a table that knows the passes as they were begun
* `Behind` — a mirror of an earlier table
* `Receives` — a storage that has the commands of the caller

## Main Results

* `Behind.resolve` — one command
* `commands_decoded` — a recording
-/

namespace Sgfx.Abi

open Fallible ResourceTable

variable {C : Codecs} {w : World} {M : ResourceTable}

/-! ## A mirror of an earlier table -/

theorem step_evolves {w : World} (tracks : w.Tracks) (event : Event) :
    w.table.Evolves (w.step event).table := by
  have advances := World.step_advances tracks event
  generalize w.step event = w' at advances
  cases advances with
  | table evolves => exact evolves
  | pass | notBuilt | kept | dropped | recorded => exact .refl _

/-- What the passes were begun with is what the table has under these names. -/
def AgreesOnPasses (w : World) (T : ResourceTable) : Prop :=
  ∀ d, .beginRenderPass d ∈ w.commands →
    ∃ K, d.Sound K ∧ ∀ id ∈ d.targets, ∀ t, T.texture id = .ok t → t = K id

theorem agrees_table (h : w.Recalls) : AgreesOnPasses w w.table := by
  intro d inside
  obtain ⟨K, sound, known⟩ := h.begun d inside
  refine ⟨K, sound, fun id here t found => ?_⟩
  rcases known id here with live | gone
  · exact Except.ok.inj (found.symm.trans live)
  · exact absurd found gone.get_ne_ok

/-- A table that has nothing yet. -/
theorem agrees_new (h : w.Recalls) (id : UInt64) (id_ne : id ≠ 0) :
    AgreesOnPasses w (.new id id_ne) := by
  intro d inside
  obtain ⟨K, sound, -⟩ := h.begun d inside
  refine ⟨K, sound, fun name here t found => ?_⟩
  cases (get_eq_ok.mp found).2

/-- A pass is begun when its textures are there, so they are those of an earlier table as well, as
far as it has them. -/
theorem AgreesOnPasses.step {w : World} {T : ResourceTable} (h : AgreesOnPasses w T)
    (ready : Ready w) (earlier : T.Evolves w.table) (event : Event) : AgreesOnPasses (w.step event) T := by
  have advances := World.step_advances ready.tracks event
  generalize w.step event = w' at advances
  cases advances with
  | table | pass | notBuilt | kept | dropped => exact h
  | @recorded alloc c command s' accept records asks =>
    intro d inside
    have commands : ({ w with session := s', log := w.log ++ [⟨w.table, command⟩] } :
        World).commands = w.commands ++ [command] := List.map_append
    rw [commands] at inside
    rcases List.mem_append.mp inside with before | last
    · exact h d before
    · -- The descriptor is one that the client holds, and its textures are all there.
      obtain rfl := List.mem_singleton.mp last
      have held := accept.1
      rw [Call.eq_of_asks asks] at held
      have remembers := ready.recalls.passes d (List.contains_iff_mem.mp held)
      obtain ⟨K, sound, known⟩ := remembers.fits fun id here =>
        (Session.refers accept.2 asks).live _
          (List.mem_map_of_mem (f := Reference.resource .texture) here)
      exact ⟨K, sound, fun id here t found => (earlier.get_unique found (known id here)).symm⟩

/-- A mirror has what the caller's table had at some time. -/
structure Behind (C : Codecs) (w : World) (T M : ResourceTable) : Prop where
  evolves : T.Evolves w.table
  synced : Synced C T M
  agrees : AgreesOnPasses w T
  newer : M.abi.legacyProgramIds = false

theorem Exchange.behind (h : Exchange C w M) : ∃ T, Behind C w T M := by
  induction h with
  | start id owner id_ne owner_ne =>
    exact ⟨_, .refl _, .new id owner id_ne owner_ne, (fun d inside => by cases inside), rfl⟩
  | @event w M before event ih =>
    obtain ⟨T, behind⟩ := ih
    have ready := before.sound.2
    exact ⟨T, behind.evolves.trans (step_evolves ready.tracks event), behind.synced,
      behind.agrees.step ready behind.evolves event, behind.newer⟩
  | snapshot before A ih =>
    obtain ⟨T, behind⟩ := ih
    have kept := ((abiSnapshot_ensures before.sound.1.sound.table.snapshots (A := A)).imp
      (fun _ _ after => after.2.2) fun _ _ after => after.2.1).state
    exact ⟨T, behind.evolves.trans kept.evolves, behind.synced, behind.agrees, behind.newer⟩
  | @fresh w M before owner owner_ne ih =>
    exact ⟨_, new_evolves, .new w.table.id owner w.table.id_ne owner_ne,
      agrees_new before.sound.2.recalls _ _, rfl⟩
  | @sync w T' M M' before codecs small A words answer taken applied ih =>
    have sound := before.sound.1.sound
    obtain ⟨-, -, newer⟩ := before.reflects codecs small taken applied
    obtain ⟨rfl, -, kept⟩ := (abiSnapshot_ensures sound.table.snapshots).of_eq_ok taken
    obtain ⟨_, M'', applied', synced⟩ :=
      (sound.sync codecs small).2 ((sound.sync codecs small).1 ⟨answer, M', applied⟩)
    obtain ⟨-, rfl⟩ := Prod.mk.inj (applied.symm.trans applied')
    exact ⟨w.table, kept.evolves, synced, agrees_table before.sound.2.recalls, newer⟩

/-- A mirror resolves a recorded command where it has what the command refers to. -/
theorem Behind.resolve {T : ResourceTable} (h : Behind C w T M) (recalls : w.Recalls) {c : Command}
    (inside : c ∈ w.commands) (live : ∀ r ∈ c.references, (r.retarget M.id).Live M) :
    resolve M c = .ok (c.imported M.id) := by
  have reflects := h.synced.mirrors.reflects
  have named : ∀ r ∈ c.references, r.owner = T.id := fun r here =>
    (recalls.named c inside r here).trans h.evolves.id
  refine resolve_eq_ok.mpr ⟨live, ?_, rfl⟩
  rintro d rfl
  obtain ⟨K, sound, known⟩ := h.agrees d inside
  have reference : ∀ id ∈ d.targets, Reference.resource .texture id ∈
      (Command.beginRenderPass d).references := fun id here =>
    List.mem_map_of_mem (f := Reference.resource .texture) here
  refine reflects.fits (fun id here => named _ (reference id here)) ⟨K, sound, fun id here => ?_⟩
  obtain ⟨t, found⟩ :=
    (reflects.live _ (named _ (reference id here))).mp (live _ (reference id here))
  rw [← known id here t found]
  exact found

/-! ## A recording -/

theorem imported_slice (s : ByteSlice) : s.imported.imported = s.imported := by
  by_cases empty : s.len = 0
  · rw [ByteSlice.imported.eq_1 s, if_pos empty]
    rfl
  · rw [ByteSlice.imported.eq_1 s, if_neg empty, ByteSlice.imported, if_neg empty]

theorem retarget_retarget (d : RenderPassDesc) (owner other : UInt64) :
    (d.retarget owner).retarget other = d.retarget other := by
  refine RenderPassDesc.eq_of_parts rfl rfl rfl rfl ?_ ?_
  · show (d.depth.map _).map _ = _
    rw [Option.map_map]
    rfl
  · show (d.extraColors.map _).map _ = _
    rw [List.map_map]
    rfl

/-- Another table reads what was recorded, but for the names. -/
theorem imported_imported (c : Command) (owner other : UInt64) :
    (c.imported owner).imported other = c.imported other := by
  cases c with
  | beginRenderPass d => exact congrArg Command.beginRenderPass (retarget_retarget d owner other)
  | resourceBarrier barrier => cases barrier <;> rfl
  | writeBuffer _ _ data | writeTexture _ data =>
    simp only [Command.imported, imported_slice]
    rfl
  | setPushConstants _ _ data => exact congrArg (Command.setPushConstants _ _) (imported_slice data)
  | _ => rfl

/-- A storage that has the commands of the caller.  The caller's table and the mirror read them,
if they have all that the commands refer to. -/
structure Receives (w : World) (M : ResourceTable) (storage : Storage) : Prop where
  count : storage.len = (Storage.rust w.session.encoder.commands).len
  compute : storage.hasComputeCommands =
    (Storage.rust w.session.encoder.commands).hasComputeCommands
  own : (∀ c ∈ w.session.encoder.commands, ∀ r ∈ c.references, r.Live w.table) →
    storage.read w.table = .ok w.session.encoder.commands
  mirror : (∀ c ∈ w.session.encoder.commands, ∀ r ∈ c.references, (r.retarget M.id).Live M) →
    storage.read M = .ok (w.session.encoder.commands.map (Command.imported M.id))

theorem Exchange.receives (h : Exchange C w M) :
    Receives w M (.abi (records w.session.encoder.commands) w.session.encoder.commands.length) := by
  have ready := h.sound.2
  obtain ⟨T, behind⟩ := h.behind
  have recorded : w.session.encoder.commands = w.commands := ready.recalls.encoder
  refine ⟨rfl, scanCompute_records _, fun live => ?_, fun live => ?_⟩
  · show Iter.collect w.table ⟨records w.session.encoder.commands, _⟩ = _
    rw [recorded] at live ⊢
    refine (read_recorded ready.recalls (.refl _) ready.newer).mpr ⟨live, ?_⟩
    have own : ∀ c ∈ w.commands, c.imported w.table.id = c := fun c inside =>
      Command.imported_self (ready.recalls.named c inside) (ready.recalls.data c inside)
    exact (List.map_congr_left own).trans (List.map_id _)
  · show Iter.collect M ⟨records w.session.encoder.commands, _⟩ = _
    rw [recorded] at live ⊢
    rw [read_records behind.newer]
    have resolved : ∀ c ∈ w.commands, resolve M (id c) = .ok (c.imported M.id) :=
      fun c inside => behind.resolve ready.recalls inside (live c inside)
    have all := mapM_map_eq_ok resolved
    rwa [List.map_id] at all

/-- In every run the records of the accepted commands, each of a limited length, are received as
they were pushed, by the storage of the caller and by that of a plug-in.  A mirror reads other names
only: under the names of the caller, its commands are those of the caller. -/
theorem commands_decoded (h : Exchange C w M) :
    ∃ pushed batch borrowed,
      w.session.encoder.commands.foldlM (fun s c => Storage.push c s) (.abi [] 0) = some pushed ∧
      pushed.batch w.table.id = some batch ∧ fromAbi w.table.id batch = .ok borrowed ∧
      batch.words = w.session.encoder.commands.flatMap encode ∧
      (∀ c : Command, (encode c).length ≤ MAX_WORDS) ∧
      Receives w M pushed ∧ Receives w M borrowed ∧
      ∀ c ∈ w.session.encoder.commands, (c.imported M.id).imported w.table.id = c := by
  have ready := h.sound.2
  have received := h.receives
  refine ⟨.abi (records w.session.encoder.commands) w.session.encoder.commands.length,
    _, _, ?_, rfl, fromAbi_records ready.length_le, rfl, encode_length, received, ?_, ?_⟩
  · rw [push_records, List.nil_append, Nat.zero_add]
  · exact ⟨received.count, received.compute, received.own, received.mirror⟩
  · intro c inside
    rw [ready.recalls.encoder] at inside
    rw [imported_imported]
    exact Command.imported_self (ready.recalls.named c inside) (ready.recalls.data c inside)

/-- The caller with a square, after the snapshot. -/
def squareSender : World :=
  { squareCaller with table := (abiSnapshot viewCodecs.put plenty viewTable).2 }

theorem commands_decoded_square :
    ∃ pushed batch borrowed,
      squareSender.session.encoder.commands.foldlM (fun s c => Storage.push c s) (.abi [] 0) =
        some pushed ∧
      pushed.batch squareSender.table.id = some batch ∧
      fromAbi squareSender.table.id batch = .ok borrowed ∧
      batch.words = squareSender.session.encoder.commands.flatMap encode ∧
      (∀ c : Command, (encode c).length ≤ MAX_WORDS) ∧
      Receives squareSender squareMirror pushed ∧ Receives squareSender squareMirror borrowed ∧
      ∀ c ∈ squareSender.session.encoder.commands,
        (c.imported squareMirror.id).imported squareSender.table.id = c :=
  commands_decoded (.sync squareCaller_exchange squareCaller_roundTrips (by decide)
    viewTable_snapshot squareMirror_applied)

end Sgfx.Abi
