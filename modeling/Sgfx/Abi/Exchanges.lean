import Sgfx.Abi.MirrorSyncs
import Sgfx.Abi.RecordedCommands
import Sgfx.CommandCapacity

/-!
# Handing a recording over

A caller defines and releases resources and records commands; a plug-in applies snapshots of the
caller's table to a mirror of its own.  When the plug-in has applied a snapshot, it can be given a
recording: it reads the commands that were recorded, with its own identities, exactly if all that
they refer to is still there.  Otherwise it stops at the first command with a reference that is
gone, and never reads another command.

The caller may read its own records as well.

## Main Definitions

* `Reflects` — a table with what another table has
* `Exchange` — a caller and a plug-in

## Main Results

* `resolve_recorded` — one command
* `recording_read` — the caller's own table
* `exchange_read` — the mirror of a plug-in
-/

namespace Sgfx.Abi

open Fallible ResourceTable

/-! ## Tables that have the same -/

/-- The second table has what the first one has, under its own identities. -/
structure Reflects (T M : ResourceTable) : Prop where
  live : ∀ r : Reference, r.owner = T.id → ((r.retarget M.id).Live M ↔ r.Live T)
  texture : ∀ (id : TextureId) (d : TextureDesc), id.owner = T.id → T.texture id = .ok d →
    M.texture (id.retarget M.id) = .ok d

theorem Reflects.refl (T : ResourceTable) : Reflects T T where
  live r named := by
    rw [← named, Reference.retarget_self]
  texture id d named found := by
    rw [Id.retarget_eq named]
    exact found

theorem Mirrors.reflects {T M : ResourceTable} (h : Mirrors T M) : Reflects T M where
  live r named := by
    cases r with
    | resource c id =>
      constructor
      · rintro ⟨d, found⟩
        obtain ⟨d', found', -⟩ := (h.resolves c id d named).2 found
        exact ⟨d', found'⟩
      · rintro ⟨d, found⟩
        exact ⟨_, (h.resolves c id d named).1 found⟩
    | sampler id =>
      show (∃ d, M.sampler (id.retarget M.id) = .ok d) ↔ _
      rw [h.resolvesSampler id named]
      rfl
    | pipeline id =>
      show (∃ d, M.renderPipeline (id.retarget M.id) = .ok d) ↔ _
      rw [h.resolvesPipeline id named]
      rfl
  texture id d named found := (h.resolves .texture id d named).1 found

/-- A descriptor that fits a table fits one that has the same. -/
theorem Reflects.fits {T M : ResourceTable} (h : Reflects T M) {d : RenderPassDesc}
    (named : ∀ id ∈ d.targets, id.owner = T.id) (fits : d.Fits T) : (d.retarget M.id).Fits M := by
  obtain ⟨K, sound, known⟩ := fits
  have back : ∀ id ∈ d.targets, (id.retarget M.id).retarget T.id = id := fun id inside =>
    Id.retarget_eq (named id inside)
  have first := back _ d.target_mem_targets
  refine ⟨fun id => K (id.retarget T.id), ⟨fun a inside => ?_, ?_, fun a inside => ?_⟩, ?_⟩
  · rw [RenderPassDesc.colorAttachments_retarget] at inside
    obtain ⟨b, here, rfl⟩ := List.mem_map.mp inside
    show (K ((b.target.retarget M.id).retarget T.id)).Colors d.area ∧
      (K ((b.target.retarget M.id).retarget T.id)).extent =
        (K ((d.target.retarget M.id).retarget T.id)).extent
    rw [back _ (RenderPassDesc.mem_targets_of_color here), first]
    exact sound.colors b here
  · have images : (d.retarget M.id).colorAttachments.map ColorAttachment.target =
        (d.colorAttachments.map ColorAttachment.target).map (Id.retarget M.id) := by
      rw [RenderPassDesc.colorAttachments_retarget, List.map_map, List.map_map]
      rfl
    rw [images]
    refine List.pairwise_map.mpr (sound.distinct.imp_of_mem fun {x y} hx hy ne same => ne ?_)
    have there := congrArg (Id.retarget T.id) same
    rwa [back x (List.mem_append_left _ hx), back y (List.mem_append_left _ hy)] at there
  · obtain ⟨b, here, rfl⟩ := Option.map_eq_some_iff.mp inside
    show (K ((b.target.retarget M.id).retarget T.id)).Depths d.area ∧
      (K ((b.target.retarget M.id).retarget T.id)).extent =
        (K ((d.target.retarget M.id).retarget T.id)).extent ∧ b.Loads
    rw [back _ (RenderPassDesc.mem_targets_of_depth here), first]
    exact sound.depth b here
  · rw [RenderPassDesc.targets_retarget]
    refine List.forall_mem_map.mpr fun id inside => ?_
    show M.texture (id.retarget M.id) = .ok (K ((id.retarget M.id).retarget T.id))
    rw [back id inside]
    exact h.texture id _ (named id inside) (known id inside)

/-! ## One command -/

/-- A recorded command is resolved where all that it refers to is still there. -/
theorem resolve_recorded {w : World} {M : ResourceTable} (h : w.Recalls)
    (reflects : Reflects w.table M) {c c' : Command} (inside : c ∈ w.commands) :
    resolve M c = .ok c' ↔ (∀ r ∈ c.references, r.Live w.table) ∧ c.imported M.id = c' := by
  have named := h.named c inside
  have live : (∀ r ∈ c.references, (r.retarget M.id).Live M) ↔
      ∀ r ∈ c.references, r.Live w.table :=
    forall₂_congr fun r here => reflects.live r (named r here)
  rw [resolve_eq_ok, live]
  constructor
  · rintro ⟨all, -, same⟩
    exact ⟨all, same⟩
  · rintro ⟨all, same⟩
    refine ⟨all, ?_, same⟩
    rintro d rfl
    have textures : ∀ id ∈ d.targets, id.owner = w.table.id ∧ ∃ t, w.table.texture id = .ok t := by
      intro id here
      have reference := List.mem_map_of_mem (f := Reference.resource .texture) here
      exact ⟨named _ reference, all _ reference⟩
    exact reflects.fits (fun id here => (textures id here).1)
      ((h.begun d inside).fits fun id here => (textures id here).2)

/-! ## A recording -/

/-- The recording of the encoder, as it is handed to another library. -/
def batchOf (w : World) : Option Batch :=
  (w.session.encoder.commands.foldlM (fun s c => Storage.push c s) (Storage.abi [] 0)).bind
    (Storage.batch w.table.id)

theorem batchOf_eq (w : World) : batchOf w = some ⟨w.table.id, records w.session.encoder.commands,
    w.session.encoder.commands.length⟩ := by
  unfold batchOf
  rw [push_records, List.nil_append, Nat.zero_add]
  rfl

theorem records_length (commands : List Command) :
    (records commands).length ≤ commands.length * MAX_WORDS := by
  induction commands with
  | nil => exact Nat.zero_le _
  | cons c rest ih =>
    have first := encode_length c
    rw [records] at ih ⊢
    rw [List.flatMap_cons, List.length_append, List.length_cons, Nat.add_one_mul]
    omega

/-- A recording within the limit is taken over. -/
theorem fromAbi_records {table : UInt64} {commands : List Command}
    (short : commands.length ≤ MAX_COMMANDS) :
    fromAbi table ⟨table, records commands, commands.length⟩ =
      .ok (.borrowed (records commands) commands.length) := by
  have words := records_length commands
  have most := Nat.mul_le_mul_right MAX_WORDS short
  unfold fromAbi
  refine except_bind_eq_ok.mpr ⟨(), failIf_eq_ok.mpr (not_not_intro rfl), ?_⟩
  refine except_bind_eq_ok.mpr ⟨(), failIf_eq_ok.mpr ?_, rfl⟩
  rintro (long | long)
  · exact Nat.not_lt.mpr short long
  · exact Nat.not_lt.mpr (Nat.le_trans words most) long

/-- What a table reads that has the same as the recording one. -/
theorem read_recorded {w : World} {M : ResourceTable} (h : w.Recalls) (reflects : Reflects w.table M)
    (newer : M.abi.legacyProgramIds = false) {result : List Command} :
    Iter.collect M ⟨records w.commands, w.commands.length⟩ = .ok result ↔
      (∀ c ∈ w.commands, ∀ r ∈ c.references, r.Live w.table) ∧
        w.commands.map (Command.imported M.id) = result := by
  rw [read_records newer]
  exact mapM_eq_ok fun c inside c' => resolve_recorded h reflects inside

/-! ## The caller -/

/-- What holds of a caller in every run: what it recorded is within the limit, and its table writes
snapshots of the current format. -/
structure Ready (w : World) : Prop where
  tracks : w.Tracks
  recalls : w.Recalls
  fits : w.session.Fits
  newer : w.table.abi.legacyProgramIds = false

/-- Only definitions and releases change the table. -/
theorem step_table (w : World) (event : Event) :
    (w.step event).table = w.table ∨
      ∃ alloc op, event = .table alloc op ∧ (w.step event).table = (op.run alloc w.table).2 := by
  cases event with
  | table alloc op => exact .inr ⟨alloc, op, rfl, rfl⟩
  | pass builder =>
    rw [World.step]
    split
    · split <;> exact .inl rfl
    · exact .inl rfl
  | call alloc c =>
    rw [World.step_call]
    split <;> exact .inl rfl

theorem step_fits {w : World} (fits : w.session.Fits) (event : Event) :
    (w.step event).session.Fits := by
  cases event with
  | table alloc op => exact fits
  | pass builder =>
    rw [World.step]
    split
    · split <;> exact fits
    · exact fits
  | call alloc c =>
    rw [World.step_call]
    split
    · exact Session.call_fits fits w.table alloc c
    · exact fits

theorem TableOp.run_newer {T : ResourceTable} (newer : T.abi.legacyProgramIds = false) (alloc : Bool)
    (op : TableOp) : (op.run alloc T).2.abi.legacyProgramIds = false := by
  rcases outcome : op.run alloc T with ⟨e | r, T'⟩
  · rw [(TableOp.run_atomic alloc op).unchanged outcome]
    exact newer
  · rw [tableChange_abi (TableOp.run_ok outcome)]
    exact newer

theorem Ready.step {w : World} (h : Ready w) (event : Event) : Ready (w.step event) where
  tracks := h.tracks.step event
  recalls := h.recalls.advance h.tracks (World.step_advances h.tracks event)
  fits := step_fits h.fits event
  newer := by
    rcases step_table w event with same | ⟨alloc, op, -, same⟩
    · rw [same]
      exact h.newer
    · rw [same]
      exact TableOp.run_newer h.newer alloc op

theorem Ready.new (id : UInt64) (id_ne : id ≠ 0) : Ready (World.new id id_ne) where
  tracks := World.new_tracks id id_ne
  recalls := World.new_recalls id id_ne
  fits := ⟨⟨Nat.zero_le _, Nat.zero_le _⟩, Bool.noConfusion⟩
  newer := rfl

theorem run_ready (id : UInt64) (id_ne : id ≠ 0) (events : List Event) :
    Ready ((World.new id id_ne).run events) := by
  induction events using List.reverseRecOn with
  | nil => exact .new id id_ne
  | append_singleton events event ih =>
    rw [World.run_snoc]
    exact ih.step event

/-- Of a table that has taken a snapshot. -/
theorem Ready.kept {w : World} {T' : ResourceTable} (h : Ready w) (kept : Kept w.table T') :
    Ready { w with table := T' } where
  tracks := ⟨kept.consistent h.tracks.consistent, kept.groupsFit h.tracks.groupsFit, h.tracks.shows,
    h.tracks.keeps⟩
  recalls := h.recalls.evolve kept.evolves
  fits := h.fits
  newer := by
    obtain ⟨_, _, rfl⟩ := kept
    exact h.newer

/-- The recording is within the limit. -/
theorem Ready.length_le {w : World} (h : Ready w) :
    w.session.encoder.commands.length ≤ MAX_COMMANDS :=
  Nat.le_trans h.fits.encoder.kept
    (Nat.le_trans h.fits.encoder.counted w.session.encoder.room_le)

/-- In every run the caller reads its own records exactly if all that its commands refer to is still
there, and they are its commands. -/
theorem recording_read (id : UInt64) (id_ne : id ≠ 0) (events : List Event) (result : List Command) :
    let w := (World.new id id_ne).run events
    ∃ batch storage, batchOf w = some batch ∧ fromAbi w.table.id batch = .ok storage ∧
      storage.hasComputeCommands = .ok (w.session.encoder.commands.any isCompute) ∧
      (storage.read w.table = .ok result ↔ result = w.session.encoder.commands ∧
        ∀ c ∈ result, ∀ r ∈ c.references, r.Live w.table) := by
  intro w
  have ready : Ready w := run_ready id id_ne events
  have same : w.commands.map (Command.imported w.table.id) = w.commands :=
    (List.map_congr_left fun c inside => Command.imported_self (ready.recalls.named c inside)
      (ready.recalls.data c inside)).trans (List.map_id _)
  refine ⟨_, _, batchOf_eq w, fromAbi_records ready.length_le, scanCompute_records _, ?_⟩
  show Iter.collect w.table ⟨records w.session.encoder.commands, _⟩ = _ ↔ _
  rw [ready.recalls.encoder, read_recorded ready.recalls (.refl _) ready.newer, same]
  constructor
  · rintro ⟨live, rfl⟩
    exact ⟨rfl, live⟩
  · rintro ⟨rfl, live⟩
    exact ⟨live, rfl⟩

/-- A caller with a square, which it orders its readers of. -/
def squareCaller : World :=
  (World.new 7 snapshotOwner_ne).run [.table true (.defineTexture square),
    .table true (.defineBindGroup viewGroup),
    .call (fun _ => true) (.encoder (.resourceBarrier (.texture ⟨7, 0, 0⟩ .sampled .sampled)))]

theorem recording_read_square :
    let result := [.resourceBarrier (.texture ⟨7, 0, 0⟩ .sampled .sampled)]
    ∃ batch storage, batchOf squareCaller = some batch ∧
      fromAbi squareCaller.table.id batch = .ok storage ∧
      storage.hasComputeCommands = .ok (squareCaller.session.encoder.commands.any isCompute) ∧
      (storage.read squareCaller.table = .ok result ↔
        result = squareCaller.session.encoder.commands ∧
          ∀ c ∈ result, ∀ r ∈ c.references, r.Live squareCaller.table) :=
  recording_read 7 snapshotOwner_ne _ _

/-! ## The plug-in -/

/-- A caller, and a plug-in with a mirror of the caller's table.  The caller records and defines and
releases; it takes snapshots, and the plug-in applies them or starts over. -/
inductive Exchange (C : Codecs) : World → ResourceTable → Prop
  | start (id owner : UInt64) (id_ne : id ≠ 0) (owner_ne : owner ≠ 0) :
      Exchange C (.new id id_ne) (.new owner owner_ne)
  | event {w : World} {M : ResourceTable} (before : Exchange C w M) (event : Event) :
      Exchange C (w.step event) M
  | snapshot {w : World} {M : ResourceTable} (before : Exchange C w M) (A : SnapshotAllocator) :
      Exchange C { w with table := (abiSnapshot C.put A w.table).2 } M
  | fresh {w : World} {M : ResourceTable} (before : Exchange C w M) (owner : UInt64)
      (owner_ne : owner ≠ 0) : Exchange C w (.new owner owner_ne)
  | sync {w : World} {T' M M' : ResourceTable} (before : Exchange C w M)
      (codecs : RoundTrips C w.table) (revision : w.table.abi.revision < 2 ^ 64)
      {A : SnapshotAllocator} {words : List UInt64} {answer : UInt64 × UInt64}
      (taken : abiSnapshot C.put A w.table = (.ok words, T'))
      (applied : syncAbiSnapshot C true words M = (.ok answer, M')) :
      Exchange C { w with table := T' } M'

variable {C : Codecs} {w : World} {T' M M' : ResourceTable} {A : SnapshotAllocator}
  {words : List UInt64} {answer : UInt64 × UInt64}

/-- The mirror is one of the caller's table, whatever the caller records. -/
theorem Exchange.sound (h : Exchange C w M) : MirrorRun C w.table M ∧ Ready w := by
  induction h with
  | start id owner id_ne owner_ne => exact ⟨.start id owner id_ne owner_ne, .new id id_ne⟩
  | @event w M before event ih =>
    refine ⟨?_, ih.2.step event⟩
    rcases step_table w event with same | ⟨alloc, op, -, same⟩
    · rw [same]
      exact ih.1
    · rw [same]
      exact ih.1.call (.call alloc op)
  | snapshot before A ih =>
    have kept := ((abiSnapshot_ensures ih.1.sound.table.snapshots (A := A)).imp
      (fun _ _ after => after.2.2) fun _ _ after => after.2.1).state
    exact ⟨ih.1.call (.snapshot A), ih.2.kept kept⟩
  | fresh before owner owner_ne ih => exact ⟨ih.1.fresh owner owner_ne, ih.2⟩
  | sync before codecs small taken applied ih =>
    obtain ⟨-, -, kept⟩ := (abiSnapshot_ensures ih.1.sound.table.snapshots).of_eq_ok taken
    exact ⟨ih.1.sync codecs small taken applied, ih.2.kept kept⟩

theorem finishSync_abi {s s' : Sync} {u : Unit} (h : finishSync s = (.ok u, s')) :
    s'.table.abi = s.table.abi := by
  simp only [finishSync, read_bind_run, lift_bind_eq_ok] at h
  obtain ⟨-, -, -, -, -, -, h⟩ := h
  cases h
  rfl

/-- The snapshot of a ready caller leaves a mirror that has what the caller's table has, and reads
records of the current format. -/
theorem Exchange.reflects (h : Exchange C w M) (codecs : RoundTrips C w.table)
    (small : w.table.abi.revision < 2 ^ 64) (taken : abiSnapshot C.put A w.table = (.ok words, T'))
    (applied : syncAbiSnapshot C true words M = (.ok answer, M')) :
    answer.1 = w.table.id ∧ Reflects w.table M' ∧ M'.abi.legacyProgramIds = false := by
  have sound := h.sound.1.sound
  obtain ⟨T₀, evolves, synced⟩ := sound.synced
  have follows : Follows C T₀ w.table M :=
    ⟨evolves, sound.table.consistent, sound.table.groups, synced⟩
  obtain ⟨rfl, -, -⟩ := (abiSnapshot_ensures sound.table.snapshots).of_eq_ok taken
  have known := groupsKnown_of_sync follows codecs sound.table.positive small applied
  obtain ⟨M₁, before, run⟩ := sync_groups follows codecs sound.table.positive small
  obtain ⟨M₂, groups, -, after⟩ := syncGroups_run follows codecs before known
  obtain ⟨M₃, finish, synced'⟩ :=
    finishSync_run after (fun c => by cases c <;> simp) sound.table.consistent
  rw [bind_run_of_ok groups, bind_run_of_ok finish] at run
  unfold syncAbiSnapshot at applied
  rw [run] at applied
  cases applied
  refine ⟨rfl, synced'.mirrors.reflects, ?_⟩
  have kept := finishSync_abi finish
  exact (congrArg AbiState.legacyProgramIds kept).trans after.format

/-- A plug-in that has applied a snapshot reads the recording of the caller exactly if all that its
commands refer to is still there, and it reads the commands with its own identities. -/
theorem exchange_read (h : Exchange C w M) (codecs : RoundTrips C w.table)
    (small : w.table.abi.revision < 2 ^ 64) (taken : abiSnapshot C.put A w.table = (.ok words, T'))
    (applied : syncAbiSnapshot C true words M = (.ok answer, M')) (result : List Command) :
    ∃ batch storage, batchOf w = some batch ∧ fromAbi answer.1 batch = .ok storage ∧
      storage.hasComputeCommands = .ok (w.session.encoder.commands.any isCompute) ∧
      (storage.read M' = .ok result ↔
        result = w.session.encoder.commands.map (Command.imported M'.id) ∧
          ∀ c ∈ w.session.encoder.commands, ∀ r ∈ c.references, r.Live w.table) := by
  have ready := h.sound.2
  obtain ⟨source, reflects, newer⟩ := h.reflects codecs small taken applied
  rw [source]
  refine ⟨_, _, batchOf_eq w, fromAbi_records ready.length_le, scanCompute_records _, ?_⟩
  show Iter.collect M' ⟨records w.session.encoder.commands, _⟩ = _ ↔ _
  rw [ready.recalls.encoder, read_recorded ready.recalls reflects newer]
  constructor
  · rintro ⟨live, rfl⟩
    exact ⟨rfl, live⟩
  · rintro ⟨rfl, live⟩
    exact ⟨live, rfl⟩

theorem Exchange.run (h : Exchange C w M) (events : List Event) : Exchange C (w.run events) M := by
  induction events using List.reverseRecOn with
  | nil => exact h
  | append_singleton events event ih =>
    rw [World.run_snoc]
    exact ih.event event

theorem squareCaller_exchange : Exchange viewCodecs squareCaller (.new 2 mirrorOwner_ne) :=
  .run (.start 7 2 snapshotOwner_ne mirrorOwner_ne) _

theorem squareCaller_roundTrips : RoundTrips viewCodecs squareCaller.table := viewTable_roundTrips

/-- The mirror after the snapshot of the caller. -/
def squareMirror : ResourceTable :=
  (syncAbiSnapshot viewCodecs true (uncached viewCodecs.put viewTable) (.new 2 mirrorOwner_ne)).2

theorem squareMirror_answer :
    (syncAbiSnapshot viewCodecs true (uncached viewCodecs.put viewTable)
      (.new 2 mirrorOwner_ne)).1 = .ok (7, 3) := by decide +kernel

theorem squareMirror_applied :
    syncAbiSnapshot viewCodecs true (uncached viewCodecs.put viewTable) (.new 2 mirrorOwner_ne) =
      (.ok (7, 3), squareMirror) := by
  rw [← squareMirror_answer]
  exact (Prod.eta _).symm

/-- The plug-in reads one command. -/
theorem exchange_read_square :
    let result := [.resourceBarrier (.texture ⟨2, 0, 0⟩ .sampled .sampled)]
    ∃ batch storage, batchOf squareCaller = some batch ∧ fromAbi 7 batch = .ok storage ∧
      storage.hasComputeCommands = .ok (squareCaller.session.encoder.commands.any isCompute) ∧
      (storage.read squareMirror = .ok result ↔
        result = squareCaller.session.encoder.commands.map (Command.imported squareMirror.id) ∧
          ∀ c ∈ squareCaller.session.encoder.commands, ∀ r ∈ c.references,
            r.Live squareCaller.table) :=
  exchange_read squareCaller_exchange squareCaller_roundTrips (by decide) viewTable_snapshot
    squareMirror_applied _

end Sgfx.Abi
