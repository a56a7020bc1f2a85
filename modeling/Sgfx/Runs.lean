import Mathlib.Data.List.Induction
import Sgfx.PassRecording
import Sgfx.Rejection

/-!
# What a run does

The facts about single calls become one statement about a session
(`Session.call_outcome`) and one about a world (`World.step_advances`): an event
changes the table, adds a pass descriptor, leaves the recording alone, or records
one command.  `World.run_induction` turns what every such step preserves into
what every run preserves; the results about recordings are its instances.

## Main Definitions

* `Session.Shows`, `Session.Records`, `Session.Outcome`
* `World.Tracks` — the invariant of every run
* `World.Advances` — what one event does

## Main Results

* `Session.call_outcome`, `World.step_advances`
* `World.run_tracks`, `World.run_induction`
-/

namespace Sgfx

open Fallible

/-! ## Passes -/

namespace CommandEncoder

variable {T : ResourceTable} {alloc : Allocator} {b : Bindings} {e e' : CommandEncoder}

theorem beginRenderPass_ok {desc : RenderPassDesc} {p : RenderPassEncoder}
    (h : beginRenderPass T alloc desc e = (.ok p, e')) :
    e.Records T b (.beginRenderPass desc) p.encoder ∧ p.Shows .initial ∧
      p.usedResources = [] := by
  simp only [beginRenderPass, read_bind_run, lift_bind_eq_ok, forEach_eq_ok,
    checkTextureMipAccess_eq_ok] at h
  obtain ⟨-, -, targetDesc, -, -, -, -, -, depthDesc, -, -, colors, colorDescs, -, -, depth, -, -,
    h⟩ := h
  obtain ⟨_, pushed, hpush, h⟩ := bind_eq_ok.mp h
  rw [update_bind_run, read_bind_run, pure_run, Prod.mk.injEq, Except.ok.injEq] at h
  obtain ⟨rfl, -⟩ := h
  refine ⟨⟨⟨fun a ha => ?_, by simp [Command.usedKeys], by simp [Command.sources]⟩, ?_⟩, ?_, rfl⟩
  · rcases List.mem_append.mp ha with ha | ha
    · obtain ⟨attachment, hmem, rfl⟩ := List.mem_map.mp ha
      exact colors attachment hmem
    · obtain ⟨attachment, hmem, rfl⟩ := List.mem_map.mp ha
      exact depth attachment hmem
  · exact push_recorded_pass hpush (by simp) rfl rfl
  · exact ⟨rfl, rfl, rfl, rfl, rfl, rfl, rfl, rfl, rfl, rfl, .inl rfl⟩

theorem beginComputePass_ok {p : ComputePassEncoder}
    (h : beginComputePass alloc e = (.ok p, e')) :
    e.Records T b .beginComputePass p.encoder ∧ p.Shows .initial := by
  simp only [beginComputePass, read_bind_run, lift_bind_eq_ok] at h
  obtain ⟨-, -, -, -, h⟩ := h
  obtain ⟨_, pushed, hpush, h⟩ := bind_eq_ok.mp h
  rw [update_bind_run, read_bind_run, pure_run, Prod.mk.injEq, Except.ok.injEq] at h
  obtain ⟨rfl, -⟩ := h
  exact ⟨⟨⟨by simp [Command.accesses], by simp [Command.usedKeys], by simp [Command.sources]⟩,
    push_recorded_pass hpush (by simp) rfl rfl⟩, rfl, rfl⟩

/-- The command that ends a pass. -/
def endsPass : Command → Bool
  | .endRenderPass | .endComputePass => true
  | _ => false

theorem pushPassEnd_ok {command : Command} {u : Unit} (ends : endsPass command = true)
    (h : pushPassEnd alloc command e = (.ok u, e')) :
    e.Records T b command { e' with passOpen := false } := by
  simp only [pushPassEnd, read_bind_run, lift_bind_eq_ok] at h
  obtain ⟨-, -, -, -, h⟩ := h
  rw [update_run, Prod.mk.injEq] at h
  obtain ⟨-, rfl⟩ := h
  cases command with
  | endRenderPass | endComputePass =>
      refine ⟨⟨by simp [Command.accesses], by simp [Command.usedKeys],
        by simp [Command.sources]⟩, ?_⟩
      simp only [recorded, consumedByPush, Command.usedKeys, List.append_nil,
        consumeAccesses_nil, Command.writtenKeys, Command.boundResources, List.filter_nil,
        List.flatMap_nil]
      rfl
  | _ => cases ends

theorem pushPassEnd_atomic (alloc : Allocator) (command : Command) :
    Atomic (pushPassEnd alloc command) :=
  .read_bind fun _ => .lift_bind fun _ _ => .lift_bind fun _ _ => .of_total (.update _)

end CommandEncoder

/-! ## Sessions -/

/-- The command a call asks a pass to record, if it is a call that begins a pass
or is made on one. -/
def Call.passCommand : Call → Option Command
  | .beginRenderPass desc => some (.beginRenderPass desc)
  | .beginComputePass => some .beginComputePass
  | .render c => some c.command
  | .compute c => some c.command
  | .encoder _ | .endPass | .dropPass => none

/-- A command that a call asks for is the normal form of its pass command, or
neither draws nor sets state. -/
theorem Call.Asks.cases {c : Call} {command : Command} (asks : c.Asks command) :
    (∃ asked ∈ c.passCommand, asked.normalise = command) ∨
      (c.passCommand = none ∧ command.drawKind = none ∧ command.isDraw = false ∧
        ∀ b : Bindings, b.apply command = b) := by
  cases c with
  | encoder c =>
      have transfers := Command.transfers_of_asks asks
      cases command <;> first
        | (cases transfers; done)
        | exact .inr ⟨rfl, rfl, rfl, fun _ => rfl⟩
  | beginRenderPass | beginComputePass | render =>
      cases asks
      exact .inl ⟨_, rfl, rfl⟩
  | compute c =>
      cases asks
      exact .inl ⟨_, rfl, by cases c <;> rfl⟩
  | endPass =>
      rcases asks with rfl | rfl <;> exact .inr ⟨rfl, rfl, rfl, fun _ => rfl⟩
  | dropPass => cases asks

/-- Whether the call gives the command encoder back. -/
def Call.leaves : Call → Bool
  | .endPass | .dropPass => true
  | _ => false

theorem Call.passCommand_of_leaves {c : Call} (leaves : c.leaves = true) :
    c.passCommand = none := by
  cases c <;> first | rfl | cases leaves

/-- Whether the client holds the encoder that the call is made on. -/
def Call.fits : Call → Session → Bool
  | .encoder _, .idle _ | .beginRenderPass _, .idle _ | .beginComputePass, .idle _ => true
  | .render _, .render _ | .compute _, .compute _ => true
  | .endPass, .render _ | .endPass, .compute _ => true
  | .dropPass, _ => true
  | _, _ => false

theorem RenderCall.draws_or_sets (c : RenderCall) :
    c.command.drawKind.isSome = true ∨ c.command.setsState = true := by
  cases c <;> first | exact .inl rfl | exact .inr rfl

namespace Session

/-- The pass, if there is one, caches the replayed state. -/
def Shows : Session → Bindings → Prop
  | idle _, _ => True
  | render p, b => p.Shows b
  | compute p, b => p.Shows b

/-- Whether the client holds a render pass. -/
def inRender : Session → Bool
  | render _ => true
  | idle _ | compute _ => false

/-- What the draws of the open render pass have used. -/
def usedResources : Session → List PendingWrite
  | render p => p.usedResources
  | idle _ | compute _ => []

/-- The call is made on the encoder the client holds, and succeeds. -/
def Accepts (s : Session) (T : ResourceTable) (alloc : Allocator) (c : Call) : Prop :=
  c.fits s = true ∧ (s.call T alloc c).1 = .ok ()

/-- One command was recorded. -/
structure Records (s : Session) (T : ResourceTable) (b : Bindings) (command : Command)
    (s' : Session) : Prop where
  encoder : s.encoder.Records T b command s'.encoder
  shows : s'.Shows (b.apply command)
  used : s'.usedResources =
    if command.drawKind.isSome then s.usedResources ++ command.usedKeys T b
    else if command.setsState then s.usedResources
    else []
  unused : command.drawKind.isSome = true →
    ∀ w ∈ command.writtenKeys T b, ∀ k ∈ s.usedResources, w.aliases k = false
  inPass : s'.inRender = true → (∃ desc, command = .beginRenderPass desc) ∨
    (s.inRender = true ∧ (command.drawKind.isSome = true ∨ command.setsState = true))

/-- What a call does to a session: it keeps it, drops the pass encoder, or
records one command.  `accepted` says whether the call succeeds. -/
inductive Outcome (T : ResourceTable) (b : Bindings) (s : Session) (c : Call)
    (accepted : Prop) : Session → Prop
  | kept (repeats : accepted → ∃ command ∈ c.passCommand, command.Repeats b) :
      Outcome T b s c accepted s
  | dropped (leaves : c.leaves = true) : Outcome T b s c accepted (.idle s.encoder)
  | recorded {command : Command} {s' : Session} (accept : accepted)
      (records : s.Records T b command s') (asks : c.Asks command) :
      Outcome T b s c accepted s'

variable {T : ResourceTable} {alloc : Allocator} {b : Bindings} {s : Session}

/-- A call that is not accepted keeps the session, unless it ends a pass. -/
theorem Outcome.of_unchanged {c : Call} {s' : Session} {accepted : Prop}
    (unchanged : s' = s) (rejected : ¬ accepted) : Outcome T b s c accepted s' := by
  subst unchanged
  exact .kept fun h => absurd h rejected

theorem records_transfer {command : Command} {e e' : CommandEncoder}
    (transfers : command.transfers = true) (records : e.Records T b command e') :
    (idle e).Records T b command (idle e') := by
  cases command <;> first
    | (cases transfers; done)
    | exact ⟨records, trivial, rfl, by simp [Command.drawKind], Bool.noConfusion⟩

theorem records_render {c : RenderCall} {p p' : RenderPassEncoder}
    (records : p.Records T b c.command.normalise p') :
    (render p).Records T b c.command.normalise (render p') := by
  refine ⟨records.encoder, records.shows, ?_, fun _ => records.unused,
    fun _ => .inr ⟨rfl, ?_⟩⟩
  rotate_left
  · rw [Command.drawKind_normalise, Command.setsState_normalise]
    exact c.draws_or_sets
  rw [usedResources, records.used, Command.drawKind_normalise, Command.setsState_normalise]
  rcases c.draws_or_sets with draws | sets
  · rw [if_pos draws, usedResources]
  · rw [Command.usedKeys_of_setsState T b ((Command.setsState_normalise _).trans sets),
      usedResources, if_pos sets, List.append_nil, ite_self]

theorem records_compute {c : ComputeCall} {p p' : ComputePassEncoder}
    (records : p.Records T b c.command p') :
    (compute p).Records T b c.command (compute p') := by
  refine ⟨records.encoder, records.shows, ?_, ?_, Bool.noConfusion⟩
  · cases c <;> rfl
  · cases c <;> simp [ComputeCall.command, Command.drawKind]

theorem finishPass_outcome {command : Command} {e : CommandEncoder} {accepted : Prop}
    (asks : Call.endPass.Asks command) (ends : CommandEncoder.endsPass command = true) (encoder : s.encoder = e)
    (accept : (finishPass alloc command e).1 = .ok () → accepted) :
    Outcome T b s .endPass accepted (finishPass alloc command e).2 := by
  unfold finishPass at accept ⊢
  rcases hrun : CommandEncoder.pushPassEnd alloc command e with ⟨error | _, e'⟩
  · rw [(CommandEncoder.pushPassEnd_atomic alloc command).unchanged hrun, ← encoder]
    exact .dropped rfl
  · rw [hrun] at accept
    have records := CommandEncoder.pushPassEnd_ok (T := T) (b := b) ends hrun
    cases command with
    | endRenderPass | endComputePass =>
        exact .recorded (accept rfl)
          ⟨encoder ▸ records, trivial, rfl, by simp [Command.drawKind], Bool.noConfusion⟩ asks
    | _ => cases ends

theorem rejected_outcome {c : Call} (error : Error) (notEnd : c ≠ .endPass)
    (h : (s.call T alloc c).1 = .error error) :
    Outcome T b s c (s.Accepts T alloc c) (s.call T alloc c).2 :=
  .of_unchanged ((call_atomic notEnd).unchanged (Prod.ext h rfl)) fun accepts => by
    rw [accepts.2] at h
    cases h

theorem unfit_outcome {c : Call} (unfit : c.fits s = false)
    (unchanged : (s.call T alloc c).2 = s) :
    Outcome T b s c (s.Accepts T alloc c) (s.call T alloc c).2 :=
  .of_unchanged unchanged fun accepts => by
    rw [accepts.1] at unfit
    cases unfit

/-- What a call does to a session whose pass caches the replayed state. -/
theorem call_outcome (shows : s.Shows b) (T : ResourceTable) (alloc : Allocator) (c : Call) :
    Outcome T b s c (s.Accepts T alloc c) (s.call T alloc c).2 := by
  cases c with
  | encoder c =>
      cases s with
      | idle e =>
          rcases hrun : c.run T alloc e with ⟨error | u, e'⟩
          · exact rejected_outcome error (by simp) (by simp [call, hrun])
          · have hcall : (idle e).call T alloc (.encoder c) = (.ok u, idle e') := by
              simp [call, hrun]
            obtain ⟨command, asks, records⟩ := EncoderCall.run_ok (b := b) hrun
            rw [hcall]
            exact .recorded ⟨rfl, by rw [hcall]⟩
              (records_transfer (Command.transfers_of_asks asks) records) asks
      | render p | compute p => exact unfit_outcome rfl rfl
  | beginRenderPass desc =>
      cases s with
      | idle e =>
          rcases hrun : CommandEncoder.beginRenderPass T alloc desc e with ⟨error | p, e'⟩
          · exact rejected_outcome error (by simp) (by simp [call, hrun])
          · have hcall : (idle e).call T alloc (.beginRenderPass desc) = (.ok (), render p) := by
              simp [call, hrun]
            obtain ⟨records, shows', used⟩ := CommandEncoder.beginRenderPass_ok (b := b) hrun
            rw [hcall]
            exact .recorded ⟨rfl, by rw [hcall]⟩
              ⟨records, shows', used, by simp [Command.drawKind], fun _ => .inl ⟨_, rfl⟩⟩ rfl
      | render p | compute p => exact unfit_outcome rfl rfl
  | beginComputePass =>
      cases s with
      | idle e =>
          rcases hrun : CommandEncoder.beginComputePass alloc e with ⟨error | p, e'⟩
          · exact rejected_outcome error (by simp) (by simp [call, hrun])
          · have hcall : (idle e).call T alloc .beginComputePass = (.ok (), compute p) := by
              simp [call, hrun]
            obtain ⟨records, shows'⟩ :=
              CommandEncoder.beginComputePass_ok (T := T) (b := b) hrun
            rw [hcall]
            exact .recorded ⟨rfl, by rw [hcall]⟩
              ⟨records, shows', rfl, by simp [Command.drawKind], Bool.noConfusion⟩ rfl
      | render p | compute p => exact unfit_outcome rfl rfl
  | render c =>
      cases s with
      | render p =>
          rcases hrun : c.run T alloc p with ⟨error | u, p'⟩
          · exact rejected_outcome error (by simp) (by simp [call, hrun])
          · have hcall : (render p).call T alloc (.render c) = (.ok u, render p') := by
              simp [call, hrun]
            rw [hcall]
            rcases RenderCall.run_ok shows hrun with ⟨rfl, elided⟩ | records
            · exact .kept fun _ => ⟨_, rfl, Command.repeats_normalise.mp elided⟩
            · exact .recorded ⟨rfl, by rw [hcall]⟩ (records_render records) rfl
      | idle e | compute p => exact unfit_outcome rfl rfl
  | compute c =>
      cases s with
      | compute p =>
          rcases hrun : c.run T alloc p with ⟨error | u, p'⟩
          · exact rejected_outcome error (by simp) (by simp [call, hrun])
          · have hcall : (compute p).call T alloc (.compute c) = (.ok u, compute p') := by
              simp [call, hrun]
            rw [hcall]
            rcases ComputeCall.run_ok shows hrun with ⟨rfl, elided⟩ | records
            · exact .kept fun _ => ⟨_, rfl, elided⟩
            · exact .recorded ⟨rfl, by rw [hcall]⟩ (records_compute records) rfl
      | idle e | render p => exact unfit_outcome rfl rfl
  | endPass =>
      cases s with
      | idle e => exact unfit_outcome rfl rfl
      | render p => exact finishPass_outcome (.inl rfl) rfl rfl fun h => ⟨rfl, h⟩
      | compute p => exact finishPass_outcome (.inr rfl) rfl rfl fun h => ⟨rfl, h⟩
  | dropPass => exact .dropped rfl

end Session

/-! ## Worlds -/

namespace World

/-- What every run keeps: a consistent table whose bind groups fit it, and a pass
that caches the replay of the log. -/
structure Tracks (w : World) : Prop where
  consistent : w.table.Consistent
  groupsFit : w.table.GroupsFit
  shows : w.session.Shows (bindingsAfter w.log)
  keeps : w.session.encoder.validationOnly = false

/-- The event is a call the client can make, and it succeeds. -/
def Accepts (w : World) (alloc : Allocator) (c : Call) : Prop :=
  w.holds c = true ∧ w.session.Accepts w.table alloc c

/-- What one event does to a world. -/
inductive Advances (w : World) : Event → World → Prop
  | table {alloc : Bool} {op : TableOp} {T' : ResourceTable} (evolves : w.table.Evolves T')
      (consistent : T'.Consistent) (groupsFit : T'.GroupsFit) :
      Advances w (.table alloc op) { w with table := T' }
  | pass {builder : PassBuilder} {desc : RenderPassDesc}
      (source : ∀ d ∈ builder.source, d ∈ w.passes)
      (built : builder.run w.table = .ok desc) :
      Advances w (.pass builder) { w with passes := w.passes ++ [desc] }
  | notBuilt {builder : PassBuilder} : Advances w (.pass builder) w
  | kept {alloc : Allocator} {c : Call} (repeats : w.Accepts alloc c →
      ∃ command ∈ c.passCommand, command.Repeats (bindingsAfter w.log)) :
      Advances w (.call alloc c) w
  | dropped {alloc : Allocator} {c : Call} (leaves : c.leaves = true) :
      Advances w (.call alloc c) { w with session := .idle w.session.encoder }
  | recorded {alloc : Allocator} {c : Call} {command : Command} {s' : Session}
      (accept : w.Accepts alloc c)
      (records : w.session.Records w.table (bindingsAfter w.log) command s')
      (asks : c.Asks command) :
      Advances w (.call alloc c)
        { w with session := s', log := w.log ++ [⟨w.table, command⟩] }

theorem step_advances {w : World} (tracks : w.Tracks) (event : Event) :
    w.Advances event (w.step event) := by
  cases event with
  | table alloc op =>
      rw [step]
      rcases hrun : op.run alloc w.table with ⟨error | answer, T'⟩
      · rw [(TableOp.run_atomic alloc op).unchanged hrun]
        exact .table (.refl _) tracks.consistent tracks.groupsFit
      · have change := TableOp.run_ok hrun
        exact .table (change.evolves tracks.consistent) (change.consistent tracks.consistent)
          (change.groupsFit tracks.consistent tracks.groupsFit)
  | pass builder =>
      rw [step]
      split
      · rename_i source
        split
        · rename_i desc built
          refine .pass (fun d hd => ?_) built
          rw [Option.all_eq_true] at source
          simpa using source d hd
        · exact .notBuilt
      · exact .notBuilt
  | call alloc c =>
      rw [step_call]
      split
      · rename_i holds
        have outcome := Session.call_outcome tracks.shows w.table alloc c
        generalize (w.session.call w.table alloc c).2 = s' at outcome
        cases outcome with
        | kept repeats =>
            have kept : w.Advances (.call alloc c) w := .kept fun accepts => repeats accepts.2
            simpa using kept
        | dropped leaves =>
            have dropped : w.Advances (.call alloc c)
                { w with session := .idle w.session.encoder } := .dropped leaves
            simpa [Session.encoder] using dropped
        | @recorded command s' accept records asks =>
            have appended : s'.encoder.commands = w.session.encoder.commands ++ [command] := by
              rw [records.encoder.result, (CommandEncoder.recorded_fields ..).1, tracks.keeps]
              rfl
            simpa [appended] using Advances.recorded ⟨holds, accept⟩ records asks
      · rename_i notHolds
        exact .kept fun accepts => absurd accepts.1 notHolds

theorem Tracks.step {w : World} (tracks : w.Tracks) (event : Event) :
    (w.step event).Tracks := by
  have advances := step_advances tracks event
  generalize w.step event = w' at advances
  cases advances with
  | table evolves consistent groupsFit =>
      exact ⟨consistent, groupsFit, tracks.shows, tracks.keeps⟩
  | pass | notBuilt | kept =>
      exact ⟨tracks.consistent, tracks.groupsFit, tracks.shows, tracks.keeps⟩
  | dropped => exact ⟨tracks.consistent, tracks.groupsFit, trivial, tracks.keeps⟩
  | recorded accept records asks =>
      refine ⟨tracks.consistent, tracks.groupsFit, ?_, ?_⟩
      · rw [bindingsAfter_snoc]
        exact records.shows
      · rw [records.encoder.result, (CommandEncoder.recorded_fields ..).2]
        exact tracks.keeps

theorem new_tracks (id : UInt64) (id_ne : id ≠ 0) : (World.new id id_ne).Tracks where
  consistent := ResourceTable.new_consistent id id_ne
  groupsFit := fun id g live => by
    rw [ResourceTable.get_eq_ok] at live
    simp [World.new, ResourceTable.new, ResourceTable.lookup, SlotPool.resolve,
      SlotPool.empty] at live
  shows := trivial
  keeps := rfl

@[simp] theorem run_nil (w : World) : w.run [] = w := rfl

@[simp] theorem run_snoc (w : World) (events : List Event) (event : Event) :
    w.run (events ++ [event]) = (w.run events).step event := by
  simp [run]

theorem Tracks.run {w : World} (tracks : w.Tracks) (events : List Event) :
    (w.run events).Tracks := by
  induction events using List.reverseRecOn with
  | nil => exact tracks
  | append_singleton events event ih =>
      rw [run_snoc]
      exact ih.step event

/-- A property of new worlds that every advance under a condition keeps holds
after every run whose events all meet the condition. -/
theorem run_induction {id : UInt64} {id_ne : id ≠ 0} {P : World → Prop}
    {C : World → Event → Prop} (start : P (World.new id id_ne))
    (advance : ∀ w event w', w.Tracks → P w → C w event → w.Advances event w' → P w')
    (events : List Event)
    (meets : Along (fun past event => C ((World.new id id_ne).run past) event) events) :
    P ((World.new id id_ne).run events) := by
  induction events using List.reverseRecOn with
  | nil => exact start
  | append_singleton events event ih =>
      rw [along_snoc] at meets
      rw [run_snoc]
      have tracks := (new_tracks id id_ne).run events
      exact advance _ event _ tracks (ih meets.1) meets.2 (step_advances tracks event)

/-- A property of new worlds that every advance keeps holds after every run. -/
theorem run_invariant {id : UInt64} {id_ne : id ≠ 0} {P : World → Prop}
    (start : P (World.new id id_ne))
    (advance : ∀ w event w', w.Tracks → P w → w.Advances event w' → P w')
    (events : List Event) : P ((World.new id id_ne).run events) :=
  run_induction (C := fun _ _ => True) start
    (fun w event w' tracks hw _ => advance w event w' tracks hw) events
    fun _ _ _ _ => trivial

end World

end Sgfx
