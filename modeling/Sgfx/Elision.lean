import Sgfx.Hazards

/-!
# Elided state

A pass does not record a call that sets what is already in force.  The state that
a draw or dispatch meets is the same whether the recorded commands are replayed or
everything the accepted calls asked for.

## Main Definitions

* `drawStates` — the draws and dispatches of a list of commands, each with the
  state it meets
* `fullCommands` — what the accepted pass calls of a run asked for

## Main Results

* `elision_sound` — both lists of commands have the same draws in the same states
-/

namespace Sgfx

/-- Every draw and dispatch of a list of commands, with the state it meets.  A draw
of one instance from instance zero is the same draw as one without instances. -/
def drawStates (b : Bindings) : List Command → List (Command × Bindings)
  | [] => []
  | command :: rest =>
      (if command.isDraw then [(command.normalise, b)] else []) ++
        drawStates (b.apply command) rest

/-- What a pass call asks for, if the client can make it and it succeeds. -/
def World.asked (w : World) : Event → Option Command
  | .call alloc c =>
      if w.holds c && c.fits w.session && (w.session.call w.table alloc c).1.isOk then
        c.passCommand
      else none
  | .table .. | .pass _ => none

/-- The commands the accepted pass calls of a run asked for, none of them elided. -/
def fullCommands (w : World) : List Event → List Command
  | [] => []
  | event :: rest => (w.asked event).toList ++ fullCommands (w.step event) rest

/-! ## One more command -/

theorem drawStates_snoc (b : Bindings) (commands : List Command) (command : Command) :
    drawStates b (commands ++ [command]) = drawStates b commands ++
      if command.isDraw then [(command.normalise, b.replay commands)] else [] := by
  induction commands generalizing b with
  | nil => simp [drawStates, Bindings.replay]
  | cons first rest ih => simp [drawStates, ih, Bindings.replay]

theorem fullCommands_snoc (w : World) (events : List Event) (event : Event) :
    fullCommands w (events ++ [event]) =
      fullCommands w events ++ ((w.run events).asked event).toList := by
  induction events generalizing w with
  | nil => simp [fullCommands]
  | cons first rest ih => simp [fullCommands, ih, World.run]

theorem Command.isDraw_normalise (command : Command) :
    command.normalise.isDraw = command.isDraw := by
  cases command with
  | setVertexBufferSlot | drawInstanced | drawIndexedInstanced =>
      rw [normalise]
      split <;> rfl
  | _ => rfl

theorem Command.normalise_normalise (command : Command) :
    command.normalise.normalise = command.normalise := by
  cases command with
  | setVertexBufferSlot | drawInstanced | drawIndexedInstanced =>
      rw [normalise]
      split
      · rfl
      · rename_i h
        rw [normalise, if_neg h]
  | _ => rfl

theorem Command.not_isDraw_of_setsState {command : Command} (state : command.setsState = true) :
    command.isDraw = false := by
  cases command <;> first | rfl | cases state

/-! ## Every run -/

namespace World

theorem asked_of_accepts {w : World} {alloc : Allocator} {c : Call} (h : w.Accepts alloc c) :
    w.asked (.call alloc c) = c.passCommand := by
  rw [asked, h.1, h.2.1, h.2.2]
  rfl

theorem accepts_of_mem_asked {w : World} {alloc : Allocator} {c : Call} {command : Command}
    (h : command ∈ w.asked (.call alloc c)) :
    w.Accepts alloc c ∧ command ∈ c.passCommand := by
  rw [asked] at h
  split at h
  · rename_i accepted
    rw [Bool.and_eq_true, Bool.and_eq_true] at accepted
    obtain ⟨⟨holds, fits⟩, isOk⟩ := accepted
    refine ⟨⟨holds, fits, ?_⟩, h⟩
    cases hresult : (w.session.call w.table alloc c).1 with
    | ok u => rfl
    | error error => simp [hresult, Except.isOk, Except.toBool] at isOk
  · cases h

/-- The recorded commands and the full ones are in the same state and have had the
same draws. -/
structure Elides (w : World) (full : List Command) : Prop where
  state : bindingsAfter w.log = Bindings.initial.replay full
  draws : drawStates .initial (w.log.map Recorded.command) = drawStates .initial full

theorem Elides.silent {w : World} {full : List Command} {asked : Option Command}
    (h : w.Elides full) (repeats : ∀ command ∈ asked, command.Repeats (bindingsAfter w.log)) :
    w.Elides (full ++ asked.toList) := by
  cases asked with
  | none => simpa using h
  | some command =>
      obtain ⟨state, same⟩ := repeats command rfl
      refine ⟨?_, ?_⟩
      · rw [Option.toList_some, Bindings.replay_snoc, ← h.state, same]
      · rw [Option.toList_some, drawStates_snoc, Command.not_isDraw_of_setsState state, h.draws]
        simp

theorem Elides.advance {w w' : World} {event : Event} {full : List Command}
    (h : w.Elides full) (advances : w.Advances event w') :
    w'.Elides (full ++ (w.asked event).toList) := by
  cases advances with
  | table | pass | notBuilt => exact Elides.silent ⟨h.state, h.draws⟩ (by simp [asked])
  | kept repeats =>
      refine h.silent fun command hc => ?_
      obtain ⟨accepts, hpass⟩ := accepts_of_mem_asked hc
      obtain ⟨repeated, hrepeated, same⟩ := repeats accepts
      rwa [Option.mem_unique hpass hrepeated]
  | dropped leaves =>
      refine Elides.silent ⟨h.state, h.draws⟩ fun command hc => ?_
      have asked := (accepts_of_mem_asked hc).2
      rw [Call.passCommand_of_leaves leaves] at asked
      cases asked
  | @recorded alloc c command s' accept records asks =>
      rw [asked_of_accepts accept]
      have states : Bindings.initial.replay (w.log.map Recorded.command) =
          Bindings.initial.replay full := h.state
      rcases asks.cases with ⟨asked, hc, rfl⟩ | ⟨silent, -, notDraw, unchanged⟩
      · rw [Option.mem_def.mp hc, Option.toList_some]
        refine ⟨?_, ?_⟩
        · rw [bindingsAfter_snoc, Bindings.replay_snoc, h.state, Bindings.apply_normalise]
        · rw [List.map_append, List.map_singleton, drawStates_snoc, drawStates_snoc, h.draws,
            Command.isDraw_normalise, Command.normalise_normalise, states]
      · rw [silent, Option.toList_none, List.append_nil]
        refine ⟨?_, ?_⟩
        · rw [bindingsAfter_snoc, unchanged, h.state]
        · rw [List.map_append, List.map_singleton, drawStates_snoc, notDraw, h.draws]
          simp

end World

/-- **State elision is sound.**  In every run, the recorded commands have the
draws and dispatches of everything the accepted calls asked for, each in the same
effective state, and end in the same state. -/
theorem elision_sound (id : UInt64) (id_ne : id ≠ 0) (events : List Event) :
    let recorded := ((World.new id id_ne).run events).log.map Recorded.command
    let full := fullCommands (World.new id id_ne) events
    drawStates .initial recorded = drawStates .initial full ∧
      Bindings.initial.replay recorded = Bindings.initial.replay full := by
  suffices elides : ((World.new id id_ne).run events).Elides
      (fullCommands (World.new id id_ne) events) from ⟨elides.draws, elides.state⟩
  induction events using List.reverseRecOn with
  | nil => exact ⟨rfl, rfl⟩
  | append_singleton events event ih =>
      rw [World.run_snoc, fullCommands_snoc]
      exact ih.advance (World.step_advances ((World.new_tracks id id_ne).run events) event)

/-- A pipeline is set twice before a dispatch. -/
def repeatedPipeline : List Event :=
  [.table true (.defineBuffer sampleBuffer),
    .table true (.defineShaderModule emptyModule),
    .table true (.defineBindGroup ⟨storageLayout, [⟨0, .buffer ⟨1, 0, 0⟩ 0 16⟩]⟩),
    .table true (.defineComputePipeline storagePipeline),
    .call grantAll .beginComputePass,
    .call grantAll (.compute (.setPipeline ⟨1, 0, 0⟩)),
    .call grantAll (.compute (.setPipeline ⟨1, 0, 0⟩)),
    .call grantAll (.compute (.setBindGroup 0 ⟨1, 0, 0⟩)),
    .call grantAll (.compute (.dispatch 1 1 1))]

theorem elision_sound_repeated :
    drawStates .initial
        (((World.new 1 (by decide)).run repeatedPipeline).log.map Recorded.command) =
      drawStates .initial (fullCommands (World.new 1 (by decide)) repeatedPipeline) :=
  (elision_sound 1 (by decide) repeatedPipeline).1

end Sgfx
