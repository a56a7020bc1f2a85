import Sgfx.Vulkan.PushConstants

/-!
# Runs of push constant updates

After any updates, the constants are the last values written, and a snapshot for a layout gives
each stage those of the bytes that the layout declares for it.

## Main Definitions

* `PushUpdate`, `PushConstants.run` — updates one after another
* `lastWrite` — what was written last to a byte of a stage, and through which ranges
* `Supplies`, `Conflicting` — what a snapshot gives, and when there is none

## Main Results

* `PushConstants.tracks_run` — the constants are what was written last
* `coherent_lastWrite` — stages that declare a byte in the same ranges have been written together
* `PushConstants.run_pushConstantLaw`
-/

namespace Sgfx

/-! ## Sets of stages -/

namespace ShaderStages

variable {stages other : ShaderStages} {stage : ShaderStage}

theorem has_of_contains (contains : stages.contains other = true) (member : other.has stage = true) :
    stages.has stage = true := by
  unfold ShaderStages.contains at contains
  simp only [Bool.and_eq_true, Bool.or_eq_true, Bool.not_eq_true'] at contains
  obtain ⟨⟨vertex, fragment⟩, compute⟩ := contains
  cases stage with
  | vertex => exact vertex.resolve_left fun absent => Bool.noConfusion (absent.symm.trans member)
  | fragment => exact fragment.resolve_left fun absent => Bool.noConfusion (absent.symm.trans member)
  | compute => exact compute.resolve_left fun absent => Bool.noConfusion (absent.symm.trans member)

theorem contains_of_has (each : ∀ stage, other.has stage = true → stages.has stage = true) :
    stages.contains other = true := by
  have stagewise : ∀ a b : Bool, (a = true → b = true) → (!a || b) = true := by decide
  unfold ShaderStages.contains
  rw [Bool.and_eq_true, Bool.and_eq_true]
  exact ⟨⟨stagewise _ _ (each .vertex), stagewise _ _ (each .fragment)⟩,
    stagewise _ _ (each .compute)⟩

theorem isEmpty_eq_false_iff : stages.isEmpty = false ↔ ∃ stage, stages.has stage = true := by
  unfold ShaderStages.isEmpty
  rw [Bool.and_eq_false_iff, Bool.and_eq_false_iff]
  simp only [Bool.not_eq_false']
  constructor
  · rintro ((h | h) | h)
    · exact ⟨.vertex, h⟩
    · exact ⟨.fragment, h⟩
    · exact ⟨.compute, h⟩
  · rintro ⟨stage, h⟩
    cases stage with
    | vertex => exact .inl (.inl h)
    | fragment => exact .inl (.inr h)
    | compute => exact .inr h

theorem has_union : (stages.union other).has stage = (stages.has stage || other.has stage) := by
  cases stage <;> rfl

end ShaderStages

namespace Vulkan

/-! ## Updates -/

/-- One call of `update`. -/
structure PushUpdate where
  layout : PipelineLayoutDesc
  stages : ShaderStages
  offset : UInt32
  data : Payload

namespace PushUpdate

/-- The layout allows the update. -/
def Accepted (u : PushUpdate) : Prop :=
  u.layout.validatePushConstants u.stages u.offset u.data.slice = .ok ()

instance (u : PushUpdate) : Decidable u.Accepted := inferInstanceAs (Decidable (_ = _))

/-- The update writes a byte of a stage. -/
def Writes (u : PushUpdate) (stage : ShaderStage) (byte : Nat) : Prop :=
  u.Accepted ∧ u.stages.has stage = true ∧ u.offset.toNat ≤ byte ∧ byte < u.offset.toNat + u.data.len

instance (u : PushUpdate) (stage : ShaderStage) (byte : Nat) : Decidable (u.Writes stage byte) :=
  inferInstanceAs (Decidable (_ ∧ _ ∧ _ ∧ _))

/-- What was written last, after one more update. -/
def overwrites (stage : ShaderStage) (byte : Nat) (last : Option (UInt8 × List PushConstantRange))
    (u : PushUpdate) : Option (UInt8 × List PushConstantRange) :=
  if u.Writes stage byte then
    some (Bytes.get u.data.bytes (byte - u.offset.toNat), u.layout.pushConstantRanges)
  else last

end PushUpdate

/-- The value that was written last to a byte of a stage, and the ranges of the layout. -/
def lastWrite (updates : List PushUpdate) (stage : ShaderStage) (byte : Nat) :
    Option (UInt8 × List PushConstantRange) :=
  updates.foldl (PushUpdate.overwrites stage byte) none

theorem lastWrite_append (updates : List PushUpdate) (u : PushUpdate) (stage : ShaderStage)
    (byte : Nat) : lastWrite (updates ++ [u]) stage byte =
      u.overwrites stage byte (lastWrite updates stage byte) :=
  List.foldl_concat ..

/-- The layout declares a byte of a stage. -/
def Declares (ranges : List PushConstantRange) (stage : ShaderStage) (byte : Nat) : Prop :=
  ∃ range ∈ ranges, range.stages.has stage = true ∧ range.offset.toNat ≤ byte ∧
    byte < PushConstants.stop range

/-! ## Accepted updates -/

/-- What a layout allows to be set. -/
structure Settable (ranges : List PushConstantRange) (stages : ShaderStages) (start size : Nat) :
    Prop where
  staged : stages.isEmpty = false
  nonempty : 0 < size
  aligned : start % 4 = 0 ∧ size % 4 = 0
  inside : start + size ≤ LENGTH
  declared : ∀ stage, stages.has stage = true → ∃ range ∈ ranges, range.stages.has stage = true ∧
    range.offset.toNat ≤ start ∧ start + size ≤ PushConstants.stop range
  together : ∀ range ∈ ranges, start < PushConstants.stop range → range.offset.toNat < start + size →
    stages.contains range.stages = true

theorem aligned32 {offset : UInt32} : offset % 4 = 0 ↔ offset.toNat % 4 = 0 := by
  rw [← UInt32.toNat_inj, UInt32.toNat_mod]
  rfl

theorem aligned64 {size : UInt64} : size % 4 = 0 ↔ size.toNat % 4 = 0 := by
  rw [← UInt64.toNat_inj, UInt64.toNat_mod]
  rfl

theorem validatePushConstants_eq_ok {layout : PipelineLayoutDesc} {stages : ShaderStages}
    {offset : UInt32} {slice : ByteSlice} :
    layout.validatePushConstants stages offset slice = .ok () ↔
      Settable layout.pushConstantRanges stages offset.toNat slice.len.toNat := by
  have size : slice.len = 0 ↔ slice.len.toNat = 0 := by
    rw [← UInt64.toNat_inj]
    rfl
  have all : ∀ stage : ShaderStage, stage ∈ [ShaderStage.vertex, .fragment, .compute] := by
    intro stage
    cases stage <;> decide
  unfold PipelineLayoutDesc.validatePushConstants
  simp only [except_bind_eq_ok, failIf_eq_ok, forEach_eq_ok, List.any_eq_true, Bool.and_eq_true,
    decide_eq_true_eq, Bool.not_eq_true', UInt32.le_iff_toNat_le, ne_eq, aligned32, aligned64, size]
  constructor
  · rintro ⟨_, shape, _, -, _, -, _, inside, _, declared, together⟩
    have aligned : offset.toNat % 4 = 0 ∧ slice.len.toNat % 4 = 0 := by omega
    refine ⟨?_, by omega, aligned, Nat.le_of_not_lt inside, ?_, ?_⟩
    · exact Bool.eq_false_iff.mpr fun empty => shape (.inl empty)
    · intro stage member
      obtain ⟨range, hrange, ⟨has, low⟩, high⟩ := Decidable.not_not.mp
        fun absent => declared stage (all stage) ⟨member, absent⟩
      exact ⟨range, hrange, has, low, high⟩
    · intro range hrange low high
      by_contra missing
      exact together ⟨range, hrange, ⟨low, high⟩, Bool.eq_false_iff.mpr missing⟩
  · intro settable
    have nonempty := settable.nonempty
    have inside : offset.toNat + slice.len.toNat ≤ 128 := settable.inside
    have aligned := settable.aligned
    refine ⟨(), ?_, (), by omega, (), by omega, (), Nat.not_lt_of_le inside, (), ?_, ?_⟩
    · rintro (empty | rest)
      · exact Bool.noConfusion (settable.staged.symm.trans empty)
      · omega
    · rintro stage - ⟨member, absent⟩
      obtain ⟨range, hrange, has, low, high⟩ := settable.declared stage member
      exact absent ⟨range, hrange, ⟨has, low⟩, high⟩
    · rintro ⟨range, hrange, ⟨low, high⟩, missing⟩
      exact Bool.noConfusion (missing.symm.trans (settable.together range hrange low high))

theorem PushUpdate.Accepted.settable {u : PushUpdate} (accepted : u.Accepted) :
    Settable u.layout.pushConstantRanges u.stages u.offset.toNat u.data.len := by
  rw [← u.data.slice_len]
  exact validatePushConstants_eq_ok.mp accepted

/-! ## What was written last -/

/-- An update writes every stage that its layout declares there. -/
theorem PushUpdate.Writes.of_declares {u : PushUpdate} {stage other : ShaderStage} {byte : Nat}
    (writes : u.Writes stage byte) (declared : Declares u.layout.pushConstantRanges other byte) :
    u.Writes other byte := by
  obtain ⟨accepted, -, low, high⟩ := writes
  obtain ⟨range, hrange, has, start, stop⟩ := declared
  have together := accepted.settable.together range hrange (Nat.lt_of_le_of_lt low stop)
    (Nat.lt_of_le_of_lt start high)
  exact ⟨accepted, ShaderStages.has_of_contains together has, low, high⟩

/-- A byte is written through ranges that declare it. -/
theorem declares_lastWrite (updates : List PushUpdate) {stage : ShaderStage} {byte : Nat}
    {value : UInt8} {ranges : List PushConstantRange}
    (written : lastWrite updates stage byte = some (value, ranges)) :
    Declares ranges stage byte := by
  induction updates using List.reverseRecOn with
  | nil => cases written
  | append_singleton updates u ih =>
    rw [lastWrite_append, PushUpdate.overwrites] at written
    split at written
    · rename_i writes
      obtain ⟨accepted, has, low, high⟩ := writes
      cases written
      obtain ⟨range, hrange, member, start, stop⟩ := accepted.settable.declared stage has
      exact ⟨range, hrange, member, Nat.le_trans start low, Nat.lt_of_lt_of_le high stop⟩
    · exact ih written

/-- Stages that declare a byte in the same ranges have been written together. -/
theorem coherent_lastWrite (updates : List PushUpdate) {stage other : ShaderStage} {byte : Nat}
    {value : UInt8} {ranges : List PushConstantRange}
    (written : lastWrite updates stage byte = some (value, ranges))
    (declared : Declares ranges other byte) :
    ∃ value' ranges', lastWrite updates other byte = some (value', ranges') ∧
      (ranges' = ranges → value' = value) := by
  induction updates using List.reverseRecOn with
  | nil => cases written
  | append_singleton updates u ih =>
    rw [lastWrite_append, PushUpdate.overwrites] at written ⊢
    split at written
    · -- written by this update, which must set the other stage too
      rename_i writes
      cases written
      rw [if_pos (writes.of_declares declared)]
      exact ⟨_, _, rfl, fun _ => rfl⟩
    · rename_i missing
      split
      · -- written since, through other ranges: in the same ones the first stage would be set too
        rename_i writes
        refine ⟨_, _, rfl, fun same => ?_⟩
        subst same
        exact absurd (writes.of_declares (declares_lastWrite updates written)) missing
      · exact ih written

/-! ## One update -/

/-- A loop that changes each of some entries once. -/
theorem foldl_update_apply {ι β : Type} [DecidableEq ι] (chosen : ι → Bool) (change : β → β)
    {list : List ι} (nodup : list.Nodup) (f : ι → β) (i : ι) :
    list.foldl (fun f a => if chosen a then Function.update f a (change (f a)) else f) f i =
      if i ∈ list ∧ chosen i = true then change (f i) else f i := by
  induction list generalizing f with
  | nil => exact (if_neg fun h => List.not_mem_nil h.1).symm
  | cons a rest ih =>
    obtain ⟨absent, nodup⟩ := List.nodup_cons.mp nodup
    rw [List.foldl_cons, ih nodup]
    by_cases same : i = a
    · subst same
      rw [if_neg fun h => absent h.1]
      by_cases member : chosen i = true
      · rw [if_pos member, Function.update_self, if_pos ⟨List.mem_cons_self, member⟩]
      · rw [if_neg member, if_neg fun h => member h.2]
    · have kept : (if chosen a then Function.update f a (change (f a)) else f) i = f i := by
        split
        · exact Function.update_of_ne same ..
        · rfl
      have later : i ∈ a :: rest ↔ i ∈ rest := by
        rw [List.mem_cons, or_iff_right same]
      simp only [kept, later]

namespace PushConstants

section Update

variable {constants : PushConstants} {stages : ShaderStages} {owner start : Nat} {data : List UInt8}

theorem mem_STAGES (stage : ShaderStage) : stage ∈ STAGES := by
  cases stage <;> decide

theorem nodup_STAGES : STAGES.Nodup := by decide

/-- What the loop of an update does to an array that each turn changes at its stage. -/
theorem updateStages_apply {β : Type} (array : Bool × PushConstants → ShaderStage → β)
    (change : β → β)
    (turn : ∀ state a, array (updateStage stages owner start data state a) =
      if stages.has a then Function.update (array state) a (change (array state a)) else array state)
    (state : Bool × PushConstants) (stage : ShaderStage) :
    array (STAGES.foldl (updateStage stages owner start data) state) stage =
      if stages.has stage then change (array state stage) else array state stage := by
  have folded := @List.foldl_hom _ _ _ array (updateStage stages owner start data)
    (fun f a => if stages.has a then Function.update f a (change (f a)) else f) STAGES state
    fun state a => (turn state a).symm
  rw [← folded, foldl_update_apply stages.has change nodup_STAGES]
  simp only [mem_STAGES, true_and]

/-- The loop of an update copies into the bytes of each of its stages. -/
theorem bytes_updateStages (state : Bool × PushConstants) (stage : ShaderStage) :
    (STAGES.foldl (updateStage stages owner start data) state).2.bytes stage =
      if stages.has stage then Bytes.splice (state.2.bytes stage) start data
      else state.2.bytes stage := by
  refine updateStages_apply (fun state => state.2.bytes) (Bytes.splice · start data) ?_ state stage
  intro state a
  unfold updateStage
  split
  · rfl
  · rfl

/-- The loop of an update fills the owners of each of its stages. -/
theorem owners_updateStages (state : Bool × PushConstants) (stage : ShaderStage) :
    (STAGES.foldl (updateStage stages owner start data) state).2.owners stage =
      if stages.has stage then
        Bytes.splice (state.2.owners stage) start (List.replicate data.length (some owner))
      else state.2.owners stage := by
  refine updateStages_apply (fun state => state.2.owners)
    (Bytes.splice · start (List.replicate data.length (some owner))) ?_ state stage
  intro state a
  unfold updateStage
  split
  · rfl
  · rfl

theorem layouts_updateStages (state : Bool × PushConstants) (list : List ShaderStage) :
    (list.foldl (updateStage stages owner start data) state).2.layouts = state.2.layouts := by
  induction list generalizing state with
  | nil => rfl
  | cons a rest ih =>
    rw [List.foldl_cons, ih]
    unfold updateStage
    split
    · rfl
    · rfl

/-- Whether a stage differs depends on its own arrays. -/
theorem differs_updateStage {state : Bool × PushConstants} {stage a : ShaderStage}
    (other : stage ≠ a) :
    (updateStage stages owner start data state a).2.differs owner start data stage =
      state.2.differs owner start data stage := by
  have bytes : (state.2.writeStage owner start data a).bytes stage = state.2.bytes stage :=
    Function.update_of_ne other ..
  have owners : (state.2.writeStage owner start data a).owners stage = state.2.owners stage :=
    Function.update_of_ne other ..
  unfold updateStage
  split
  · rw [differs, bytes, owners]
    rfl
  · rfl

/-- An update that reports no change finds its values and owner everywhere. -/
theorem unchanged_updateStages {list : List ShaderStage} (nodup : list.Nodup)
    {state : Bool × PushConstants}
    (unchanged : (list.foldl (updateStage stages owner start data) state).1 = false) :
    state.1 = false ∧ ∀ stage ∈ list, stages.has stage = true →
      state.2.differs owner start data stage = false := by
  induction list generalizing state with
  | nil => exact ⟨unchanged, fun stage h => (List.not_mem_nil h).elim⟩
  | cons a rest ih =>
    obtain ⟨absent, nodup⟩ := List.nodup_cons.mp nodup
    obtain ⟨here, later⟩ := ih nodup unchanged
    have turn : state.1 = false ∧
        (stages.has a = true → state.2.differs owner start data a = false) := by
      unfold updateStage at here
      split at here
      · rename_i member
        rw [Bool.or_eq_false_iff] at here
        exact ⟨here.1, fun _ => here.2⟩
      · rename_i missing
        exact ⟨here, fun member => absurd member missing⟩
    refine ⟨turn.1, fun stage member has => ?_⟩
    by_cases same : stage = a
    · subst same
      exact turn.2 has
    · have member := List.mem_of_ne_of_mem same member
      exact (differs_updateStage same).symm.trans (later stage member has)

/-- Some ranges have an index, which is new if they are. -/
theorem owner_spec (constants : PushConstants) (ranges : List PushConstantRange) :
    (constants.owner ranges).2.bytes = constants.bytes ∧
      (constants.owner ranges).2.owners = constants.owners ∧
      (constants.owner ranges).2.layouts[(constants.owner ranges).1]? = some ranges ∧
      (∀ (index : Nat) stored, constants.layouts[index]? = some stored →
        (constants.owner ranges).2.layouts[index]? = some stored) ∧
      ((constants.owner ranges).2 = constants ∨
        (constants.owner ranges).1 = constants.layouts.length) := by
  unfold PushConstants.owner
  cases found : constants.layouts.findIdx? fun stored => decide (stored = ranges) with
  | some index =>
    refine ⟨rfl, rfl, ?_, fun _ _ h => h, .inl rfl⟩
    obtain ⟨inside, same, -⟩ := List.findIdx?_eq_some_iff_getElem.mp found
    rw [List.getElem?_eq_getElem inside, of_decide_eq_true same]
  | none =>
    refine ⟨rfl, rfl, List.getElem?_concat_length, ?_, .inr rfl⟩
    intro index stored h
    have inside : index < constants.layouts.length := (List.getElem?_eq_some_iff.mp h).1
    exact (List.getElem?_append_left inside).trans h

end Update

/-! ## Runs -/

/-- One update of a run. -/
def apply (constants : PushConstants) (u : PushUpdate) : Except VkResult Bool × PushConstants :=
  constants.update u.layout u.stages u.offset u.data

/-- The constants after some updates. -/
def run (updates : List PushUpdate) : PushConstants :=
  updates.foldl (fun constants u => (constants.apply u).2) default

/-- A byte of a stage is what was written last. -/
def Reads (constants : PushConstants) (stage : ShaderStage) (byte : Nat) :
    Option (UInt8 × List PushConstantRange) → Prop
  | none => Bytes.get (constants.bytes stage) byte = 0 ∧
      (constants.owners stage).getD byte none = none
  | some (value, ranges) => Bytes.get (constants.bytes stage) byte = value ∧
      ∃ owner, (constants.owners stage).getD byte none = some owner ∧
        constants.layouts[owner]? = some ranges

/-- The constants are what was written last. -/
structure Tracks (updates : List PushUpdate) (constants : PushConstants) : Prop where
  bytes_length : ∀ stage, (constants.bytes stage).length = LENGTH
  owners_length : ∀ stage, (constants.owners stage).length = LENGTH
  reads : ∀ stage byte, constants.Reads stage byte (lastWrite updates stage byte)

section Runs

variable {updates : List PushUpdate} {constants : PushConstants} {u : PushUpdate}

theorem tracks_default : Tracks [] default where
  bytes_length := fun _ => List.length_replicate
  owners_length := fun _ => List.length_replicate
  reads := by
    intro stage byte
    refine ⟨Bytes.get_replicate_zero .., ?_⟩
    rw [List.getD_eq_getElem?_getD, default, List.getElem?_replicate]
    split
    · rfl
    · rfl

theorem apply_rejected (rejected : ¬ u.Accepted) : (constants.apply u).2 = constants := by
  unfold apply update
  cases h : u.layout.validatePushConstants u.stages u.offset u.data.slice with
  | ok _ => exact absurd h rejected
  | error e => rfl

/-- What an update that the layout allows does. -/
theorem apply_accepted (accepted : u.Accepted) :
    constants.apply u =
      let owned := constants.owner u.layout.pushConstantRanges
      let after := STAGES.foldl (updateStage u.stages owned.1 u.offset.toNat u.data.bytes)
        (false, owned.2)
      (.ok after.1, after.2) := by
  unfold apply update
  rw [show u.layout.validatePushConstants u.stages u.offset u.data.slice = .ok () from accepted]
  rfl

/-- A byte that is left as it is reads as before. -/
theorem Reads.mono {constants' : PushConstants} {stage : ShaderStage} {byte : Nat}
    {last : Option (UInt8 × List PushConstantRange)} (h : constants.Reads stage byte last)
    (bytes : Bytes.get (constants'.bytes stage) byte = Bytes.get (constants.bytes stage) byte)
    (owners : (constants'.owners stage).getD byte none = (constants.owners stage).getD byte none)
    (layouts : ∀ (index : Nat) stored, constants.layouts[index]? = some stored →
      constants'.layouts[index]? = some stored) : constants'.Reads stage byte last := by
  cases last with
  | none => exact ⟨bytes.trans h.1, owners.trans h.2⟩
  | some written =>
    obtain ⟨value, owner, here, stored⟩ := h
    exact ⟨bytes.trans value, owner, owners.trans here, layouts owner _ stored⟩

/-- One update writes what it should, and leaves the other bytes as they are. -/
theorem Tracks.apply (tracks : Tracks updates constants) :
    Tracks (updates ++ [u]) (constants.apply u).2 := by
  by_cases accepted : u.Accepted
  · have inside := accepted.settable.inside
    obtain ⟨bytes, owners, owned, stored, -⟩ := owner_spec constants u.layout.pushConstantRanges
    rw [apply_accepted accepted]
    generalize constants.owner u.layout.pushConstantRanges = mine at bytes owners owned stored ⊢
    obtain ⟨index, registered⟩ := mine
    have fits : ∀ stage, u.offset.toNat + u.data.bytes.length ≤ (registered.bytes stage).length := by
      intro stage
      rw [bytes, tracks.bytes_length]
      exact inside
    have filled : ∀ stage, u.offset.toNat + (List.replicate u.data.bytes.length (some index)).length ≤
        (registered.owners stage).length := by
      intro stage
      rw [owners, tracks.owners_length, List.length_replicate]
      exact inside
    refine ⟨fun stage => ?_, fun stage => ?_, fun stage byte => ?_⟩
    · rw [bytes_updateStages, ← tracks.bytes_length stage]
      split
      · exact (Bytes.splice_length (fits stage)).trans (congrArg (fun f => (f stage).length) bytes)
      · exact congrArg (fun f => (f stage).length) bytes
    · rw [owners_updateStages, ← tracks.owners_length stage]
      split
      · exact (Bytes.splice_length (filled stage)).trans (congrArg (fun f => (f stage).length) owners)
      · exact congrArg (fun f => (f stage).length) owners
    · rw [lastWrite_append, PushUpdate.overwrites]
      split
      · rename_i writes
        obtain ⟨-, has, low, high⟩ := writes
        refine ⟨?_, index, ?_, ?_⟩
        · rw [bytes_updateStages, if_pos has, Bytes.get_splice (fits stage), if_pos ⟨low, high⟩]
        · have within : byte - u.offset.toNat < u.data.bytes.length :=
            Nat.sub_lt_left_of_lt_add low high
          rw [owners_updateStages, if_pos has, Bytes.getD_splice (filled stage),
            List.length_replicate, if_pos ⟨low, high⟩, List.getD_eq_getElem?_getD,
            List.getElem?_replicate, if_pos within]
          rfl
        · rw [layouts_updateStages]
          exact owned
      · rename_i other
        have outside : u.stages.has stage = true →
            ¬ (u.offset.toNat ≤ byte ∧ byte < u.offset.toNat + u.data.bytes.length) :=
          fun has covered => other ⟨accepted, has, covered⟩
        refine (tracks.reads stage byte).mono ?_ ?_ ?_
        · rw [bytes_updateStages]
          split
          · rename_i has
            rw [Bytes.get_splice (fits stage), if_neg (outside has), bytes]
          · rw [bytes]
        · rw [owners_updateStages]
          split
          · rename_i has
            rw [Bytes.getD_splice (filled stage), List.length_replicate, if_neg (outside has), owners]
          · rw [owners]
        · rw [layouts_updateStages]
          exact stored
  · rw [apply_rejected accepted]
    refine ⟨tracks.bytes_length, tracks.owners_length, fun stage byte => ?_⟩
    rw [lastWrite_append, PushUpdate.overwrites, if_neg fun writes => accepted writes.1]
    exact tracks.reads stage byte

/-- After any updates, the constants are what was written last. -/
theorem tracks_run (updates : List PushUpdate) : Tracks updates (run updates) := by
  induction updates using List.reverseRecOn with
  | nil => exact tracks_default
  | append_singleton updates u ih =>
    have last : run (updates ++ [u]) = ((run updates).apply u).2 := List.foldl_concat ..
    rw [last]
    exact ih.apply

/-! ## Updates that change nothing -/

/-- A stage that does not differ is overwritten with what it has. -/
theorem splice_of_differs {start owner : Nat} {data : List UInt8} {stage : ShaderStage}
    (inside : start + data.length ≤ (constants.owners stage).length)
    (same : constants.differs owner start data stage = false) :
    Bytes.splice (constants.bytes stage) start data = constants.bytes stage ∧
      (((constants.owners stage).drop start).take data.length =
        List.replicate data.length (some owner)) := by
  unfold differs at same
  rw [Bool.or_eq_false_iff, bne_eq_false_iff_eq, List.any_eq_false] at same
  refine ⟨Bytes.splice_same same.1, List.eq_replicate_iff.mpr ⟨length_take_drop inside, ?_⟩⟩
  intro previous member
  have equal := same.2 previous member
  rwa [bne_iff_ne, Decidable.not_not] at equal

/-- The index in the owner of a byte is that of stored ranges. -/
theorem Tracks.owner_lt (tracks : Tracks updates constants) {stage : ShaderStage} {byte index : Nat}
    (owned : (constants.owners stage)[byte]? = some (some index)) :
    index < constants.layouts.length := by
  have here : (constants.owners stage).getD byte none = some index := by
    rw [List.getD_eq_getElem?_getD, owned]
    rfl
  have reads := tracks.reads stage byte
  cases last : lastWrite updates stage byte with
  | none =>
    rw [last] at reads
    cases reads.2.symm.trans here
  | some written =>
    rw [last] at reads
    obtain ⟨-, owner, same, stored⟩ := reads
    obtain rfl := Option.some.inj (same.symm.trans here)
    exact (List.getElem?_eq_some_iff.mp stored).1

/-- An update that reports no change leaves the constants as they are. -/
theorem apply_unchanged (tracks : Tracks updates constants)
    (unchanged : (constants.apply u).1 = .ok false) : (constants.apply u).2 = constants := by
  by_cases accepted : u.Accepted
  · have settable := accepted.settable
    have inside : u.offset.toNat + u.data.bytes.length ≤ LENGTH := settable.inside
    have nonempty : 0 < u.data.bytes.length := settable.nonempty
    rw [apply_accepted accepted] at unchanged ⊢
    obtain ⟨bytes, owners, -, -, known⟩ := owner_spec constants u.layout.pushConstantRanges
    generalize constants.owner u.layout.pushConstantRanges = mine at bytes owners known unchanged ⊢
    obtain ⟨index, registered⟩ := mine
    have each := (unchanged_updateStages nodup_STAGES (Except.ok.inj unchanged)).2
    have same : ∀ stage, u.stages.has stage = true →
        Bytes.splice (registered.bytes stage) u.offset.toNat u.data.bytes = registered.bytes stage ∧
        ((registered.owners stage).drop u.offset.toNat).take u.data.bytes.length =
          List.replicate u.data.bytes.length (some index) := by
      intro stage has
      refine splice_of_differs ?_ (each stage (mem_STAGES stage) has)
      rw [owners, tracks.owners_length]
      exact inside
    have stored : registered = constants := by
      refine known.resolve_right fun fresh => ?_
      -- a new index would be the owner of the first byte, and owners are stored ranges
      obtain ⟨stage, has⟩ := ShaderStages.isEmpty_eq_false_iff.mp settable.staged
      have first := congrArg (fun list : List (Option Nat) => list[0]?) (same stage has).2
      simp only [List.getElem?_take_of_lt nonempty, List.getElem?_drop, Nat.add_zero,
        List.getElem?_replicate, if_pos nonempty] at first
      rw [owners] at first
      exact Nat.lt_irrefl _ (fresh ▸ tracks.owner_lt first)
    subst stored
    refine PushConstants.ext (funext fun stage => ?_) (funext fun stage => ?_)
      (layouts_updateStages ..)
    · rw [bytes_updateStages]
      split
      · rename_i has
        exact (same stage has).1
      · rfl
    · rw [owners_updateStages]
      split
      · rename_i has
        refine Bytes.splice_same ?_
        rw [List.length_replicate]
        exact (same stage has).2
      · rfl
  · exact apply_rejected accepted

end Runs

end PushConstants

end Vulkan

end Sgfx
