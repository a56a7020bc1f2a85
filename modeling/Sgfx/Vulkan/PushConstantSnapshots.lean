import Sgfx.Vulkan.PushConstantRuns

/-!
# Snapshots of push constants

A snapshot is cut into windows, each of which is inside a range of the layout or beside it.  So the
stages of a window are those that declare each of its bytes, and they have been written together
unless one of them has been written through other ranges.

## Main Definitions

* `lastValue`, `Covers`, `Gives`
* `Supplies` — what a snapshot gives
* `Conflicting` — when there is none

## Main Results

* `PushConstants.windowCommand_ok`, `PushConstants.windowCommand_error`
* `PushConstants.run_pushConstantLaw`
-/

namespace Sgfx.Vulkan

/-! ## What a snapshot gives -/

/-- The value that was written last to a byte of a stage, or zero. -/
def lastValue (updates : List PushUpdate) (stage : ShaderStage) (byte : Nat) : UInt8 :=
  ((lastWrite updates stage byte).map Prod.fst).getD 0

/-- The command sets a byte. -/
def Covers (c : OwnedCommand) (byte : Nat) : Prop :=
  ∃ stages offset data, c = .setPushConstants stages offset data ∧
    offset.toNat ≤ byte ∧ byte < offset.toNat + data.len

/-- The command sets a byte of a stage to a value. -/
def Gives (c : OwnedCommand) (stage : ShaderStage) (byte : Nat) (value : UInt8) : Prop :=
  ∃ stages offset data, c = .setPushConstants stages offset data ∧ stages.has stage = true ∧
    offset.toNat ≤ byte ∧ data.bytes[byte - offset.toNat]? = some value

/-- The commands are updates that the layout allows, which together set each byte that it declares
once, and give each stage what was written last to its bytes. -/
structure Supplies (updates : List PushUpdate) (layout : PipelineLayoutDesc)
    (commands : List OwnedCommand) : Prop where
  valid : ∀ c ∈ commands, ∃ stages offset data, c = .setPushConstants stages offset data ∧
    layout.validatePushConstants stages offset data.slice = .ok ()
  covers : ∀ byte, (∃ c ∈ commands, Covers c byte) ↔
    ∃ stage, Declares layout.pushConstantRanges stage byte
  once : commands.Pairwise fun c d => ∀ byte, ¬ (Covers c byte ∧ Covers d byte)
  gives : ∀ stage byte, Declares layout.pushConstantRanges stage byte →
    ∃ c ∈ commands, Gives c stage byte (lastValue updates stage byte)

/-- A declared byte was written last through other ranges, or with different values by two stages
that declare it. -/
def Conflicting (updates : List PushUpdate) (ranges : List PushConstantRange) : Prop :=
  (∃ stage byte value ranges', Declares ranges stage byte ∧
    lastWrite updates stage byte = some (value, ranges') ∧ ranges' ≠ ranges) ∨
  ∃ stage stage' byte value value' ranges₁ ranges₂,
    Declares ranges stage byte ∧ Declares ranges stage' byte ∧
    lastWrite updates stage byte = some (value, ranges₁) ∧
    lastWrite updates stage' byte = some (value', ranges₂) ∧ value ≠ value'

namespace PushConstants

/-! ## Windows -/

section Windows

variable {ranges : List PushConstantRange} {range : PushConstantRange} {window : Nat × Nat}
  {stage : ShaderStage}

theorem sorted_boundaries (ranges : List PushConstantRange) :
    (boundaries ranges).Pairwise (· < ·) :=
  pairwise_cuts _

theorem mem_boundaries (member : range ∈ ranges) :
    range.offset.toNat ∈ boundaries ranges ∧ stop range ∈ boundaries ranges := by
  unfold boundaries
  rw [mem_cuts, mem_cuts, List.mem_flatMap, List.mem_flatMap]
  exact ⟨⟨range, member, List.mem_cons_self⟩,
    ⟨range, member, List.mem_cons_of_mem _ List.mem_cons_self⟩⟩

/-- Ranges start and end at words inside the arrays. -/
theorem boundary_spec {boundary : Nat} (h : boundary ∈ boundaries ranges) :
    boundary % 4 = 0 ∧ boundary ≤ LENGTH := by
  unfold boundaries at h
  rw [mem_cuts, List.mem_flatMap] at h
  obtain ⟨range, -, h⟩ := h
  obtain ⟨-, -, offset, size, inside⟩ := range.valid
  rw [aligned32] at offset size
  have inside : range.offset.toNat + range.size.toNat ≤ LENGTH := inside
  rcases List.mem_cons.mp h with rfl | h
  · exact ⟨offset, by omega⟩
  · obtain rfl := List.mem_singleton.mp h
    unfold stop
    exact ⟨by omega, inside⟩

/-- A window that meets a range is inside it. -/
theorem inside_of_meets (hwindow : window ∈ windows (boundaries ranges)) (member : range ∈ ranges)
    (low : range.offset.toNat < window.2) (high : window.1 < stop range) :
    range.offset.toNat ≤ window.1 ∧ window.2 ≤ stop range := by
  obtain ⟨first, last⟩ := mem_boundaries member
  have start := beside_of_mem_windows (sorted_boundaries ranges) hwindow first
  have stop := beside_of_mem_windows (sorted_boundaries ranges) hwindow last
  omega

theorem has_foldl_union (inside : PushConstantRange → Prop) [DecidablePred inside]
    (stages : ShaderStages) :
    (ranges.foldl (fun stages range => if inside range then stages.union range.stages else stages)
      stages).has stage = true ↔
      stages.has stage = true ∨ ∃ range ∈ ranges, inside range ∧ range.stages.has stage = true := by
  induction ranges generalizing stages with
  | nil => exact ⟨.inl, fun h => h.resolve_right fun ⟨_, absent, _⟩ => List.not_mem_nil absent⟩
  | cons range rest ih =>
    rw [List.foldl_cons, ih, List.exists_mem_cons_iff, ← or_assoc]
    refine or_congr_left ?_
    split
    · rename_i here
      rw [ShaderStages.has_union, Bool.or_eq_true, and_iff_right here]
    · rename_i missing
      exact ⟨.inl, fun h => h.resolve_right fun both => missing both.1⟩

theorem has_windowStages : (windowStages ranges window).has stage = true ↔
    ∃ range ∈ ranges, (range.offset.toNat ≤ window.1 ∧ window.2 ≤ stop range) ∧
      range.stages.has stage = true := by
  unfold windowStages
  rw [has_foldl_union]
  refine ⟨fun h => h.resolve_left fun absent => ?_, .inr⟩
  cases stage with
  | vertex => cases absent
  | fragment => cases absent
  | compute => cases absent

/-- The stages of a window are those that declare a byte of it. -/
theorem declares_iff_has (hwindow : window ∈ windows (boundaries ranges)) {byte : Nat}
    (low : window.1 ≤ byte) (high : byte < window.2) :
    Declares ranges stage byte ↔ (windowStages ranges window).has stage = true := by
  rw [has_windowStages]
  constructor
  · rintro ⟨range, member, has, first, last⟩
    exact ⟨range, member, inside_of_meets hwindow member (Nat.lt_of_le_of_lt first high)
      (Nat.lt_of_le_of_lt low last), has⟩
  · rintro ⟨range, member, ⟨first, last⟩, has⟩
    exact ⟨range, member, has, Nat.le_trans first low, Nat.lt_of_lt_of_le high last⟩

/-- A declared byte is in a window. -/
theorem exists_window {byte : Nat} (declared : Declares ranges stage byte) :
    ∃ window ∈ windows (boundaries ranges), window.1 ≤ byte ∧ byte < window.2 := by
  obtain ⟨range, member, -, low, high⟩ := declared
  obtain ⟨first, last⟩ := mem_boundaries member
  exact exists_mem_windows (sorted_boundaries ranges) first last low high

/-- The stages of a window may be set there. -/
theorem settable_window (hwindow : window ∈ windows (boundaries ranges))
    (staged : (windowStages ranges window).isEmpty = false) :
    Settable ranges (windowStages ranges window) window.1 (window.2 - window.1) := by
  have order := lt_of_mem_windows (sorted_boundaries ranges) hwindow
  obtain ⟨first, last⟩ := mem_of_mem_windows hwindow
  have start := boundary_spec first
  have stop := boundary_spec last
  have whole : window.1 + (window.2 - window.1) = window.2 := Nat.add_sub_cancel' (Nat.le_of_lt order)
  refine ⟨staged, Nat.sub_pos_of_lt order, ⟨start.1, by omega⟩, by omega, ?_, ?_⟩
  · intro stage has
    obtain ⟨range, member, ⟨low, high⟩, has⟩ := has_windowStages.mp has
    exact ⟨range, member, has, low, whole.symm ▸ high⟩
  · intro range member high low
    rw [whole] at low
    have inside := inside_of_meets hwindow member low high
    exact ShaderStages.contains_of_has fun stage has => has_windowStages.mpr ⟨range, member, inside, has⟩

end Windows

/-! ## Gathering -/

section Gathering

variable {updates : List PushUpdate} {constants : PushConstants} {ranges : List PushConstantRange}
  {start length : Nat} {found found' : Gathered UInt8} {at' : ShaderStage × Nat}
  {visited : List (ShaderStage × Nat)} {failure : VkResult}

/-- The written values at some places, by their distances from the start. -/
def noted (updates : List PushUpdate) (start : Nat) (visited : List (ShaderStage × Nat)) :
    List (Nat × UInt8) :=
  visited.filterMap fun place =>
    (lastWrite updates place.1 place.2).map fun written => (place.2 - start, written.1)

theorem mem_noted {entry : Nat × UInt8} : entry ∈ noted updates start visited ↔
    ∃ place ∈ visited, ∃ ranges', lastWrite updates place.1 place.2 = some (entry.2, ranges') ∧
      place.2 - start = entry.1 := by
  unfold noted
  rw [List.mem_filterMap]
  constructor
  · rintro ⟨place, member, h⟩
    obtain ⟨written, last, rfl⟩ := Option.map_eq_some_iff.mp h
    exact ⟨place, member, written.2, last, rfl⟩
  · rintro ⟨place, member, ranges', last, same⟩
    refine ⟨place, member, Option.map_eq_some_iff.mpr ⟨_, last, ?_⟩⟩
    rw [same]

/-- Nothing is gathered where nothing has been written. -/
theorem gather_unwritten (tracks : Tracks updates constants)
    (last : lastWrite updates at'.1 at'.2 = none) :
    constants.gather ranges start found at' = .ok found := by
  have reads := tracks.reads at'.1 at'.2
  rw [last] at reads
  unfold gather
  rw [reads.2]

/-- What has been written is noted, if it was written through the ranges. -/
theorem gather_written (tracks : Tracks updates constants) {value : UInt8}
    {ranges' : List PushConstantRange}
    (last : lastWrite updates at'.1 at'.2 = some (value, ranges')) :
    constants.gather ranges start found at' =
      (failIf (ranges' ≠ ranges) VkResult.errorInitializationFailed >>= fun _ =>
        found.note .errorInitializationFailed (at'.2 - start) value) := by
  have reads := tracks.reads at'.1 at'.2
  rw [last] at reads
  obtain ⟨here, owner, owned, stored⟩ := reads
  unfold gather
  simp only [owned, here, stored]
  by_cases same : ranges' = ranges
  · rw [failIf, failIf, if_neg (not_not_intro same), if_neg (not_not_intro (congrArg some same))]
  · rw [failIf, failIf, if_pos same, if_pos fun h => same (Option.some.inj h)]

/-- What was noted has been written through the ranges. -/
structure Gathers (updates : List PushUpdate) (ranges : List PushConstantRange) (start length : Nat)
    (visited : List (ShaderStage × Nat)) (found : Gathered UInt8) : Prop where
  holds : found.Holds 0 length (noted updates start visited)
  through : ∀ place ∈ visited, ∀ value ranges',
    lastWrite updates place.1 place.2 = some (value, ranges') → ranges' = ranges

theorem Gathers.gather (tracks : Tracks updates constants)
    (h : Gathers updates ranges start length visited found) (inside : at'.2 - start < length)
    (ok : constants.gather ranges start found at' = .ok found') :
    Gathers updates ranges start length (visited ++ [at']) found' := by
  have entries : noted updates start (visited ++ [at']) = noted updates start visited ++
      noted updates start [at'] := List.filterMap_append
  cases last : lastWrite updates at'.1 at'.2 with
  | none =>
    rw [gather_unwritten tracks last] at ok
    cases ok
    have none : noted updates start [at'] = [] := by
      unfold noted
      rw [List.filterMap_cons_none (by rw [last]; rfl), List.filterMap_nil]
    refine ⟨?_, fun place member value ranges' written => ?_⟩
    · rw [entries, none, List.append_nil]
      exact h.holds
    · rcases List.mem_append.mp member with member | member
      · exact h.through place member value ranges' written
      · obtain rfl := List.mem_singleton.mp member
        cases last.symm.trans written
  | some written =>
    obtain ⟨value, ranges'⟩ := written
    rw [gather_written tracks last, except_bind_eq_ok] at ok
    obtain ⟨_, same, ok⟩ := ok
    have same : ranges' = ranges := Decidable.not_not.mp (failIf_eq_ok.mp same)
    have one : noted updates start [at'] = [(at'.2 - start, value)] := by
      unfold noted
      rw [List.filterMap_cons_some (by rw [last]; rfl), List.filterMap_nil]
    refine ⟨?_, fun place member value' ranges'' written => ?_⟩
    · rw [entries, one]
      exact h.holds.note inside ok
    · rcases List.mem_append.mp member with member | member
      · exact h.through place member value' ranges'' written
      · obtain rfl := List.mem_singleton.mp member
        cases last.symm.trans written
        exact same

/-- The places that a window visits are gathered. -/
theorem gathers_foldlM (tracks : Tracks updates constants)
    (inside : ∀ place ∈ visited, place.2 - start < length)
    (ok : visited.foldlM (constants.gather ranges start) (.blank 0 length) = .ok found) :
    Gathers updates ranges start length visited found := by
  refine foldlM_ok (fun done found => (∀ place ∈ done, place.2 - start < length) →
    Gathers updates ranges start length done found) ?_ ?_ ok inside
  · intro _
    exact ⟨Gathered.holds_blank, fun place member => (List.not_mem_nil member).elim⟩
  · intro done place found found' ih ok inside
    refine (ih fun other member => inside other (List.mem_append_left _ member)).gather tracks ?_ ok
    exact inside place (List.mem_append_right _ List.mem_cons_self)

/-- Gathering fails at a place that was written through other ranges, or with another value than a
place visited before. -/
theorem foldlM_gather_error (tracks : Tracks updates constants)
    (inside : ∀ place ∈ visited, place.2 - start < length)
    (failed : visited.foldlM (constants.gather ranges start) (.blank 0 length) = .error failure) :
    ∃ place ∈ visited, ∃ value ranges',
      lastWrite updates place.1 place.2 = some (value, ranges') ∧
      (ranges' ≠ ranges ∨ ∃ other ∈ visited, ∃ value' ranges'',
        lastWrite updates other.1 other.2 = some (value', ranges'') ∧
        other.2 - start = place.2 - start ∧ value' ≠ value) := by
  obtain ⟨done, place, rest, mid, rfl, reached, failed⟩ := foldlM_error failed
  have here : place ∈ done ++ place :: rest := List.mem_append_right _ List.mem_cons_self
  have gathers := gathers_foldlM tracks
    (fun other member => inside other (List.mem_append_left _ member)) reached
  cases last : lastWrite updates place.1 place.2 with
  | none =>
    rw [gather_unwritten tracks last] at failed
    cases failed
  | some written =>
    obtain ⟨value, ranges'⟩ := written
    refine ⟨place, here, value, ranges', last, ?_⟩
    rw [gather_written tracks last, except_bind_eq_error] at failed
    rcases failed with failed | ⟨_, -, failed⟩
    · exact .inl (failIf_eq_error.mp failed).1
    · obtain ⟨-, value', member, different⟩ := gathers.holds.note_error (inside place here) failed
      obtain ⟨other, hother, ranges'', written, same⟩ := mem_noted.mp member
      exact .inr ⟨other, List.mem_append_left _ hother, value', ranges'', written, same, different⟩

end Gathering

/-! ## Commands -/

section Commands

variable {place : Placement} {updates : List PushUpdate} {constants : PushConstants}
  {ranges : List PushConstantRange} {window : Nat × Nat} {failure : VkResult}

theorem mem_places {stages : ShaderStages} {entry : ShaderStage × Nat} :
    entry ∈ places stages window ↔
      stages.has entry.1 = true ∧ window.1 ≤ entry.2 ∧ entry.2 < window.2 := by
  unfold places
  rw [List.mem_flatMap]
  constructor
  · rintro ⟨stage, hstage, h⟩
    obtain ⟨byte, hbyte, rfl⟩ := List.mem_map.mp h
    rw [List.mem_range'_1] at hbyte
    exact ⟨(List.mem_filter.mp hstage).2, by omega⟩
  · rintro ⟨has, low, high⟩
    refine ⟨entry.1, List.mem_filter.mpr ⟨mem_STAGES _, has⟩, List.mem_map.mpr ⟨entry.2, ?_, rfl⟩⟩
    rw [List.mem_range'_1]
    omega

/-- What the command of a window gives. -/
structure Filled (updates : List PushUpdate) (ranges : List PushConstantRange) (window : Nat × Nat)
    (bytes : List UInt8) : Prop where
  length : bytes.length = window.2 - window.1
  through : ∀ stage byte, window.1 ≤ byte → byte < window.2 → Declares ranges stage byte →
    ∀ value ranges', lastWrite updates stage byte = some (value, ranges') → ranges' = ranges
  value : ∀ stage byte, window.1 ≤ byte → byte < window.2 → Declares ranges stage byte →
    bytes[byte - window.1]? = some (lastValue updates stage byte)

theorem filled_of_gathers (hwindow : window ∈ windows (boundaries ranges)) {found : Gathered UInt8}
    (h : Gathers updates ranges window.1 (window.2 - window.1)
      (places (windowStages ranges window) window) found) : Filled updates ranges window found.values := by
  refine ⟨h.holds.values_length, ?_, ?_⟩
  · intro stage byte low high declared
    have has := (declares_iff_has hwindow low high).mp declared
    exact h.through (stage, byte) (mem_places.mpr ⟨has, low, high⟩)
  · intro stage byte low high declared
    have has := (declares_iff_has hwindow low high).mp declared
    have here : (stage, byte) ∈ places (windowStages ranges window) window :=
      mem_places.mpr ⟨has, low, high⟩
    unfold lastValue
    cases last : lastWrite updates stage byte with
    | some written =>
      exact h.holds.value _ _ (mem_noted.mpr ⟨(stage, byte), here, written.2, last, rfl⟩)
    | none =>
      -- another stage that had written would have been written together with this one
      refine h.holds.initial _ (by omega) fun value member => ?_
      obtain ⟨other, hother, ranges', written, same⟩ := mem_noted.mp member
      obtain ⟨-, first, -⟩ := mem_places.mp hother
      have byteSame : other.2 = byte := by
        have same : other.2 - window.1 = byte - window.1 := same
        omega
      have through := h.through other hother _ _ written
      rw [byteSame] at written
      obtain ⟨value', ranges'', both, -⟩ := coherent_lastWrite updates written (through ▸ declared)
      cases last.symm.trans both

theorem places_inside {entry : ShaderStage × Nat}
    (member : entry ∈ places (windowStages ranges window) window) :
    entry.2 - window.1 < window.2 - window.1 := by
  obtain ⟨-, low, high⟩ := mem_places.mp member
  omega

/-- A window without stages has no command, and that of any other one has what was written. -/
theorem windowCommand_ok (tracks : Tracks updates constants)
    (hwindow : window ∈ windows (boundaries ranges)) {made : Option OwnedCommand}
    (ok : windowCommand place constants ranges window = .ok made) :
    (made = none ∧ (windowStages ranges window).isEmpty = true) ∨
      ∃ data, made = some (.setPushConstants (windowStages ranges window) (.ofNat window.1) data) ∧
        (windowStages ranges window).isEmpty = false ∧ Filled updates ranges window data.bytes := by
  unfold windowCommand at ok
  dsimp only at ok
  split at ok
  · rename_i empty
    exact .inl ⟨(Except.ok.inj ok).symm, empty⟩
  · rename_i staged
    rw [except_bind_eq_ok] at ok
    obtain ⟨found, gathered, ok⟩ := ok
    rw [except_bind_eq_ok] at ok
    obtain ⟨data, hdata, ok⟩ := ok
    have bytes : data.bytes = found.values := by
      rw [mapFailure_eq_ok, newPayload] at hdata
      split at hdata
      · cases hdata
        rfl
      · cases hdata
    refine .inr ⟨data, (Except.ok.inj ok).symm, Bool.eq_false_iff.mpr staged, ?_⟩
    rw [bytes]
    exact filled_of_gathers hwindow (gathers_foldlM tracks (fun _ => places_inside) gathered)

/-- The command of a window cannot be made only when stages conflict there. -/
theorem windowCommand_error (tracks : Tracks updates constants)
    (hwindow : window ∈ windows (boundaries ranges))
    (failed : windowCommand place constants ranges window = .error failure) :
    Conflicting updates ranges := by
  have declares : ∀ entry ∈ places (windowStages ranges window) window,
      Declares ranges entry.1 entry.2 := by
    intro entry member
    obtain ⟨has, low, high⟩ := mem_places.mp member
    exact (declares_iff_has hwindow low high).mpr has
  unfold windowCommand at failed
  dsimp only at failed
  split at failed
  · cases failed
  · rw [except_bind_eq_error] at failed
    rcases failed with failed | ⟨found, gathered, failed⟩
    · obtain ⟨first, hfirst, value, ranges', written, reason⟩ :=
        foldlM_gather_error tracks (fun _ => places_inside) failed
      rcases reason with other | ⟨second, hsecond, value', ranges'', written', same, different⟩
      · exact .inl ⟨_, _, value, ranges', declares first hfirst, written, other⟩
      · have byteSame : second.2 = first.2 := by
          obtain ⟨-, low, -⟩ := mem_places.mp hfirst
          obtain ⟨-, low', -⟩ := mem_places.mp hsecond
          omega
        have declared := declares second hsecond
        rw [byteSame] at declared written'
        exact .inr ⟨_, _, _, _, _, _, _, declared, declares first hfirst, written', written, different⟩
    · -- the bytes of a window always have a place
      have length := (gathers_foldlM tracks (fun _ => places_inside) gathered).holds.values_length
      have stop := (boundary_spec (mem_of_mem_windows hwindow).2).2
      have small : found.values.length < 2 ^ 63 := by
        rw [length]
        exact Nat.lt_of_le_of_lt (Nat.le_trans (Nat.sub_le ..) stop) (by decide)
      rw [newPayload, dif_pos small] at failed
      cases failed

end Commands

/-! ## Snapshots -/

section Snapshots

variable {place : Placement} {updates : List PushUpdate} {constants : PushConstants}
  {layout : PipelineLayoutDesc} {commands : List OwnedCommand} {window : Nat × Nat}

/-- The commands of a snapshot are those of its windows. -/
theorem mem_snapshot (ok : constants.snapshot place layout = .ok commands) {c : OwnedCommand} :
    c ∈ commands ↔ ∃ window ∈ windows (boundaries layout.pushConstantRanges),
      windowCommand place constants layout.pushConstantRanges window = .ok (some c) := by
  unfold snapshot at ok
  rw [except_bind_eq_ok] at ok
  obtain ⟨made, hmade, ok⟩ := ok
  cases ok
  rw [List.mem_filterMap]
  constructor
  · rintro ⟨result, member, rfl⟩
    exact mapM_ok_mem hmade _ member
  · rintro ⟨window, member, h⟩
    obtain ⟨result, hresult, same⟩ := mapM_mem_ok hmade window member
    cases h.symm.trans same
    exact ⟨some c, hresult, rfl⟩

/-- A window starts where its command does. -/
theorem toNat_window (hwindow : window ∈ windows (boundaries layout.pushConstantRanges)) :
    (UInt32.ofNat window.1).toNat = window.1 := by
  have start := (boundary_spec (mem_of_mem_windows hwindow).1).2
  exact UInt32.toNat_ofNat_of_lt' (Nat.lt_of_le_of_lt start (by decide))

/-- The command of a window covers it. -/
theorem covers_windowCommand (tracks : Tracks updates constants)
    (hwindow : window ∈ windows (boundaries layout.pushConstantRanges)) {c : OwnedCommand}
    (ok : windowCommand place constants layout.pushConstantRanges window = .ok (some c)) (byte : Nat) :
    Covers c byte ↔ window.1 ≤ byte ∧ byte < window.2 := by
  have order := lt_of_mem_windows (sorted_boundaries layout.pushConstantRanges) hwindow
  obtain ⟨absent, -⟩ | ⟨data, same, -, filled⟩ := windowCommand_ok tracks hwindow ok
  · cases absent
  · cases same
    have start := toNat_window hwindow
    have stop : window.1 + data.len = window.2 := by
      rw [Payload.len, filled.length]
      omega
    constructor
    · rintro ⟨stages, offset, data', same, low, high⟩
      cases same
      rw [start] at low high
      exact ⟨low, stop ▸ high⟩
    · rintro ⟨low, high⟩
      refine ⟨_, _, data, rfl, ?_⟩
      rw [start, stop]
      exact ⟨low, high⟩

/-- A window with a declared byte has a command. -/
theorem exists_command (tracks : Tracks updates constants)
    (ok : constants.snapshot place layout = .ok commands) {stage : ShaderStage} {byte : Nat}
    (declared : Declares layout.pushConstantRanges stage byte) :
    ∃ window ∈ windows (boundaries layout.pushConstantRanges), window.1 ≤ byte ∧ byte < window.2 ∧
      ∃ data, .setPushConstants (windowStages layout.pushConstantRanges window) (.ofNat window.1) data ∈
        commands ∧ Filled updates layout.pushConstantRanges window data.bytes := by
  obtain ⟨window, hwindow, low, high⟩ := exists_window declared
  have has := (declares_iff_has hwindow low high).mp declared
  have staged := ShaderStages.isEmpty_eq_false_iff.mpr ⟨stage, has⟩
  refine ⟨window, hwindow, low, high, ?_⟩
  unfold snapshot at ok
  rw [except_bind_eq_ok] at ok
  obtain ⟨made, hmade, ok⟩ := ok
  cases ok
  obtain ⟨result, hresult, command⟩ := mapM_mem_ok hmade window hwindow
  obtain ⟨-, empty⟩ | ⟨data, rfl, -, filled⟩ := windowCommand_ok tracks hwindow command
  · exact Bool.noConfusion (staged.symm.trans empty)
  · exact ⟨data, List.mem_filterMap.mpr ⟨_, hresult, rfl⟩, filled⟩

theorem supplies_snapshot (tracks : Tracks updates constants)
    (ok : constants.snapshot place layout = .ok commands) : Supplies updates layout commands := by
  refine ⟨?_, ?_, ?_, ?_⟩
  · intro c member
    obtain ⟨window, hwindow, made⟩ := (mem_snapshot ok).mp member
    obtain ⟨absent, -⟩ | ⟨data, same, staged, filled⟩ := windowCommand_ok tracks hwindow made
    · cases absent
    · cases same
      refine ⟨_, _, data, rfl, validatePushConstants_eq_ok.mpr ?_⟩
      rw [toNat_window hwindow, Payload.slice_len, Payload.len, filled.length]
      exact settable_window hwindow staged
  · intro byte
    constructor
    · rintro ⟨c, member, covered⟩
      obtain ⟨window, hwindow, made⟩ := (mem_snapshot ok).mp member
      obtain ⟨low, high⟩ := (covers_windowCommand tracks hwindow made byte).mp covered
      obtain ⟨absent, -⟩ | ⟨data, -, staged, -⟩ := windowCommand_ok tracks hwindow made
      · cases absent
      · obtain ⟨stage, has⟩ := ShaderStages.isEmpty_eq_false_iff.mp staged
        exact ⟨stage, (declares_iff_has hwindow low high).mpr has⟩
    · rintro ⟨stage, declared⟩
      obtain ⟨window, hwindow, low, high, data, member, filled⟩ := exists_command tracks ok declared
      refine ⟨_, member, _, _, data, rfl, ?_⟩
      rw [toNat_window hwindow, Payload.len, filled.length]
      omega
  · unfold snapshot at ok
    rw [except_bind_eq_ok] at ok
    obtain ⟨made, hmade, ok⟩ := ok
    cases ok
    rw [List.pairwise_filterMap]
    have apart := pairwise_windows (sorted_boundaries layout.pushConstantRanges)
    refine mapM_pairwise hmade (List.Pairwise.and_mem.mp apart) ?_
    rintro v w first second ⟨hv, hw, order⟩ hfirst hsecond c rfl d rfl byte ⟨hc, hd⟩
    have before := ((covers_windowCommand tracks hv hfirst byte).mp hc).2
    have after := ((covers_windowCommand tracks hw hsecond byte).mp hd).1
    omega
  · intro stage byte declared
    obtain ⟨window, hwindow, low, high, data, member, filled⟩ := exists_command tracks ok declared
    have has := (declares_iff_has hwindow low high).mp declared
    have start := toNat_window hwindow
    refine ⟨_, member, _, _, data, rfl, has, ?_⟩
    rw [start]
    exact ⟨low, filled.value stage byte low high declared⟩

/-- A snapshot is made only when no stages conflict. -/
theorem not_conflicting_snapshot (tracks : Tracks updates constants)
    (ok : constants.snapshot place layout = .ok commands) :
    ¬ Conflicting updates layout.pushConstantRanges := by
  rintro (⟨stage, byte, value, ranges', declared, written, other⟩ |
    ⟨stage, stage', byte, value, value', ranges₁, ranges₂, declared, declared', written, written',
      different⟩)
  · obtain ⟨window, hwindow, low, high, data, -, filled⟩ := exists_command tracks ok declared
    exact other (filled.through stage byte low high declared value ranges' written)
  · obtain ⟨window, hwindow, low, high, data, -, filled⟩ := exists_command tracks ok declared
    have first := filled.value stage byte low high declared
    have second := filled.value stage' byte low high declared'
    have same := Option.some.inj (first.symm.trans second)
    unfold lastValue at same
    rw [written, written'] at same
    exact different same

theorem conflicting_snapshot (tracks : Tracks updates constants) {failure : VkResult}
    (failed : constants.snapshot place layout = .error failure) :
    Conflicting updates layout.pushConstantRanges := by
  unfold snapshot at failed
  rw [except_bind_eq_error] at failed
  rcases failed with failed | ⟨made, -, failed⟩
  · obtain ⟨window, hwindow, failed⟩ := mapM_error_mem failed
    exact windowCommand_error tracks hwindow failed
  · cases failed

end Snapshots

/-! ## The law -/

/-- What the constants give after any updates. -/
structure PushConstantLaw (place : Placement) (updates : List PushUpdate) : Prop where
  supplies : ∀ layout commands, (run updates).snapshot place layout = .ok commands →
    Supplies updates layout commands
  fails : ∀ layout, (∃ failure, (run updates).snapshot place layout = .error failure) ↔
    Conflicting updates layout.pushConstantRanges
  unchanged : ∀ u, ((run updates).apply u).1 = .ok false →
    ∀ layout, ((run updates).apply u).2.snapshot place layout = (run updates).snapshot place layout

/-- After any updates, a snapshot for any layout gives each stage what was written last, unless some
stages conflict, and an update that reports no change does not change any snapshot. -/
theorem run_pushConstantLaw (place : Placement) (updates : List PushUpdate) :
    PushConstantLaw place updates where
  supplies := fun _ _ ok => supplies_snapshot (tracks_run updates) ok
  fails := by
    intro layout
    constructor
    · rintro ⟨failure, failed⟩
      exact conflicting_snapshot (tracks_run updates) failed
    · intro conflicting
      cases made : (run updates).snapshot place layout with
      | ok commands => exact absurd conflicting (not_conflicting_snapshot (tracks_run updates) made)
      | error failure => exact ⟨failure, rfl⟩
  unchanged := by
    intro u unchanged layout
    rw [apply_unchanged (tracks_run updates) unchanged]

end PushConstants

end Sgfx.Vulkan
