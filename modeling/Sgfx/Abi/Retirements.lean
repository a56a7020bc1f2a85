import Sgfx.Abi.MirrorCaches

/-!
# What a snapshot retires

Before a snapshot is applied, the identities that it retires are read off its generations
without decoding its rows, so that native caches can be freed.  They are those that the mirror
resolves before the snapshot and not after it.

## Main Definitions

* `scanRetired` — the retired slots of a section
* `abiRetiredResources`, `abiRetiredPrograms`
* `Exactly` — a list of the identities that stop resolving

## Main Results

* `syncSlots_scanned` — a section is scanned as it is applied
* `abiRetired_exact`
-/

namespace Sgfx.Abi

open Fallible

/-! ## Scans -/

section Scans

variable {α : Type}

/-- One turn of `scan_retired`. -/
def scanRow (slots : List (Slot α)) (index : Nat) : Reader UInt64 Error (List (Nat × UInt64)) := do
  let row ← readFrame
  let generation ← liftM (okOr row.head? Error.invalidDescriptor)
  match slots[index]? with
  | none => pure []
  | some old => do
    liftM (failIf (generation < old.generation) Error.invalidDescriptor)
    if old.descriptor.isSome ∧ generation ≠ old.generation then pure [(index, old.generation)]
    else pure []

/-- Some turns, from one index on. -/
def scanTurns (slots : List (Slot α)) :
    (count index : Nat) → Reader UInt64 Error (List (Nat × UInt64))
  | 0, _ => pure []
  | count + 1, index => do
    let first ← scanRow slots index
    let rest ← scanTurns slots count (index + 1)
    pure (first ++ rest)

/-- `scan_retired`: the slots, with the generations that are retired. -/
def scanRetired (slots : List (Slot α)) (maximum : Nat) :
    Reader UInt64 Error (List (Nat × UInt64)) := do
  let count ← usize.get
  liftM (failIf (count < slots.length ∨ maximum < count) Error.resourceLimitExceeded)
  scanTurns slots count 0

/-- Some rows of `skip_rows`. -/
def skipTurns : Nat → Reader UInt64 Error Unit
  | 0 => pure ()
  | count + 1 => do
    let _ ← readFrame
    skipTurns count

/-- `skip_rows`. -/
def skipRows (maximum : Nat) : Reader UInt64 Error Unit := do
  let count ← usize.get
  liftM (failIf (maximum < count) Error.resourceLimitExceeded)
  skipTurns count

end Scans

/-- The identities of retired slots. -/
def retiredIds (T : ResourceTable) (c : Category) (slots : List (Nat × UInt64)) : List (Id c) :=
  slots.map fun p => ⟨T.id, .ofNat p.1, p.2⟩

/-- The retired identities of one category. -/
def scanCategory (T : ResourceTable) (c : Category) : Reader UInt64 Error (List (Id c)) := do
  let slots ← scanRetired (T.pools c).slots c.maximum
  pure (retiredIds T c slots)

/-- `abi_retired_resources`, as a reader of the snapshot. -/
def readRetiredResources (T : ResourceTable) :
    Reader UInt64 Error (List TextureId × List BufferId) := do
  let magic ← word
  liftM (failIf (magic ≠ MAGIC ∧ magic ≠ LEGACY_MAGIC) Error.invalidDescriptor)
  let _ ← Reader.take 2 Error.invalidDescriptor
  let textures ← scanCategory T .texture
  let buffers ← scanCategory T .buffer
  pure (textures, buffers)

/-- `abi_retired_resources`. -/
def abiRetiredResources (T : ResourceTable) (words : List UInt64) :
    Except Error (List TextureId × List BufferId) := (readRetiredResources T words).1

/-- The three lists of retired programs. -/
abbrev RetiredPrograms :=
  List ShaderModuleId × List ComputePipelineId × List ProgrammableRenderPipelineId

/-- `abi_retired_programs`, as a reader of the snapshot. -/
def readRetiredPrograms (T : ResourceTable) : Reader UInt64 Error RetiredPrograms := do
  let magic ← word
  if magic = LEGACY_MAGIC then pure ([], [], [])
  else do
    liftM (failIf (magic ≠ MAGIC) Error.invalidDescriptor)
    let _ ← Reader.take 2 Error.invalidDescriptor
    skipRows Category.texture.maximum
    skipRows Category.buffer.maximum
    skipRows MAX_SAMPLERS
    skipRows MAX_RENDER_PIPELINES
    let shaders ← scanCategory T .shaderModule
    skipRows Category.bindGroup.maximum
    let compute ← scanCategory T .computePipeline
    let programmable ← scanCategory T .programmablePipeline
    let rest ← read
    liftM (failIf (rest ≠ []) Error.invalidDescriptor)
    pure (shaders, compute, programmable)

/-- `abi_retired_programs`. -/
def abiRetiredPrograms (T : ResourceTable) (words : List UInt64) : Except Error RetiredPrograms :=
  (readRetiredPrograms T words).1

/-! ## One row -/

section Rows

variable {α : Type} {encode : α → List UInt64} {get : Reader UInt64 Error α} {old slot : Slot α}
  {generation : UInt64} {row : List UInt64} {compared : Option Bool} {verdict : RowVerdict}

/-- A decoded slot has the generation of its row. -/
theorem decodeWhole_generation (h : decodeWhole (getSlot get) row = .ok slot) :
    row.head? = some slot.generation := by
  rw [decodeWhole_eq_ok] at h
  obtain ⟨generation, rest, hgeneration, htail⟩ := Fallible.bind_eq_ok.mp h
  clear h
  cases row with
  | nil => cases hgeneration
  | cons first row =>
    cases hgeneration
    obtain ⟨flag, rest, -, hrest⟩ := Fallible.bind_eq_ok.mp htail
    cases flag with
    | true =>
      obtain ⟨a, -, rfl⟩ := Fallible.bind_pure_eq_ok.mp hrest
      rfl
    | false =>
      cases hrest
      rfl

/-- Generations never go back, and a live slot is only decoded again for a later one. -/
theorem rowVerdict_ok (h : rowVerdict encode (some old) generation row compared = .ok verdict) :
    ¬ generation < old.generation ∧ (verdict ≠ .decode → generation = old.generation) ∧
      (verdict = .decode → old.descriptor.isSome = true → generation ≠ old.generation) := by
  unfold rowVerdict sameGeneration at h
  grind

end Rows

/-- A slot of this generation that is occupied. -/
def LiveAt {α : Type} (slots : List (Slot α)) (index : Nat) (generation : UInt64) : Prop :=
  ∃ slot, slots[index]? = some slot ∧ slot.generation = generation ∧ slot.descriptor.isSome = true

/-- What applying one row of a section does to the slots. -/
structure RowApplied {c : Category} (index : Nat) (generation : UInt64)
    (slots slots' : List (Slot (Descriptor c))) : Prop where
  others : ∀ i, i ≠ index → i < slots.length → slots'[i]? = slots[i]?
  length_le : slots.length ≤ slots'.length
  old : ∀ old, slots[index]? = some old → ¬ generation < old.generation ∧
    (old.descriptor.isSome = true →
      (LiveAt slots' index old.generation ↔ generation = old.generation))

section Sections

variable {C : Codecs} {c : Category} {index count : Nat} {s s' : Sync}

theorem putSlot_others {α : Type} {slots : List (Slot α)} {slot : Slot α} :
    slots.length ≤ (putSlot slots index slot).length := by
  unfold putSlot
  split
  · exact Nat.le_of_eq List.length_set.symm
  · rw [List.length_append]
    exact Nat.le_add_right ..

theorem decodeRow_ok {generation : UInt64} {row : List UInt64}
    (h : decodeRow C true c index generation row s = (.ok (), s')) :
    ∃ slot, row.head? = some slot.generation ∧
      s' = ⟨s.words, acceptRow true c index generation row
        (setSlots c (fun slots => putSlot slots index slot) s.table)⟩ := by
  unfold decodeRow at h
  rw [Fallible.read_bind_run] at h
  obtain ⟨slot, hdecoded, happly⟩ := Fallible.lift_bind_eq_ok.mp h
  exact ⟨slot, decodeWhole_generation hdecoded, (Prod.mk.inj happly).2.symm⟩

/-- One row is framed, and applied. -/
theorem syncRow_applied (h : syncRow C true c index s = (.ok (), s')) :
    ∃ row generation, readFrame s.words = (.ok row, s'.words) ∧ row.head? = some generation ∧
      SameBut c s.table s'.table ∧
      RowApplied index generation (s.table.pools c).slots (s'.table.pools c).slots := by
  obtain ⟨row, mid, hframe, hrest⟩ := Fallible.bind_eq_ok.mp h
  obtain ⟨rest, hread, rfl⟩ := Fallible.zoom_eq_ok.mp hframe
  obtain ⟨generation, hhead, hrest⟩ := Fallible.lift_bind_eq_ok.mp hrest
  rw [okOr_eq_ok] at hhead
  rw [Fallible.read_bind_run] at hrest
  obtain ⟨verdict, hverdict, happly⟩ := Fallible.lift_bind_eq_ok.mp hrest
  have hverdict : rowVerdict (C.put.slot c) (s.table.pools c).slots[index]? generation row
    (rowCompare (s.table.abi.acceptedRows c) index generation row) = .ok verdict := hverdict
  -- What leaves the slots as they are.
  have hsame : verdict ≠ .decode →
      RowApplied index generation (s.table.pools c).slots (s.table.pools c).slots := by
    intro hne
    refine ⟨fun _ _ _ => rfl, Nat.le_refl _, fun old hold => ?_⟩
    rw [hold] at hverdict
    obtain ⟨hle, hkept, -⟩ := rowVerdict_ok hverdict
    exact ⟨hle, fun hlive => iff_of_true ⟨old, hold, rfl, hlive⟩ (hkept hne)⟩
  cases verdict with
  | keep =>
    cases happly
    exact ⟨row, generation, hread, hhead, .refl _, hsame (by decide)⟩
  | remember =>
    obtain rfl : s' = ⟨rest, acceptRow true c index generation row s.table⟩ :=
      (Prod.mk.inj happly).2.symm
    refine ⟨row, generation, hread, hhead, sameBut_acceptRow true index generation row, ?_⟩
    dsimp only
    rw [acceptRow_pools]
    exact hsame (by decide)
  | decode =>
    obtain ⟨slot, hslot, rfl⟩ := decodeRow_ok happly
    rw [hhead, Option.some.injEq] at hslot
    have hframe : SameBut c s.table (acceptRow true c index generation row
        (setSlots c (fun slots => putSlot slots index slot) s.table)) :=
      (sameBut_setSlots _).trans (sameBut_acceptRow ..)
    refine ⟨row, generation, hread, hhead, hframe, ?_⟩
    dsimp only
    rw [acceptRow_pools, setSlots_slots]
    refine ⟨fun i hne hi => putSlot_ne hne hi, putSlot_others, fun old hold => ?_⟩
    rw [hold] at hverdict
    obtain ⟨hle, -, hdecode⟩ := rowVerdict_ok hverdict
    refine ⟨hle, fun hlive => iff_of_false ?_ (hdecode rfl hlive)⟩
    rintro ⟨new, hnew, hgeneration, -⟩
    obtain ⟨hlt, -⟩ := List.getElem?_eq_some_iff.mp hold
    rw [putSlot_self (Nat.le_of_lt hlt), Option.some.injEq] at hnew
    subst hnew
    exact hdecode rfl hlive (hslot.trans hgeneration)

end Sections

/-! ## Sections -/

/-- The slots of a range whose occupants are gone, in order. -/
structure Scanned {α : Type} (slots slots' : List (Slot α)) (low high : Nat)
    (found : List (Nat × UInt64)) : Prop where
  sorted : found.Pairwise fun p q => p.1 < q.1
  mem : ∀ i g, (i, g) ∈ found ↔ low ≤ i ∧ i < high ∧ LiveAt slots i g ∧ ¬ LiveAt slots' i g

/-- What one row of a scan finds. -/
def foundAt {α : Type} (old : Option (Slot α)) (index : Nat) (generation : UInt64) :
    List (Nat × UInt64) :=
  match old with
  | none => []
  | some old =>
    if old.descriptor.isSome ∧ generation ≠ old.generation then [(index, old.generation)] else []

section Scans

variable {α : Type} {slots slots' : List (Slot α)} {index : Nat} {generation : UInt64}
  {row words rest : List UInt64}

theorem scanRow_run (hread : readFrame words = (.ok row, rest)) (hhead : row.head? = some generation)
    (hle : ∀ old, slots[index]? = some old → ¬ generation < old.generation) :
    scanRow slots index words = (.ok (foundAt slots[index]? index generation), rest) := by
  refine Fallible.bind_eq_ok.mpr ⟨row, rest, hread, Fallible.lift_bind_eq_ok.mpr
    ⟨generation, okOr_eq_ok.mpr hhead, ?_⟩⟩
  cases hold : slots[index]? with
  | none => rfl
  | some old =>
    refine Fallible.lift_bind_eq_ok.mpr ⟨(), failIf_eq_ok.mpr (hle old hold), ?_⟩
    rw [foundAt]
    split <;> rfl

/-- What one row finds is the occupant that is gone. -/
theorem mem_foundAt {i : Nat} {g : UInt64}
    (hold : ∀ old, slots[index]? = some old → old.descriptor.isSome = true →
      (LiveAt slots' index old.generation ↔ generation = old.generation)) :
    (i, g) ∈ foundAt slots[index]? index generation ↔
      i = index ∧ LiveAt slots i g ∧ ¬ LiveAt slots' i g := by
  cases hslot : slots[index]? with
  | none =>
    refine iff_of_false List.not_mem_nil ?_
    rintro ⟨rfl, ⟨slot, hsome, -⟩, -⟩
    rw [hslot] at hsome
    cases hsome
  | some old =>
    have holdLive := hold old hslot
    rw [foundAt]
    split
    · rename_i hgone
      rw [List.mem_singleton, Prod.mk.injEq]
      constructor
      · rintro ⟨rfl, rfl⟩
        exact ⟨rfl, ⟨old, hslot, rfl, hgone.1⟩, fun hlive => hgone.2 ((holdLive hgone.1).mp hlive)⟩
      · rintro ⟨rfl, ⟨slot, hsome, hgeneration, -⟩, -⟩
        rw [hslot, Option.some.injEq] at hsome
        exact ⟨rfl, hsome ▸ hgeneration.symm⟩
    · rename_i hkept
      refine iff_of_false List.not_mem_nil ?_
      rintro ⟨rfl, ⟨slot, hsome, rfl, hlive⟩, hgone⟩
      rw [hslot, Option.some.injEq] at hsome
      subst hsome
      rw [not_and, not_not] at hkept
      exact hgone ((holdLive hlive).mpr (hkept hlive))

end Scans

section Sections

variable {C : Codecs} {c : Category} {index count : Nat} {s s' : Sync}

/-- The rest of a section is scanned as it is applied.  The induction is on the rows that are left:
those before the index are not touched any more, and those from it on are as they were. -/
theorem turns_scanned {slots : List (Slot (Descriptor c))}
    (h : turns (syncRow C true c) count index s = (.ok (), s'))
    (hsame : ∀ i, index ≤ i → i < slots.length → (s.table.pools c).slots[i]? = slots[i]?)
    (hlength : slots.length ≤ (s.table.pools c).slots.length) :
    SameBut c s.table s'.table ∧
      (∀ i, i < index → i < (s.table.pools c).slots.length →
        (s'.table.pools c).slots[i]? = (s.table.pools c).slots[i]?) ∧
      skipTurns count s.words = (.ok (), s'.words) ∧
      ∃ found, scanTurns slots count index s.words = (.ok found, s'.words) ∧
        Scanned slots (s'.table.pools c).slots index (index + count) found := by
  induction count generalizing index s with
  | zero =>
    cases h
    refine ⟨.refl _, fun _ _ _ => rfl, rfl, [], rfl, List.Pairwise.nil, fun i g => ?_⟩
    refine iff_of_false List.not_mem_nil ?_
    rintro ⟨hle, hlt, -⟩
    omega
  | succ count ih =>
    obtain ⟨⟨⟩, mid, hrow, hrest⟩ := Fallible.bind_eq_ok.mp h
    obtain ⟨row, generation, hread, hhead, hframe, happlied⟩ := syncRow_applied hrow
    obtain ⟨hothers, hgrows, hold⟩ := happlied
    have hstart : ∀ old, slots[index]? = some old → (s.table.pools c).slots[index]? = some old := by
      intro old hslot
      obtain ⟨hlt, -⟩ := List.getElem?_eq_some_iff.mp hslot
      rw [hsame index (Nat.le_refl _) hlt, hslot]
    obtain ⟨hframe', hbefore, hskip, found, hscan, hfound⟩ := ih hrest
      (fun i hi hlt => (hothers i (by omega) (by omega)).trans (hsame i (by omega) hlt))
      (Nat.le_trans hlength hgrows)
    have hindex : ∀ old, slots[index]? = some old → ∀ g,
        LiveAt (s'.table.pools c).slots index g ↔ LiveAt (mid.table.pools c).slots index g := by
      intro old hslot g
      obtain ⟨hlt, -⟩ := List.getElem?_eq_some_iff.mp hslot
      rw [LiveAt, LiveAt, hbefore index (Nat.lt_succ_self _) (by omega)]
    have hmem := fun i g => @mem_foundAt _ slots (s'.table.pools c).slots index generation i g
      fun old hslot hlive => (hindex old hslot _).trans ((hold old (hstart old hslot)).2 hlive)
    refine ⟨hframe.trans hframe', fun i hi hlt => ?_, ?_, ?_⟩
    · rw [hbefore i (by omega) (by omega), hothers i (by omega) hlt]
    · exact Fallible.bind_eq_ok.mpr ⟨row, mid.words, hread, hskip⟩
    · refine ⟨foundAt slots[index]? index generation ++ found, ?_, ?_, fun i g => ?_⟩
      · refine Fallible.bind_eq_ok.mpr ⟨_, mid.words,
          scanRow_run hread hhead fun old hslot => (hold old (hstart old hslot)).1, ?_⟩
        exact Fallible.bind_eq_ok.mpr ⟨found, s'.words, hscan, rfl⟩
      · refine List.pairwise_append.mpr ⟨?_, hfound.sorted, ?_⟩
        · unfold foundAt
          split
          · exact List.Pairwise.nil
          · split
            · exact List.pairwise_singleton _ _
            · exact List.Pairwise.nil
        · rintro ⟨i, g⟩ hi ⟨j, k⟩ hj
          have hfirst := ((hmem i g).mp hi).1
          have hlater := ((hfound.mem j k).mp hj).1
          show i < j
          omega
      · rw [List.mem_append, hmem, hfound.mem]
        constructor
        · rintro (⟨rfl, hlive, hgone⟩ | ⟨hle, hlt, hlive, hgone⟩)
          · exact ⟨Nat.le_refl _, by omega, hlive, hgone⟩
          · exact ⟨by omega, by omega, hlive, hgone⟩
        · rintro ⟨hle, hlt, hlive, hgone⟩
          rcases Nat.eq_or_lt_of_le hle with rfl | hlater
          · exact .inl ⟨rfl, hlive, hgone⟩
          · exact .inr ⟨hlater, by omega, hlive, hgone⟩

theorem readCount_ok {existing maximum : Nat} (h : readCount existing maximum s = (.ok count, s')) :
    usize.get s.words = (.ok count, s'.words) ∧ s'.table = s.table ∧ existing ≤ count ∧
      count ≤ maximum := by
  obtain ⟨count', mid, hread, hrest⟩ := Fallible.bind_eq_ok.mp h
  obtain ⟨rest, hword, rfl⟩ := Fallible.zoom_eq_ok.mp hread
  obtain ⟨_, hbounds, hpure⟩ := Fallible.lift_bind_eq_ok.mp hrest
  rw [failIf_eq_ok, not_or, Nat.not_lt, Nat.not_lt] at hbounds
  cases hpure
  exact ⟨hword, rfl, hbounds⟩

/-- A section is skipped and scanned as it is applied. -/
structure SectionScanned (c : Category) (s s' : Sync) : Prop where
  frame : SameBut c s.table s'.table
  small : (s.table.pools c).slots.length ≤ c.maximum
  skip : skipRows c.maximum s.words = (.ok (), s'.words)
  scan : ∃ found, scanRetired (s.table.pools c).slots c.maximum s.words = (.ok found, s'.words) ∧
    found.Pairwise (fun p q => p.1 < q.1) ∧ ∀ i g, (i, g) ∈ found ↔
      LiveAt (s.table.pools c).slots i g ∧ ¬ LiveAt (s'.table.pools c).slots i g

theorem syncSlots_scanned (h : syncSlots C true c s = (.ok (), s')) : SectionScanned c s s' := by
  unfold syncSlots at h
  rw [Fallible.read_bind_run] at h
  obtain ⟨count, mid, hcount, hturns⟩ := Fallible.bind_eq_ok.mp h
  obtain ⟨hword, htable, hexisting, hmaximum⟩ := readCount_ok hcount
  obtain ⟨hframe, -, hskip, found, hscan, hfound⟩ := turns_scanned hturns
    (fun _ _ _ => rfl) (Nat.le_refl _)
  rw [htable] at hframe hscan hfound
  refine ⟨hframe, Nat.le_trans hexisting hmaximum, ?_, found, ?_, hfound.sorted, fun i g => ?_⟩
  · refine Fallible.bind_eq_ok.mpr ⟨count, mid.words, hword, Fallible.lift_bind_eq_ok.mpr
      ⟨(), failIf_eq_ok.mpr (Nat.not_lt.mpr hmaximum), hskip⟩⟩
  · refine Fallible.bind_eq_ok.mpr ⟨count, mid.words, hword, Fallible.lift_bind_eq_ok.mpr
      ⟨(), failIf_eq_ok.mpr ?_, hscan⟩⟩
    rw [not_or, Nat.not_lt, Nat.not_lt]
    exact ⟨hexisting, hmaximum⟩
  · rw [hfound.mem]
    constructor
    · exact fun h => h.2.2
    · intro h
      obtain ⟨slot, hslot, -⟩ := h.1
      obtain ⟨hlt, -⟩ := List.getElem?_eq_some_iff.mp hslot
      exact ⟨Nat.zero_le _, by omega, h⟩

/-- A section of samplers or pipelines is skipped as it is applied, and leaves the slots. -/
structure SectionSkipped (maximum : Nat) (s s' : Sync) : Prop where
  id : s'.table.id = s.table.id
  pools : s'.table.pools = s.table.pools
  legacy : s'.table.abi.legacyProgramIds = s.table.abi.legacyProgramIds
  skip : skipRows maximum s.words = (.ok (), s'.words)

/-- Appending a value leaves the slots. -/
def LeavesPools {α : Type} (append : α → Fallible ResourceTable Error Unit) : Prop :=
  ∀ a T T', append a T = (.ok (), T') → T'.id = T.id ∧ T'.pools = T.pools ∧
    T'.abi.legacyProgramIds = T.abi.legacyProgramIds

theorem leavesPools_defineSampler : LeavesPools defineSampler := by
  intro d T T' h
  obtain ⟨_, hdefine, -⟩ := Fallible.bind_pure_eq_ok.mp h
  rw [ResourceTable.defineSampler, ResourceTable.pushSampler, Fallible.read_bind_run] at hdefine
  obtain ⟨_, -, hdefine⟩ := Fallible.lift_bind_eq_ok.mp hdefine
  obtain ⟨_, -, hdefine⟩ := Fallible.lift_bind_eq_ok.mp hdefine
  cases hdefine
  exact ⟨rfl, rfl, rfl⟩

theorem leavesPools_defineRenderPipeline : LeavesPools defineRenderPipeline := by
  intro d T T' h
  obtain ⟨_, hdefine, -⟩ := Fallible.bind_pure_eq_ok.mp h
  rw [ResourceTable.defineRenderPipeline, Fallible.read_bind_run] at hdefine
  obtain ⟨_, -, hdefine⟩ := Fallible.lift_bind_eq_ok.mp hdefine
  obtain ⟨_, -, hdefine⟩ := Fallible.lift_bind_eq_ok.mp hdefine
  cases hdefine
  exact ⟨rfl, rfl, rfl⟩

theorem appendTurns_skipped {α : Type} {existing : Nat} {get : Contents → Reader UInt64 Error α}
    {append : α → Fallible ResourceTable Error Unit} (happend : LeavesPools append)
    (h : turns (appendRow existing get append) count index s = (.ok (), s')) :
    s'.table.id = s.table.id ∧ s'.table.pools = s.table.pools ∧
      s'.table.abi.legacyProgramIds = s.table.abi.legacyProgramIds ∧
      skipTurns count s.words = (.ok (), s'.words) := by
  induction count generalizing index s with
  | zero =>
    cases h
    exact ⟨rfl, rfl, rfl, rfl⟩
  | succ count ih =>
    obtain ⟨⟨⟩, mid, hrow, hrest⟩ := Fallible.bind_eq_ok.mp h
    obtain ⟨hid, hpools, hlegacy, hskip⟩ := ih hrest
    obtain ⟨row, mid', hframe, hvalue⟩ := Fallible.bind_eq_ok.mp hrow
    obtain ⟨rest, hread, rfl⟩ := Fallible.zoom_eq_ok.mp hframe
    have hturn : mid.words = rest ∧ mid.table.id = s.table.id ∧
        mid.table.pools = s.table.pools ∧
        mid.table.abi.legacyProgramIds = s.table.abi.legacyProgramIds := by
      split at hvalue
      · rw [Fallible.read_bind_run] at hvalue
        obtain ⟨a, -, hzoom⟩ := Fallible.lift_bind_eq_ok.mp hvalue
        obtain ⟨T', happended, rfl⟩ := Fallible.zoom_eq_ok.mp hzoom
        exact ⟨rfl, happend a _ _ happended⟩
      · cases hvalue
        exact ⟨rfl, rfl, rfl, rfl⟩
    obtain ⟨hwords, hid', hpools', hlegacy'⟩ := hturn
    refine ⟨hid.trans hid', hpools.trans hpools', hlegacy.trans hlegacy', ?_⟩
    exact Fallible.bind_eq_ok.mpr ⟨row, rest, hread, hwords ▸ hskip⟩

theorem appendRows_skipped {α : Type} {existing maximum : Nat}
    {get : Contents → Reader UInt64 Error α} {append : α → Fallible ResourceTable Error Unit}
    (happend : LeavesPools append)
    (h : appendRows existing maximum get append s = (.ok (), s')) :
    SectionSkipped maximum s s' := by
  obtain ⟨count, mid, hcount, hturns⟩ := Fallible.bind_eq_ok.mp h
  obtain ⟨hword, htable, -, hmaximum⟩ := readCount_ok hcount
  obtain ⟨hid, hpools, hlegacy, hskip⟩ := appendTurns_skipped happend hturns
  rw [htable] at hid hpools hlegacy
  refine ⟨hid, hpools, hlegacy, Fallible.bind_eq_ok.mpr ⟨count, mid.words, hword,
    Fallible.lift_bind_eq_ok.mpr ⟨(), failIf_eq_ok.mpr (Nat.not_lt.mpr hmaximum), hskip⟩⟩⟩

/-- In the older format every program stays. -/
structure SectionKept (c : Category) (s s' : Sync) : Prop where
  frame : SameBut c s.table s'.table
  live : ∀ i g, LiveAt (s.table.pools c).slots i g → LiveAt (s'.table.pools c).slots i g

theorem SectionKept.trans {s'' : Sync} (first : SectionKept c s s')
    (second : SectionKept c s' s'') : SectionKept c s s'' :=
  ⟨first.frame.trans second.frame, fun i g h => second.live i g (first.live i g h)⟩

theorem legacyRow_kept (h : legacyRow C c index s = (.ok (), s')) : SectionKept c s s' := by
  obtain ⟨row, mid, hframe, hrest⟩ := Fallible.bind_eq_ok.mp h
  obtain ⟨rest, -, rfl⟩ := Fallible.zoom_eq_ok.mp hframe
  rw [Fallible.read_bind_run] at hrest
  obtain ⟨d, -, hrest⟩ := Fallible.lift_bind_eq_ok.mp hrest
  obtain ⟨_, -, happly⟩ := Fallible.lift_bind_eq_ok.mp hrest
  obtain rfl := (Prod.mk.inj happly).2
  have hset : SameBut c s.table (setSlots c (fun slots =>
      if index < slots.length then slots else slots ++ [⟨some d, 0, none⟩]) s.table) :=
    sameBut_setSlots _
  refine ⟨hset, fun i g hlive => ?_⟩
  dsimp only
  rw [setSlots_slots]
  split
  · exact hlive
  · obtain ⟨slot, hslot, hrest⟩ := hlive
    obtain ⟨hlt, -⟩ := List.getElem?_eq_some_iff.mp hslot
    exact ⟨slot, (List.getElem?_append_left hlt).trans hslot, hrest⟩

theorem legacyTurns_kept (h : turns (legacyRow C c) count index s = (.ok (), s')) :
    SectionKept c s s' := by
  induction count generalizing index s with
  | zero =>
    cases h
    exact ⟨.refl _, fun _ _ h => h⟩
  | succ count ih =>
    obtain ⟨⟨⟩, mid, hrow, hrest⟩ := Fallible.bind_eq_ok.mp h
    exact (legacyRow_kept hrow).trans (ih hrest)

/-- A section of programs keeps them in the older format, and is scanned in the newer one. -/
structure ProgramsApplied (c : Category) (s s' : Sync) : Prop where
  frame : SameBut c s.table s'.table
  older : s.table.abi.legacyProgramIds = true → SectionKept c s s'
  newer : s.table.abi.legacyProgramIds = false → SectionScanned c s s'

theorem syncProgramSlots_applied (h : syncProgramSlots C true c s = (.ok (), s')) :
    ProgramsApplied c s s' := by
  unfold syncProgramSlots at h
  rw [Fallible.read_bind_run] at h
  split at h
  · rename_i hlegacy
    obtain ⟨count, mid, hcount, hturns⟩ := Fallible.bind_eq_ok.mp h
    obtain ⟨-, htable, -⟩ := readCount_ok hcount
    obtain ⟨hframe, hlive⟩ := legacyTurns_kept hturns
    rw [htable] at hframe hlive
    exact ⟨hframe, fun _ => ⟨hframe, hlive⟩, fun hfalse => absurd (hlegacy.symm.trans hfalse)
      Bool.noConfusion⟩
  · rename_i hlegacy
    have hscanned := syncSlots_scanned h
    exact ⟨hscanned.frame, fun htrue => absurd htrue hlegacy, fun _ => hscanned⟩

end Sections

/-! ## Whole snapshots -/

section Whole

variable {C : Codecs} {c : Category} {s s' : Sync} {T T' : ResourceTable} {words : List UInt64}
  {answer : UInt64 × UInt64}

theorem readHeader_ok (h : readHeader s = (.ok answer, s')) :
    ∃ magic, (magic = MAGIC ∨ magic = LEGACY_MAGIC) ∧
      s.words = magic :: answer.1 :: answer.2 :: s'.words ∧
      s'.table = setLegacy (magic = LEGACY_MAGIC) s.table := by
  obtain ⟨magic, s₁, hmagic, hrest⟩ := Fallible.bind_eq_ok.mp h
  obtain ⟨rest₁, hread₁, rfl⟩ := Fallible.zoom_eq_ok.mp hmagic
  obtain ⟨_, hformat, hrest⟩ := Fallible.lift_bind_eq_ok.mp hrest
  obtain ⟨_, s₂, hset, hrest⟩ := Fallible.bind_eq_ok.mp hrest
  cases hset
  obtain ⟨source, s₃, hsource, hrest⟩ := Fallible.bind_eq_ok.mp hrest
  obtain ⟨rest₃, hread₃, rfl⟩ := Fallible.zoom_eq_ok.mp hsource
  obtain ⟨revision, s₄, hrevision, hrest⟩ := Fallible.bind_eq_ok.mp hrest
  obtain ⟨rest₄, hread₄, rfl⟩ := Fallible.zoom_eq_ok.mp hrevision
  obtain ⟨_, -, hpure⟩ := Fallible.lift_bind_eq_ok.mp hrest
  cases hpure
  rw [failIf_eq_ok, not_and_or, not_not, not_not] at hformat
  refine ⟨magic, hformat, ?_, rfl⟩
  have hfirst : s.words = [magic] ++ rest₁ := u64_canonical hread₁
  have hsecond : rest₁ = [source] ++ rest₃ := u64_canonical hread₃
  have hthird : rest₃ = [revision] ++ rest₄ := u64_canonical hread₄
  rw [hfirst, hsecond, hthird]
  rfl

theorem liveAt_rebuildFrom {α : Type} {slots : List (Slot α)} {index : Nat} {g : UInt64} :
    LiveAt (rebuildFrom 0 slots).1 index g ↔ LiveAt slots index g := by
  have hcontent : ∀ xs ys : List (Slot α), xs.map slotContent = ys.map slotContent →
      LiveAt xs index g → LiveAt ys index g := by
    rintro xs ys hmap ⟨slot, hslot, hgeneration, hlive⟩
    have hget := congrArg (·[index]?) hmap
    rw [List.getElem?_map, List.getElem?_map, hslot] at hget
    obtain ⟨new, hnew, heq⟩ := Option.map_eq_some_iff.mp hget.symm
    obtain ⟨hgeneration', hdescriptor⟩ := Prod.mk.inj heq
    exact ⟨new, hnew, hgeneration'.trans hgeneration, hdescriptor ▸ hlive⟩
  exact ⟨hcontent _ _ rebuildFrom_content, hcontent _ _ rebuildFrom_content.symm⟩

theorem liveAt_rebuildFreeList {c' : Category} {index : Nat} {g : UInt64} :
    LiveAt ((rebuildFreeList c' T).pools c).slots index g ↔ LiveAt (T.pools c).slots index g := by
  unfold rebuildFreeList
  by_cases hc : c = c'
  · subst hc
    rw [ResourceTable.setPool_same]
    exact liveAt_rebuildFrom
  · rw [ResourceTable.setPool_other _ _ hc]

theorem finishSync_ok (h : finishSync s = (.ok (), s')) :
    s.words = [] ∧ s'.table.id = s.table.id ∧ ∀ c index g,
      LiveAt (s'.table.pools c).slots index g ↔ LiveAt (s.table.pools c).slots index g := by
  unfold finishSync at h
  rw [Fallible.read_bind_run] at h
  obtain ⟨_, hwords, h⟩ := Fallible.lift_bind_eq_ok.mp h
  obtain ⟨_, -, h⟩ := Fallible.lift_bind_eq_ok.mp h
  obtain ⟨_, -, h⟩ := Fallible.lift_bind_eq_ok.mp h
  rw [failIf_eq_ok, not_not] at hwords
  obtain rfl : s' = ⟨s.words, rebuildFreeList .programmablePipeline (rebuildFreeList .computePipeline
    (rebuildFreeList .shaderModule s.table))⟩ := (Prod.mk.inj h).2.symm
  refine ⟨hwords, rfl, fun c index g => ?_⟩
  rw [liveAt_rebuildFreeList, liveAt_rebuildFreeList, liveAt_rebuildFreeList]

/-- The list holds the identities that resolve before and not after, each once. -/
def Exactly {c : Category} (T T' : ResourceTable) (ids : List (Id c)) : Prop :=
  ids.Nodup ∧ ∀ id, id ∈ ids ↔ T.ref id = .ok id ∧ T'.ref id ≠ .ok id

theorem ref_eq_ok_iff_liveAt {id : Id c} :
    T.ref id = .ok id ↔ id.owner = T.id ∧ LiveAt (T.pools c).slots id.index.toNat id.generation := by
  rw [ResourceTable.ref_eq_ok]
  simp only [ResourceTable.get_eq_ok, true_and, ResourceTable.lookup, SlotPool.resolve_eq_some]
  constructor
  · rintro ⟨d, howner, slot, hslot, hgeneration, hd⟩
    exact ⟨howner, slot, hslot, hgeneration, hd ▸ rfl⟩
  · rintro ⟨howner, slot, hslot, hgeneration, hlive⟩
    obtain ⟨d, hd⟩ := Option.isSome_iff_exists.mp hlive
    exact ⟨d, howner, slot, hslot, hgeneration, hd⟩

/-- What a scan of a section finds is retired, if that section is all that changes the category. -/
theorem SectionScanned.exactly (h : SectionScanned c s s') (hslots : s.table.pools c = T.pools c)
    (hid' : T'.id = T.id)
    (hfinal : ∀ index g, LiveAt (T'.pools c).slots index g ↔
      LiveAt (s'.table.pools c).slots index g) :
    ∃ ids, scanCategory T c s.words = (.ok ids, s'.words) ∧ Exactly T T' ids := by
  obtain ⟨found, hscan, hsorted, hmem⟩ := h.scan
  have hsmall := h.small
  have hmaximum := c.maximum_le
  rw [hslots] at hscan hmem hsmall
  have hlt : ∀ {i g}, LiveAt (T.pools c).slots i g → i < 2 ^ 64 := by
    rintro i g ⟨slot, hslot, -⟩
    obtain ⟨hlt, -⟩ := List.getElem?_eq_some_iff.mp hslot
    omega
  have hindex : ∀ p ∈ found, (UInt64.ofNat p.1).toNat = p.1 := fun p hp =>
    UInt64.toNat_ofNat_of_lt' (hlt ((hmem p.1 p.2).mp hp).1)
  refine ⟨retiredIds T c found, Fallible.bind_pure_eq_ok.mpr ⟨found, hscan, rfl⟩, ?_, fun id => ?_⟩
  · refine List.pairwise_map.mpr (hsorted.imp_of_mem fun {p q} hp hq hlt heq => ?_)
    have heq : UInt64.ofNat p.1 = UInt64.ofNat q.1 := congrArg Id.index heq
    rw [← hindex p hp, ← hindex q hq, heq] at hlt
    exact Nat.lt_irrefl _ hlt
  · rw [ne_eq, ref_eq_ok_iff_liveAt, ref_eq_ok_iff_liveAt, hid', hfinal]
    constructor
    · intro hin
      obtain ⟨p, hp, rfl⟩ := List.mem_map.mp hin
      obtain ⟨hlive, hgone⟩ := (hmem p.1 p.2).mp hp
      dsimp only
      rw [hindex p hp]
      exact ⟨⟨rfl, hlive⟩, fun hstill => hgone hstill.2⟩
    · rintro ⟨⟨howner, hlive⟩, hgone⟩
      have hfound := (hmem _ _).mpr ⟨hlive, fun hstill => hgone ⟨howner, hstill⟩⟩
      refine List.mem_map.mpr ⟨_, hfound, ?_⟩
      obtain ⟨owner, index, generation⟩ := id
      dsimp only at howner ⊢
      rw [howner, UInt64.ofNat_toNat]

/-- Programs that stay are not retired. -/
theorem exactly_nil (hslots : s.table.pools c = T.pools c) (h : SectionKept c s s') (hid' : T'.id = T.id)
    (hfinal : ∀ index g, LiveAt (T'.pools c).slots index g ↔
      LiveAt (s'.table.pools c).slots index g) : Exactly T T' ([] : List (Id c)) := by
  refine ⟨List.nodup_nil, fun id => iff_of_false List.not_mem_nil ?_⟩
  rintro ⟨hbefore, hafter⟩
  rw [ref_eq_ok_iff_liveAt] at hbefore
  refine hafter (ref_eq_ok_iff_liveAt.mpr ⟨hbefore.1.trans hid'.symm, ?_⟩)
  exact (hfinal _ _).mpr (h.live _ _ (hslots ▸ hbefore.2))

/-- What the eight sections of a snapshot do, one after the other. -/
structure SectionsApplied (s t b m p sh bg co s' : Sync) : Prop where
  textures : SectionScanned .texture s t
  buffers : SectionScanned .buffer t b
  samplers : SectionSkipped MAX_SAMPLERS b m
  pipelines : SectionSkipped MAX_RENDER_PIPELINES m p
  shaders : ProgramsApplied .shaderModule p sh
  bindGroups : SectionScanned .bindGroup sh bg
  compute : ProgramsApplied .computePipeline bg co
  programmable : ProgramsApplied .programmablePipeline co s'

theorem syncSections_ok (h : syncSections C true s = (.ok (), s')) :
    ∃ t b m p sh bg co, SectionsApplied s t b m p sh bg co s' := by
  obtain ⟨⟨⟩, t, htextures, h⟩ := Fallible.bind_eq_ok.mp h
  obtain ⟨⟨⟩, b, hbuffers, h⟩ := Fallible.bind_eq_ok.mp h
  obtain ⟨⟨⟩, m, hsamplers, h⟩ := Fallible.bind_eq_ok.mp h
  obtain ⟨⟨⟩, p, hpipelines, h⟩ := Fallible.bind_eq_ok.mp h
  obtain ⟨⟨⟩, sh, hshaders, h⟩ := Fallible.bind_eq_ok.mp h
  obtain ⟨⟨⟩, bg, hbindGroups, h⟩ := Fallible.bind_eq_ok.mp h
  obtain ⟨⟨⟩, co, hcompute, hprogrammable⟩ := Fallible.bind_eq_ok.mp h
  unfold syncSamplers at hsamplers
  unfold syncPipelines at hpipelines
  rw [Fallible.read_bind_run] at hsamplers hpipelines
  exact ⟨t, b, m, p, sh, bg, co, syncSlots_scanned htextures, syncSlots_scanned hbuffers,
    appendRows_skipped leavesPools_defineSampler hsamplers,
    appendRows_skipped leavesPools_defineRenderPipeline hpipelines,
    syncProgramSlots_applied hshaders, syncSlots_scanned hbindGroups,
    syncProgramSlots_applied hcompute, syncProgramSlots_applied hprogrammable⟩

namespace SectionsApplied

variable {t b m p sh bg co : Sync}

/-- What a section leaves is there at the end, unless a later section has the category. -/
theorem pools_end (h : SectionsApplied s t b m p sh bg co s') :
    s'.table.pools .texture = t.table.pools .texture ∧
      s'.table.pools .buffer = b.table.pools .buffer ∧
      s'.table.pools .shaderModule = sh.table.pools .shaderModule ∧
      s'.table.pools .computePipeline = co.table.pools .computePipeline := by
  have hlast : ∀ c, c ≠ .programmablePipeline → c ≠ .computePipeline → c ≠ .bindGroup →
      s'.table.pools c = sh.table.pools c := by
    intro c hprogrammable hcompute hbindGroup
    rw [h.programmable.frame.pools c hprogrammable, h.compute.frame.pools c hcompute,
      h.bindGroups.frame.pools c hbindGroup]
  have hfirst : ∀ c, c ≠ .programmablePipeline → c ≠ .computePipeline → c ≠ .bindGroup →
      c ≠ .shaderModule → s'.table.pools c = b.table.pools c := by
    intro c hprogrammable hcompute hbindGroup hshader
    rw [hlast c hprogrammable hcompute hbindGroup, h.shaders.frame.pools c hshader,
      h.pipelines.pools, h.samplers.pools]
  refine ⟨?_, ?_, ?_, ?_⟩
  · rw [hfirst .texture (by decide) (by decide) (by decide) (by decide),
      h.buffers.frame.pools .texture (by decide)]
  · exact hfirst .buffer (by decide) (by decide) (by decide) (by decide)
  · exact hlast .shaderModule (by decide) (by decide) (by decide)
  · exact h.programmable.frame.pools .computePipeline (by decide)

/-- A section finds its category as it was at the start. -/
theorem pools_start (h : SectionsApplied s t b m p sh bg co s') :
    t.table.pools .buffer = s.table.pools .buffer ∧
      p.table.pools .shaderModule = s.table.pools .shaderModule ∧
      bg.table.pools .computePipeline = s.table.pools .computePipeline ∧
      co.table.pools .programmablePipeline = s.table.pools .programmablePipeline := by
  have hfirst : ∀ c, c ≠ .texture → c ≠ .buffer → p.table.pools c = s.table.pools c := by
    intro c htexture hbuffer
    rw [h.pipelines.pools, h.samplers.pools, h.buffers.frame.pools c hbuffer,
      h.textures.frame.pools c htexture]
  have hlater : ∀ c, c ≠ .texture → c ≠ .buffer → c ≠ .shaderModule → c ≠ .bindGroup →
      bg.table.pools c = s.table.pools c := by
    intro c htexture hbuffer hshader hbindGroup
    rw [h.bindGroups.frame.pools c hbindGroup, h.shaders.frame.pools c hshader,
      hfirst c htexture hbuffer]
  refine ⟨h.textures.frame.pools .buffer (by decide),
    hfirst .shaderModule (by decide) (by decide),
    hlater .computePipeline (by decide) (by decide) (by decide) (by decide), ?_⟩
  rw [h.compute.frame.pools .programmablePipeline (by decide)]
  exact hlater .programmablePipeline (by decide) (by decide) (by decide) (by decide)

/-- The owner stays. -/
theorem owner (h : SectionsApplied s t b m p sh bg co s') : s'.table.id = s.table.id := by
  rw [h.programmable.frame.id, h.compute.frame.id, h.bindGroups.frame.id, h.shaders.frame.id,
    h.pipelines.id, h.samplers.id, h.buffers.frame.id, h.textures.frame.id]

/-- The format is the same for every section of programs. -/
theorem legacy (h : SectionsApplied s t b m p sh bg co s') :
    p.table.abi.legacyProgramIds = s.table.abi.legacyProgramIds ∧
      bg.table.abi.legacyProgramIds = s.table.abi.legacyProgramIds ∧
      co.table.abi.legacyProgramIds = s.table.abi.legacyProgramIds := by
  have hshaders : p.table.abi.legacyProgramIds = s.table.abi.legacyProgramIds := by
    rw [h.pipelines.legacy, h.samplers.legacy, h.buffers.frame.legacy, h.textures.frame.legacy]
  have hcompute : bg.table.abi.legacyProgramIds = s.table.abi.legacyProgramIds := by
    rw [h.bindGroups.frame.legacy, h.shaders.frame.legacy, hshaders]
  exact ⟨hshaders, hcompute, h.compute.frame.legacy.trans hcompute⟩

/-- The first two sections are scanned for textures and buffers. -/
theorem resources (h : SectionsApplied s t b m p sh bg co s')
    (hstart : s.table.pools = T.pools) (hid : T'.id = T.id)
    (hfinal : ∀ c index g, LiveAt (T'.pools c).slots index g ↔
      LiveAt (s'.table.pools c).slots index g) :
    ∃ textures buffers, scanCategory T .texture s.words = (.ok textures, t.words) ∧
      scanCategory T .buffer t.words = (.ok buffers, b.words) ∧
      Exactly T T' textures ∧ Exactly T T' buffers := by
  obtain ⟨htexture, hbuffer, -⟩ := h.pools_end
  obtain ⟨hbuffer', -⟩ := h.pools_start
  obtain ⟨textures, hscan, htextures⟩ := h.textures.exactly (congrFun hstart .texture) hid
    fun index g => htexture ▸ hfinal .texture index g
  obtain ⟨buffers, hscan', hbuffers⟩ := h.buffers.exactly
    (hbuffer'.trans (congrFun hstart .buffer)) hid fun index g => hbuffer ▸ hfinal .buffer index g
  exact ⟨textures, buffers, hscan, hscan', htextures, hbuffers⟩

/-- In the newer format the three sections of programs are scanned. -/
theorem programs (h : SectionsApplied s t b m p sh bg co s')
    (hlegacy : s.table.abi.legacyProgramIds = false) (hstart : s.table.pools = T.pools)
    (hid : T'.id = T.id) (hfinal : ∀ c index g, LiveAt (T'.pools c).slots index g ↔
      LiveAt (s'.table.pools c).slots index g) :
    ∃ shaders compute programmable,
      scanCategory T .shaderModule p.words = (.ok shaders, sh.words) ∧
      scanCategory T .computePipeline bg.words = (.ok compute, co.words) ∧
      scanCategory T .programmablePipeline co.words = (.ok programmable, s'.words) ∧
      Exactly T T' shaders ∧ Exactly T T' compute ∧ Exactly T T' programmable := by
  obtain ⟨-, -, hshader, hcompute⟩ := h.pools_end
  obtain ⟨-, hshader', hcompute', hprogrammable'⟩ := h.pools_start
  obtain ⟨hlegacySh, hlegacyCo, hlegacyPr⟩ := h.legacy
  obtain ⟨shaders, hscan₁, hshaders⟩ := (h.shaders.newer (hlegacySh.trans hlegacy)).exactly
    (hshader'.trans (congrFun hstart _)) hid fun index g => hshader ▸ hfinal .shaderModule index g
  obtain ⟨compute, hscan₂, hcomputes⟩ := (h.compute.newer (hlegacyCo.trans hlegacy)).exactly
    (hcompute'.trans (congrFun hstart _)) hid
    fun index g => hcompute ▸ hfinal .computePipeline index g
  obtain ⟨programmable, hscan₃, hprogrammables⟩ :=
    (h.programmable.newer (hlegacyPr.trans hlegacy)).exactly
      (hprogrammable'.trans (congrFun hstart _)) hid
      fun index g => hfinal .programmablePipeline index g
  exact ⟨shaders, compute, programmable, hscan₁, hscan₂, hscan₃, hshaders, hcomputes,
    hprogrammables⟩

/-- In the older format no program is retired. -/
theorem no_programs (h : SectionsApplied s t b m p sh bg co s')
    (hlegacy : s.table.abi.legacyProgramIds = true) (hstart : s.table.pools = T.pools)
    (hid : T'.id = T.id) (hfinal : ∀ c index g, LiveAt (T'.pools c).slots index g ↔
      LiveAt (s'.table.pools c).slots index g) :
    Exactly T T' ([] : List ShaderModuleId) ∧ Exactly T T' ([] : List ComputePipelineId) ∧
      Exactly T T' ([] : List ProgrammableRenderPipelineId) := by
  obtain ⟨-, -, hshader, hcompute⟩ := h.pools_end
  obtain ⟨-, hshader', hcompute', hprogrammable'⟩ := h.pools_start
  obtain ⟨hlegacySh, hlegacyCo, hlegacyPr⟩ := h.legacy
  exact ⟨exactly_nil (hshader'.trans (congrFun hstart _)) (h.shaders.older (hlegacySh.trans hlegacy))
      hid fun index g => hshader ▸ hfinal .shaderModule index g,
    exactly_nil (hcompute'.trans (congrFun hstart _)) (h.compute.older (hlegacyCo.trans hlegacy))
      hid fun index g => hcompute ▸ hfinal .computePipeline index g,
    exactly_nil (hprogrammable'.trans (congrFun hstart _))
      (h.programmable.older (hlegacyPr.trans hlegacy)) hid
      fun index g => hfinal .programmablePipeline index g⟩

end SectionsApplied

/-- A snapshot is read from its header to its last section. -/
theorem syncAbiSnapshot_ok (h : syncAbiSnapshot C true words T = (.ok answer, T')) :
    ∃ magic rest s' t b m p sh bg co, (magic = MAGIC ∨ magic = LEGACY_MAGIC) ∧
      words = magic :: answer.1 :: answer.2 :: rest ∧
      SectionsApplied ⟨rest, setLegacy (magic = LEGACY_MAGIC) T⟩ t b m p sh bg co s' ∧
      s'.words = [] ∧ T'.id = T.id ∧ ∀ c index g,
        LiveAt (T'.pools c).slots index g ↔ LiveAt (s'.table.pools c).slots index g := by
  obtain ⟨hanswer, htable⟩ := Prod.mk.inj h
  obtain ⟨last, hsync⟩ : ∃ last, sync C true ⟨words, T⟩ = (.ok answer, last) :=
    ⟨_, Prod.ext hanswer rfl⟩
  rw [hsync] at htable
  obtain ⟨answer', s, hheader, hrest⟩ := Fallible.bind_eq_ok.mp hsync
  obtain ⟨⟨⟩, s', hsections, hrest⟩ := Fallible.bind_eq_ok.mp hrest
  obtain ⟨⟨⟩, last', hfinish, hpure⟩ := Fallible.bind_eq_ok.mp hrest
  cases hpure
  obtain ⟨magic, hmagic, hwords, hlegacy⟩ := readHeader_ok hheader
  obtain ⟨t, b, m, p, sh, bg, co, happlied⟩ := syncSections_ok hsections
  obtain ⟨hend, hid, hfinal⟩ := finishSync_ok hfinish
  obtain ⟨rest, table⟩ := s
  dsimp only at hwords hlegacy
  subst hlegacy htable
  refine ⟨magic, rest, s', t, b, m, p, sh, bg, co, hmagic, hwords, happlied, hend, ?_, hfinal⟩
  exact hid.trans happlied.owner

theorem magic_ne_legacy : MAGIC ≠ LEGACY_MAGIC := by decide

/-- The words behind the format are passed over. -/
theorem take_two {first second : UInt64} {rest : List UInt64} :
    Reader.take 2 Error.invalidDescriptor (first :: second :: rest) =
      (.ok [first, second], rest) := by
  have h : ([first, second] ++ rest).length ≥ 2 := Nat.le_add_left 2 rest.length
  exact if_neg (Nat.not_lt.mpr h)

theorem readRetiredResources_run {magic first second : UInt64} {rest rest' rest'' : List UInt64}
    {textures : List TextureId} {buffers : List BufferId}
    (hmagic : magic = MAGIC ∨ magic = LEGACY_MAGIC)
    (htextures : scanCategory T .texture rest = (.ok textures, rest'))
    (hbuffers : scanCategory T .buffer rest' = (.ok buffers, rest'')) :
    abiRetiredResources T (magic :: first :: second :: rest) = .ok (textures, buffers) := by
  have hrun : readRetiredResources T (magic :: first :: second :: rest) =
      (.ok (textures, buffers), rest'') := by
    refine Fallible.bind_eq_ok.mpr ⟨magic, first :: second :: rest, rfl,
      Fallible.lift_bind_eq_ok.mpr ⟨(), failIf_eq_ok.mpr ?_, ?_⟩⟩
    · rw [not_and_or, not_not, not_not]
      exact hmagic
    · refine Fallible.bind_eq_ok.mpr ⟨_, _, take_two, ?_⟩
      refine Fallible.bind_eq_ok.mpr ⟨textures, rest', htextures, ?_⟩
      exact Fallible.bind_eq_ok.mpr ⟨buffers, rest'', hbuffers, rfl⟩
  rw [abiRetiredResources, hrun]

/-- In the newer format the sections between those of programs are skipped. -/
theorem readRetiredPrograms_run {t b m p sh bg co : Sync} {first second : UInt64}
    {rest : List UInt64} {table : ResourceTable} {shaders : List ShaderModuleId}
    {compute : List ComputePipelineId} {programmable : List ProgrammableRenderPipelineId}
    (h : SectionsApplied ⟨rest, table⟩ t b m p sh bg co s') (hend : s'.words = [])
    (hshaders : scanCategory T .shaderModule p.words = (.ok shaders, sh.words))
    (hcompute : scanCategory T .computePipeline bg.words = (.ok compute, co.words))
    (hprogrammable : scanCategory T .programmablePipeline co.words =
      (.ok programmable, s'.words)) :
    abiRetiredPrograms T (MAGIC :: first :: second :: rest) =
      .ok (shaders, compute, programmable) := by
  have hrun : readRetiredPrograms T (MAGIC :: first :: second :: rest) =
      (.ok (shaders, compute, programmable), s'.words) := by
    refine Fallible.bind_eq_ok.mpr ⟨MAGIC, first :: second :: rest, rfl, ?_⟩
    rw [if_neg magic_ne_legacy]
    refine Fallible.lift_bind_eq_ok.mpr ⟨(), failIf_eq_ok.mpr (not_not.mpr rfl), ?_⟩
    refine Fallible.bind_eq_ok.mpr ⟨_, _, take_two, ?_⟩
    refine Fallible.bind_eq_ok.mpr ⟨(), t.words, h.textures.skip, ?_⟩
    refine Fallible.bind_eq_ok.mpr ⟨(), b.words, h.buffers.skip, ?_⟩
    refine Fallible.bind_eq_ok.mpr ⟨(), m.words, h.samplers.skip, ?_⟩
    refine Fallible.bind_eq_ok.mpr ⟨(), p.words, h.pipelines.skip, ?_⟩
    refine Fallible.bind_eq_ok.mpr ⟨shaders, sh.words, hshaders, ?_⟩
    refine Fallible.bind_eq_ok.mpr ⟨(), bg.words, h.bindGroups.skip, ?_⟩
    refine Fallible.bind_eq_ok.mpr ⟨compute, co.words, hcompute, ?_⟩
    refine Fallible.bind_eq_ok.mpr ⟨programmable, s'.words, hprogrammable, ?_⟩
    rw [Fallible.read_bind_run]
    exact Fallible.lift_bind_eq_ok.mpr ⟨(), failIf_eq_ok.mpr (not_not.mpr hend), rfl⟩
  rw [abiRetiredPrograms, hrun]

end Whole

/-- Before a snapshot that is accepted, both scans of it succeed, and answer the identities that
resolve in the mirror before it is applied and not after, each once. -/
theorem abiRetired_exact (C : Codecs) (T T' : ResourceTable) (words : List UInt64)
    (answer : UInt64 × UInt64) (h : syncAbiSnapshot C true words T = (.ok answer, T')) :
    (∃ textures buffers, abiRetiredResources T words = .ok (textures, buffers) ∧
      Exactly T T' textures ∧ Exactly T T' buffers) ∧
    ∃ shaders compute programmable,
      abiRetiredPrograms T words = .ok (shaders, compute, programmable) ∧
      Exactly T T' shaders ∧ Exactly T T' compute ∧ Exactly T T' programmable := by
  obtain ⟨magic, rest, s', t, b, m, p, sh, bg, co, hmagic, rfl, happlied, hend, hid, hfinal⟩ :=
    syncAbiSnapshot_ok h
  constructor
  · obtain ⟨textures, buffers, htextures, hbuffers, hexact, hexact'⟩ :=
      happlied.resources rfl hid hfinal
    exact ⟨textures, buffers, readRetiredResources_run hmagic htextures hbuffers, hexact, hexact'⟩
  · rcases hmagic with rfl | rfl
    · obtain ⟨shaders, compute, programmable, hshaders, hcompute, hprogrammable, hexact⟩ :=
        happlied.programs (decide_eq_false magic_ne_legacy) rfl hid hfinal
      exact ⟨shaders, compute, programmable,
        readRetiredPrograms_run happlied hend hshaders hcompute hprogrammable, hexact⟩
    · have hexact := happlied.no_programs (decide_eq_true (Eq.refl LEGACY_MAGIC)) rfl hid hfinal
      exact ⟨[], [], [], rfl, hexact⟩

/-- The buffer of before, at a later generation. -/
def replacedBuffer : List UInt64 := [MAGIC, 7, 2, 0, 1, 4, 1, 1, 16, 32, 0, 0, 0, 0, 0, 0]

/-- The buffer at the first generation is retired when it is replaced. -/
theorem abiRetired_exact_replacedBuffer :
    let T := (syncAbiSnapshot bufferCodecs true oneBuffer (ResourceTable.new 2 mirrorOwner_ne)).2
    abiRetiredResources T replacedBuffer = .ok ([], [⟨2, 0, 0⟩]) ∧
      ∃ textures buffers, abiRetiredResources T replacedBuffer = .ok (textures, buffers) ∧
        Exactly T (syncAbiSnapshot bufferCodecs true replacedBuffer T).2 textures ∧
        Exactly T (syncAbiSnapshot bufferCodecs true replacedBuffer T).2 buffers :=
  ⟨rfl, (abiRetired_exact bufferCodecs _ _ replacedBuffer (7, 2) rfl).1⟩

end Sgfx.Abi
