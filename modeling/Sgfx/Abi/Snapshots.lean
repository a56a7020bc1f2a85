import Sgfx.Abi.Scalars
import Sgfx.Generations

/-!
# Snapshots of a table

A snapshot is the words of all descriptors of a table, one framed row a slot.  It is encoded
again only when the revision of the table has changed, and the row of a program only when the
generation of its slot or the slot's being occupied has.  The encodings of the descriptors
themselves are parameters here.

A row can be kept because an occupied slot has one descriptor as long as it has one
generation, and because every define and release advances the revision.

## Main Definitions

* `slotRow`, `rows` — the encoding of slots and of lists of them
* `putPrograms` — `ProgramRows::put`
* `uncached` — the snapshot without caches
* `abiSnapshot`
* `Accurate`, `SnapshotSound` — what the caches keep

## Main Results

* `putPrograms_ensures` — a cached row is the row of its slot
* `Accurate.mono` — and stays so while the pool evolves
* `abiSnapshot_eq_uncached` — after every sequence of calls
-/

namespace Sgfx.Abi

open Fallible

/-! ## Rows -/

/-- `SGFXR3`. -/
def MAGIC : UInt64 := 0x3352_5846_4753

/-- `SGFXR2`. -/
def LEGACY_MAGIC : UInt64 := 0x3252_5846_4753

section Rows

variable {α : Type}

/-- A row after its length. -/
def framed (words : List UInt64) : List UInt64 := .ofNat words.length :: words

/-- `rows`. -/
def rows (encode : α → List UInt64) (items : List α) : List UInt64 :=
  .ofNat items.length :: items.flatMap fun item => framed (encode item)

/-- `Codec::put` of a slot: its generation, and its descriptor if it is occupied. -/
def slotRow (encode : α → List UInt64) (slot : Slot α) : List UInt64 :=
  slot.generation :: (bool.put slot.descriptor.isSome ++ (slot.descriptor.map encode).getD [])

end Rows

/-- The encodings of the descriptors. -/
structure Encoders where
  slot : (c : Category) → Descriptor c → List UInt64
  sampler : SamplerDesc → List UInt64
  pipeline : RenderPipelineDesc → List UInt64

/-- The rows of a category of slots. -/
def slotRows (E : Encoders) (T : ResourceTable) (c : Category) : List UInt64 :=
  rows (slotRow (E.slot c)) (T.pools c).slots

/-- The three words at the front. -/
def header (T : ResourceTable) : List UInt64 := [MAGIC, T.id, .ofNat T.abi.revision]

/-- The snapshot without caches. -/
def uncached (E : Encoders) (T : ResourceTable) : List UInt64 :=
  header T ++ slotRows E T .texture ++ slotRows E T .buffer ++ rows E.sampler T.samplers ++
    rows E.pipeline T.pipelines ++ slotRows E T .shaderModule ++ slotRows E T .bindGroup ++
    slotRows E T .computePipeline ++ slotRows E T .programmablePipeline

/-! ## Cached rows -/

/-- Which reservations succeed: for the header, for the rows of a category, for the words of
one row. -/
structure SnapshotAllocator where
  header : Bool
  rows : Category → Bool
  words : Category → Nat → Bool

/-- Some reservation fails. -/
def SnapshotAllocator.Fails (A : SnapshotAllocator) : Prop :=
  A.header = false ∨ ∃ c, A.rows c = false ∨ ∃ index, A.words c index = false

section Programs

variable {α : Type} (encode : α → List UInt64)

/-- The row of a slot: the cached one, if it is of this generation and this occupancy. -/
def encodedProgram (slot : Slot α) : Option EncodedProgram → EncodedProgram
  | some row =>
    if row.generation ≠ slot.generation ∨ row.active ≠ slot.descriptor.isSome then
      ⟨slot.generation, slot.descriptor.isSome, slotRow encode slot⟩
    else row
  | none => ⟨slot.generation, slot.descriptor.isSome, slotRow encode slot⟩

/-- The rows from one index on.  The cached row is replaced before its words are copied. -/
def putProgramsFrom (grows : Nat → Bool) :
    Nat → List (Slot α) → Fallible (ProgramRows × List UInt64) Error Unit
  | _, [] => pure ()
  | index, slot :: rest => do
    let s ← read
    let row := encodedProgram encode slot (s.1[index]?.getD none)
    update fun s => (s.1.set index (some row), s.2)
    liftM (failIf (grows index = false) Error.outOfMemory)
    update fun s => (s.1, s.2 ++ framed row.words)
    putProgramsFrom grows (index + 1) rest

/-- `ProgramRows::put`. -/
def putPrograms (reserves : Bool) (grows : Nat → Bool) (slots : List (Slot α)) :
    Fallible (ProgramRows × List UInt64) Error Unit := do
  let s ← read
  liftM (failIf (s.1.length < slots.length ∧ reserves = false) Error.outOfMemory)
  update fun s => (s.1 ++ List.replicate (slots.length - s.1.length) none, s.2)
  update fun s => (s.1, s.2 ++ [.ofNat slots.length])
  putProgramsFrom encode grows 0 slots

end Programs

/-! ## Taking a snapshot -/

/-- What is written in the course of a snapshot. -/
abbrev Pass := (Category → ProgramRows) × List UInt64

/-- `out.extend_from_slice`. -/
def append (words : List UInt64) : Fallible Pass Error Unit := update fun s => (s.1, s.2 ++ words)

/-- The rows of one category of programs. -/
def putCategory (E : Encoders) (A : SnapshotAllocator) (T : ResourceTable) (c : Category) :
    Fallible Pass Error Unit :=
  zoom (fun s : Pass => (s.1 c, s.2)) (fun s p => (Function.update s.1 c p.1, p.2))
    (putPrograms (E.slot c) (A.rows c) (A.words c) (T.pools c).slots)

/-- The words of a table, after `out.clear()`. -/
def encodeTable (E : Encoders) (A : SnapshotAllocator) (T : ResourceTable) :
    Fallible Pass Error Unit := do
  update fun s => (s.1, [])
  liftM (failIf (A.header = false) Error.outOfMemory)
  append (header T)
  append (slotRows E T .texture)
  append (slotRows E T .buffer)
  append (rows E.sampler T.samplers)
  append (rows E.pipeline T.pipelines)
  putCategory E A T .shaderModule
  append (slotRows E T .bindGroup)
  putCategory E A T .computePipeline
  putCategory E A T .programmablePipeline

/-- Write what a snapshot leaves in the table. -/
def setPass (T : ResourceTable) (s : Pass) : ResourceTable :=
  { T with abi := { T.abi with encodedPrograms := s.1, snapshot := (T.abi.snapshot.1, s.2) } }

/-- `snapshot.0 = revision`. -/
def setSnapshotRevision (T : ResourceTable) : ResourceTable :=
  { T with abi := { T.abi with snapshot := (T.abi.revision, T.abi.snapshot.2) } }

/-- `ResourceTable::abi_snapshot`. -/
def abiSnapshot (E : Encoders) (A : SnapshotAllocator) :
    Fallible ResourceTable Error (List UInt64) := do
  let T ← read
  if T.abi.snapshot.1 ≠ T.abi.revision then do
    zoom (fun T : ResourceTable => (T.abi.encodedPrograms, T.abi.snapshot.2)) setPass
      (encodeTable E A T)
    update setSnapshotRevision
    let T ← read
    pure T.abi.snapshot.2
  else pure T.abi.snapshot.2

/-! ## Accurate rows -/

section Accurate

variable {α : Type} {encode : α → List UInt64} {slots : List (Slot α)} {cache : ProgramRows}
  {slot : Slot α} {row : EncodedProgram}

/-- A cached row is of an earlier generation of its slot, or of this one: then an occupied row
is the row of the slot, and a vacant one that of the slot before it was occupied. -/
def RowOk (encode : α → List UInt64) (slot : Slot α) (row : EncodedProgram) : Prop :=
  row.generation < slot.generation ∨ row.generation = slot.generation ∧
    (row.active = true → slot.descriptor.isSome = true ∧ row.words = slotRow encode slot) ∧
    (row.active = false → row.words = [row.generation] ++ bool.put false)

/-- Every cached row is. -/
def Accurate (encode : α → List UInt64) (slots : List (Slot α)) (cache : ProgramRows) : Prop :=
  ∀ (i : Nat) (row : EncodedProgram), cache[i]? = some (some row) →
    ∃ slot, slots[i]? = some slot ∧ RowOk encode slot row

theorem accurate_nil : Accurate encode slots [] := by
  intro i row h
  cases h

theorem slotRow_vacant (h : slot.descriptor = none) :
    slotRow encode slot = [slot.generation] ++ bool.put false := by
  unfold slotRow
  rw [h]
  rfl

/-- A row that is not encoded again is the row of the slot. -/
theorem encodedProgram_words {cached : Option EncodedProgram}
    (h : ∀ row ∈ cached, RowOk encode slot row) :
    encodedProgram encode slot cached =
      ⟨slot.generation, slot.descriptor.isSome, slotRow encode slot⟩ := by
  cases cached with
  | none => rfl
  | some row =>
    rw [encodedProgram]
    split
    · rfl
    · rename_i hsame
      rw [not_or, not_not, not_not] at hsame
      obtain ⟨hgeneration, hactive⟩ := hsame
      obtain ⟨generation, active, words⟩ := row
      dsimp only at hgeneration hactive
      subst hgeneration hactive
      rcases h _ rfl with hlt | ⟨-, hoccupied, hvacant⟩
      · exact absurd hlt (UInt64.lt_irrefl _)
      · congr 1
        cases hd : slot.descriptor with
        | some d => exact (hoccupied (by rw [hd]; rfl)).2
        | none => exact (hvacant (by rw [hd]; rfl)).trans (slotRow_vacant hd).symm

theorem rowOk_encodedProgram : RowOk encode slot
    ⟨slot.generation, slot.descriptor.isSome, slotRow encode slot⟩ := by
  refine .inr ⟨rfl, fun hsome => ⟨hsome, rfl⟩, fun hnone => ?_⟩
  exact slotRow_vacant (Option.isSome_eq_false_iff.mp hnone |> Option.isNone_iff_eq_none.mp)

theorem Accurate.set {i : Nat} (h : Accurate encode slots cache) (hslot : slots[i]? = some slot)
    (hrow : RowOk encode slot row) : Accurate encode slots (cache.set i (some row)) := by
  intro j other hother
  by_cases hij : i = j
  · subst hij
    rw [List.getElem?_set_self' ] at hother
    obtain ⟨_, -, heq⟩ := Option.map_eq_some_iff.mp hother
    cases heq
    exact ⟨slot, hslot, hrow⟩
  · rw [List.getElem?_set_ne hij] at hother
    exact h j other hother

theorem Accurate.append_none (h : Accurate encode slots cache) (count : Nat) :
    Accurate encode slots (cache ++ List.replicate count none) := by
  intro i row hrow
  rw [List.getElem?_append] at hrow
  split at hrow
  · exact h i row hrow
  · cases List.eq_of_mem_replicate (List.mem_of_getElem? hrow)

/-- Accurate rows stay accurate while the pool evolves. -/
theorem Accurate.mono {p p' : SlotPool α} (h : Accurate encode p.slots cache)
    (evolves : p.Evolves p') : Accurate encode p'.slots cache := by
  intro i row hrow
  obtain ⟨slot, hslot, hok⟩ := h i row hrow
  obtain ⟨slot', hslot', hstep⟩ := evolves i slot hslot
  refine ⟨slot', hslot', ?_⟩
  rcases hok with hlt | ⟨heq, hoccupied, hvacant⟩
  · rcases hstep with hlater | ⟨hsame, -⟩
    · exact .inl (UInt64.lt_trans hlt hlater)
    · exact .inl (hsame ▸ hlt)
  · rcases hstep with hlater | ⟨hsame, hkeep⟩
    · exact .inl (heq ▸ hlater)
    · refine .inr ⟨heq.trans hsame, fun hactive => ?_, hvacant⟩
      obtain ⟨hsome, hwords⟩ := hoccupied hactive
      obtain ⟨d, hd⟩ := Option.isSome_iff_exists.mp hsome
      have hd' := hkeep d hd
      refine ⟨by rw [hd']; rfl, hwords.trans ?_⟩
      rw [slotRow, slotRow, hd, hd', hsame]

/-- The cached row of a slot may be used for it. -/
theorem Accurate.cached {i : Nat} (h : Accurate encode slots cache) (hslot : slots[i]? = some slot) :
    ∀ row ∈ cache[i]?.getD none, RowOk encode slot row := by
  intro row hrow
  have hcached : cache[i]? = some (some row) := by
    cases hget : cache[i]? with
    | none =>
      rw [hget] at hrow
      cases hrow
    | some cached =>
      rw [hget] at hrow
      exact congrArg some hrow
  obtain ⟨slot', hslot', hok⟩ := h i row hcached
  rw [hslot, Option.some.injEq] at hslot'
  exact hslot' ▸ hok

/-- The rows from one index on are those of the slots, whether they were cached or not. -/
theorem putProgramsFrom_ensures {grows : Nat → Bool} {index : Nat} {rest : List (Slot α)}
    {s : ProgramRows × List UInt64} (h : Accurate encode slots s.1)
    (hrest : slots.drop index = rest) :
    (putProgramsFrom encode grows index rest).Ensures s
      (fun _ s' => Accurate encode slots s'.1 ∧
        s'.2 = s.2 ++ rest.flatMap fun slot => framed (slotRow encode slot))
      (fun _ s' => Accurate encode slots s'.1 ∧ ∃ index, grows index = false) := by
  induction rest generalizing index s with
  | nil =>
    refine .pure ⟨h, ?_⟩
    rw [List.flatMap_nil, List.append_nil]
  | cons slot rest ih =>
    have hslot : slots[index]? = some slot := by
      rw [← List.head?_drop, hrest]
      rfl
    have hnext : slots.drop (index + 1) = rest := by
      rw [← List.drop_drop, hrest]
      rfl
    have hrow := encodedProgram_words (h.cached hslot)
    have hset := h.set hslot (hrow ▸ rowOk_encodedProgram)
    refine .read_bind (.update_bind (.lift_bind (fun _ _ => ?_) fun _ hfail => ?_))
    · refine .update_bind ((ih hset hnext).imp (fun _ s' hs' => ⟨hs'.1, ?_⟩) fun _ _ hs' => hs')
      rw [hs'.2, hrow, List.flatMap_cons, List.append_assoc]
    · exact ⟨hset, index, (failIf_eq_error.mp hfail).1⟩

/-- The rows of a category are those of its slots. -/
theorem putPrograms_ensures (reserves : Bool) (grows : Nat → Bool)
    {s : ProgramRows × List UInt64} (h : Accurate encode slots s.1) :
    (putPrograms encode reserves grows slots).Ensures s
      (fun _ s' => Accurate encode slots s'.1 ∧ s'.2 = s.2 ++ rows (slotRow encode) slots)
      (fun _ s' => Accurate encode slots s'.1 ∧
        (reserves = false ∨ ∃ index, grows index = false)) := by
  refine .read_bind (.lift_bind (fun _ _ => ?_) fun _ hfail => ?_)
  · refine .update_bind (.update_bind ?_)
    refine (putProgramsFrom_ensures (h.append_none _) rfl).imp (fun _ s' hs' => ⟨hs'.1, ?_⟩)
      fun _ _ hs' => ⟨hs'.1, .inr hs'.2⟩
    rw [hs'.2, List.append_assoc]
    rfl
  · exact ⟨h, .inl (failIf_eq_error.mp hfail).1.2⟩

end Accurate

/-! ## Sound snapshots -/

/-- The cached rows of every category are accurate. -/
def AllAccurate (E : Encoders) (T : ResourceTable) (programs : Category → ProgramRows) : Prop :=
  ∀ c, Accurate (E.slot c) (T.pools c).slots (programs c)

/-- What holds of a table between its calls. -/
structure SnapshotSound (E : Encoders) (T : ResourceTable) : Prop where
  programs : AllAccurate E T T.abi.encodedPrograms
  revision_le : T.abi.snapshot.1 ≤ T.abi.revision
  current : T.abi.snapshot.1 = T.abi.revision → T.abi.snapshot.2 = uncached E T

section Sound

variable {E : Encoders} {T T' : ResourceTable} {s : Pass}

theorem putCategory_ensures {A : SnapshotAllocator} (c : Category) (h : AllAccurate E T s.1) :
    (putCategory E A T c).Ensures s
      (fun _ s' => AllAccurate E T s'.1 ∧ s'.2 = s.2 ++ slotRows E T c)
      (fun _ s' => AllAccurate E T s'.1 ∧ A.Fails) := by
  have hput := putPrograms_ensures (A.rows c) (A.words c) (s := (s.1 c, s.2)) (h c)
  have hupdate : ∀ {cache : ProgramRows}, Accurate (E.slot c) (T.pools c).slots cache →
      AllAccurate E T (Function.update s.1 c cache) := by
    intro cache hcache c'
    by_cases hc : c' = c
    · subst hc
      rwa [Function.update_self]
    · rw [Function.update_of_ne hc]
      exact h c'
  refine Ensures.zoom hput (fun _ p hp => ?_) fun _ p hp => ?_
  · exact ⟨hupdate hp.1, hp.2⟩
  · exact ⟨hupdate hp.1, .inr ⟨c, hp.2⟩⟩

theorem encodeTable_ensures {A : SnapshotAllocator} (h : AllAccurate E T s.1) :
    (encodeTable E A T).Ensures s
      (fun _ s' => AllAccurate E T s'.1 ∧ s'.2 = uncached E T)
      (fun _ s' => AllAccurate E T s'.1 ∧ A.Fails) := by
  refine .update_bind (.lift_bind (fun _ _ => ?_) fun _ hfail => ?_)
  rotate_left
  · exact ⟨h, .inl (failIf_eq_error.mp hfail).1⟩
  refine .update_bind (.update_bind (.update_bind (.update_bind (.update_bind ?_))))
  refine Ensures.bind (putCategory_ensures .shaderModule ?_) fun _ s₁ h₁ => ?_
  · exact h
  refine .update_bind (Ensures.bind (putCategory_ensures .computePipeline ?_) fun _ s₂ h₂ => ?_)
  · exact h₁.1
  refine (putCategory_ensures .programmablePipeline h₂.1).imp (fun _ s₃ h₃ => ⟨h₃.1, ?_⟩)
    fun _ _ h₃ => h₃
  rw [h₃.2, h₂.2, h₁.2]
  rfl

/-- Only what a snapshot caches may differ. -/
def Kept (T T' : ResourceTable) : Prop :=
  ∃ snapshot programs,
    T' = { T with abi := { T.abi with snapshot := snapshot, encodedPrograms := programs } }

theorem Kept.consistent (h : Kept T T') (consistent : T.Consistent) : T'.Consistent := by
  obtain ⟨snapshot, programs, rfl⟩ := h
  exact ⟨consistent.pools, consistent.shaders, consistent.samplers, consistent.pipelines⟩

/-- A snapshot is the uncached one, and fails only when a reservation does. -/
theorem abiSnapshot_ensures {A : SnapshotAllocator} (h : SnapshotSound E T) :
    (abiSnapshot E A).Ensures T
      (fun words T' => words = uncached E T ∧ SnapshotSound E T' ∧ Kept T T')
      (fun _ T' => SnapshotSound E T' ∧ Kept T T' ∧ A.Fails) := by
  refine .read_bind ?_
  split
  · rename_i hold
    have hpass := encodeTable_ensures (A := A) (s := (T.abi.encodedPrograms, T.abi.snapshot.2))
      h.programs
    have hzoom : (zoom (fun T : ResourceTable => (T.abi.encodedPrograms, T.abi.snapshot.2)) setPass
        (encodeTable E A T)).Ensures T
        (fun _ T' => ∃ s : Pass, T' = setPass T s ∧ AllAccurate E T s.1 ∧ s.2 = uncached E T)
        (fun _ T' => SnapshotSound E T' ∧ Kept T T' ∧ A.Fails) := by
      refine Ensures.zoom hpass (fun _ s hs => ⟨s, rfl, hs⟩) fun _ s hs => ?_
      exact ⟨⟨hs.1, h.revision_le, fun heq => absurd heq hold⟩, ⟨_, _, rfl⟩, hs.2⟩
    refine Ensures.bind hzoom fun _ T' hT' => ?_
    obtain ⟨s, rfl, hprograms, hwords⟩ := hT'
    refine .update_bind (.read_bind (.pure ⟨hwords, ⟨hprograms, Nat.le_refl _, ?_⟩, _, _, rfl⟩))
    exact fun _ => hwords
  · rename_i hsame
    exact .pure ⟨h.current (not_not.mp hsame), h, _, _, rfl⟩

/-- Every define and release advances the revision and leaves the rest of the state. -/
theorem tableChange_abi {r : Option AnyId} (h : TableChange T r T') :
    T'.abi = { T.abi with revision := T.abi.revision + 1 } := by
  cases h <;> rfl

/-- A define or release leaves no current snapshot behind. -/
theorem SnapshotSound.changed {r : Option AnyId} (h : SnapshotSound E T) (change : TableChange T r T')
    (consistent : T.Consistent) : SnapshotSound E T' := by
  have habi := tableChange_abi change
  have hle := h.revision_le
  refine ⟨fun c => ?_, ?_, ?_⟩
  · rw [habi]
    exact (h.programs c).mono ((change.evolves consistent).pools c)
  · rw [habi]
    exact Nat.le_succ_of_le hle
  · rw [habi]
    intro heq
    dsimp only at heq
    omega

end Sound

/-! ## Every sequence of calls -/

/-- A define, a release or a snapshot, with what the allocator answers. -/
inductive SnapshotCall where
  | call (alloc : Bool) (op : TableOp)
  | snapshot (A : SnapshotAllocator)

/-- Make one call, whatever its outcome. -/
def SnapshotCall.run (E : Encoders) (T : ResourceTable) : SnapshotCall → ResourceTable
  | .call alloc op => (op.run alloc T).2
  | .snapshot A => (abiSnapshot E A T).2

/-- Make a sequence of calls. -/
def runSnapshotCalls (E : Encoders) (T : ResourceTable) (calls : List SnapshotCall) :
    ResourceTable := calls.foldl (SnapshotCall.run E) T

section Runs

variable {E : Encoders} {T : ResourceTable}

theorem SnapshotSound.new (id : UInt64) (id_ne : id ≠ 0) :
    SnapshotSound E (ResourceTable.new id id_ne) where
  programs _ := accurate_nil
  revision_le := Nat.zero_le _
  current h := absurd h Nat.zero_ne_one

theorem SnapshotSound.run (h : SnapshotSound E T) (consistent : T.Consistent)
    (call : SnapshotCall) :
    SnapshotSound E (call.run E T) ∧ (call.run E T).Consistent := by
  cases call with
  | call alloc op =>
    show SnapshotSound E (op.run alloc T).2 ∧ (op.run alloc T).2.Consistent
    match hrun : op.run alloc T with
    | (.ok r, T') =>
      have change := TableOp.run_ok hrun
      exact ⟨h.changed change consistent, change.consistent consistent⟩
    | (.error e, T') =>
      rw [(TableOp.run_atomic alloc op).unchanged hrun]
      exact ⟨h, consistent⟩
  | snapshot A =>
    have hstate := ((abiSnapshot_ensures h (A := A)).imp (fun _ _ hs => hs.2)
      fun _ _ hs => ⟨hs.1, hs.2.1⟩).state
    exact ⟨hstate.1, hstate.2.consistent consistent⟩

theorem SnapshotSound.runs (h : SnapshotSound E T) (consistent : T.Consistent)
    (calls : List SnapshotCall) : SnapshotSound E (runSnapshotCalls E T calls) := by
  induction calls generalizing T with
  | nil => exact h
  | cons call rest ih =>
    obtain ⟨hrun, hconsistent⟩ := h.run consistent call
    exact ih hrun hconsistent

end Runs

/-- After every sequence of define, release and snapshot calls, the words of a snapshot are the
uncached encoding of the table, and there are words unless a reservation fails. -/
theorem abiSnapshot_eq_uncached (E : Encoders) (id : UInt64) (id_ne : id ≠ 0)
    (calls : List SnapshotCall) (A : SnapshotAllocator) :
    let T := runSnapshotCalls E (ResourceTable.new id id_ne) calls
    (∀ words, (abiSnapshot E A T).1 = .ok words → words = uncached E T) ∧
      (∀ e, (abiSnapshot E A T).1 = .error e → A.Fails) ∧
      uncached E (abiSnapshot E A T).2 = uncached E T := by
  intro T
  have hsound : SnapshotSound E T :=
    (SnapshotSound.new id id_ne).runs (ResourceTable.new_consistent id id_ne) calls
  have hsnapshot := abiSnapshot_ensures (A := A) hsound
  refine ⟨fun words hwords => ?_, fun e herror => ?_, ?_⟩
  · exact (hsnapshot.of_eq_ok (Prod.ext hwords rfl)).1
  · exact (hsnapshot.of_eq_error (Prod.ext herror rfl)).2.2
  · have hkept := (hsnapshot.imp (fun _ _ hs => hs.2.2) fun _ _ hs => hs.2.1).state
    obtain ⟨snapshot, programs, heq⟩ := hkept
    rw [heq]
    rfl

/-- Encoders of tables whose only rows are buffers. -/
def bufferEncoders : Encoders where
  slot
    | .buffer, d => [d.size]
    | _, _ => []
  sampler := fun _ => []
  pipeline := fun _ => []

theorem snapshotOwner_ne : (7 : UInt64) ≠ 0 := by decide

/-- An allocator that never fails. -/
def plenty : SnapshotAllocator := ⟨true, fun _ => true, fun _ _ => true⟩

/-- A snapshot is taken a second time without a change. -/
theorem abiSnapshot_eq_uncached_twice :
    let T := runSnapshotCalls bufferEncoders (ResourceTable.new 7 snapshotOwner_ne)
      [.snapshot plenty]
    uncached bufferEncoders (abiSnapshot bufferEncoders plenty T).2 = uncached bufferEncoders T :=
  (abiSnapshot_eq_uncached bufferEncoders 7 snapshotOwner_ne [.snapshot plenty] plenty).2.2

end Sgfx.Abi
