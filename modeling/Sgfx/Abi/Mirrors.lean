import Sgfx.Abi.Snapshots

/-!
# Mirrors of a table

A backend keeps a table of its own and applies the snapshots of a caller's table to it.  A row
of a generation that the mirror already has is not decoded: it must be the row that was
accepted for that generation, or, where none is remembered, the encoding of the descriptor.
Snapshots in the older format append programs without generations.

The codecs of the descriptors are parameters.  A decoder reads nothing of the mirror but its
contents: its identity, its descriptors and their generations, and the format.

## Main Definitions

* `Contents`, `Codecs` — what decoders read
* `syncRow`, `syncSlots`, `syncProgramSlots`, `appendRows` — the sections of a snapshot
* `syncAbiSnapshot`

With `remembers = false` the accepted rows are always forgotten.
-/

namespace Sgfx.Abi

open Fallible

/-! ## Contents -/

/-- The occupants of the slots of one category, with their generations. -/
abbrev Occupants (c : Category) := List (UInt64 × Option (Descriptor c))

/-- What decoders read of a mirror. -/
structure Contents where
  id : UInt64
  legacyProgramIds : Bool
  slots : (c : Category) → Occupants c
  samplers : List SamplerDesc
  pipelines : List RenderPipelineDesc

/-- A slot without its place in the free list. -/
def slotContent {α : Type} (slot : Slot α) : UInt64 × Option α := (slot.generation, slot.descriptor)

def contentsOf (T : ResourceTable) : Contents where
  id := T.id
  legacyProgramIds := T.abi.legacyProgramIds
  slots c := (T.pools c).slots.map slotContent
  samplers := T.samplers
  pipelines := T.pipelines

/-- The decodings of the descriptors. -/
structure Decoders where
  slot : (c : Category) → Contents → Reader UInt64 Error (Descriptor c)
  sampler : Contents → Reader UInt64 Error SamplerDesc
  pipeline : Contents → Reader UInt64 Error RenderPipelineDesc

structure Codecs where
  put : Encoders
  get : Decoders

/-! ## Rows -/

section Rows

variable {α : Type}

/-- A row: its length, and as many words. -/
def readFrame : Reader UInt64 Error (List UInt64) := do
  let len ← usize.get
  Reader.take len .invalidDescriptor

/-- `T::get(&mut fields)` and `fields.end()`. -/
def decodeWhole (get : Reader UInt64 Error α) (row : List UInt64) : Except Error α :=
  match get row with
  | (.ok a, []) => .ok a
  | (.ok _, _ :: _) => .error .invalidDescriptor
  | (.error e, _) => .error e

/-- `Codec::get` of a slot. -/
def getSlot (get : Reader UInt64 Error α) : Reader UInt64 Error (Slot α) := do
  let generation ← u64.get
  if ← bool.get then
    let descriptor ← get
    pure ⟨some descriptor, generation, none⟩
  else
    pure ⟨none, generation, none⟩

/-- `RowCache::compare`. -/
def rowCompare (cache : RowCache) (index : Nat) (generation : UInt64) (row : List UInt64) :
    Option Bool :=
  match cache[index]? with
  | some (some accepted) =>
    if accepted.generation ≠ generation then none else some (accepted.words = row)
  | _ => none

/-- `RowCache::accept`. -/
def rowAccept (cache : RowCache) (index : Nat) (generation : UInt64) (row : List UInt64) :
    RowCache :=
  (cache ++ List.replicate (index + 1 - cache.length) none).set index (some ⟨generation, row⟩)

/-- What is done with a row: nothing, remember it, or decode it. -/
inductive RowVerdict where
  | keep
  | remember
  | decode
deriving DecidableEq

/-- What is done with a row of a generation that its slot has. -/
def sameGeneration (encode : α → List UInt64) (old : Slot α) (row : List UInt64) :
    Option Bool → Except Error RowVerdict
  | some true => .ok .keep
  | some false => if old.descriptor.isSome then .error .invalidDescriptor else .ok .decode
  | none =>
    if old.descriptor.isSome then
      if slotRow encode old ≠ row then .error .invalidDescriptor else .ok .remember
    else .ok .decode

/-- What is done with a row. -/
def rowVerdict (encode : α → List UInt64) (old : Option (Slot α)) (generation : UInt64)
    (row : List UInt64) (compared : Option Bool) : Except Error RowVerdict :=
  match old with
  | none => .ok .decode
  | some old =>
    if generation < old.generation then .error .invalidDescriptor
    else if generation = old.generation then sameGeneration encode old row compared
    else .ok .decode

/-- Put a slot at an index, or at the end. -/
def putSlot (slots : List (Slot α)) (index : Nat) (slot : Slot α) : List (Slot α) :=
  if index < slots.length then slots.set index slot else slots ++ [slot]

end Rows

/-! ## Sections -/

/-- The words that are left of a snapshot, and the mirror. -/
structure Sync where
  words : List UInt64
  table : ResourceTable

variable {α : Type}

/-- Read words. -/
def onWords (m : Reader UInt64 Error α) : Fallible Sync Error α :=
  zoom Sync.words (fun s words => { s with words := words }) m

/-- Write to the mirror. -/
def onTable (f : ResourceTable → ResourceTable) : Fallible Sync Error Unit :=
  update fun s => { s with table := f s.table }

/-- Write the slots of a category. -/
def setSlots (c : Category) (f : List (Slot (Descriptor c)) → List (Slot (Descriptor c)))
    (T : ResourceTable) : ResourceTable :=
  T.setPool c ⟨f (T.pools c).slots, (T.pools c).free⟩

/-- Remember a row, or not. -/
def acceptRow (remembers : Bool) (c : Category) (index : Nat) (generation : UInt64)
    (row : List UInt64) (T : ResourceTable) : ResourceTable :=
  if remembers then
    { T with abi := { T.abi with
      acceptedRows := Function.update T.abi.acceptedRows c
        (rowAccept (T.abi.acceptedRows c) index generation row) } }
  else T

section Sections

variable (C : Codecs) (remembers : Bool) (c : Category)

/-- Decode a row into its slot. -/
def decodeRow (index : Nat) (generation : UInt64) (row : List UInt64) :
    Fallible Sync Error Unit := do
  let s ← read
  let slot ← liftM (decodeWhole (getSlot (C.get.slot c (contentsOf s.table))) row)
  onTable (setSlots c fun slots => putSlot slots index slot)
  onTable (acceptRow remembers c index generation row)

/-- One turn of `sync_slots`. -/
def syncRow (index : Nat) : Fallible Sync Error Unit := do
  let row ← onWords readFrame
  let generation ← liftM (okOr row.head? Error.invalidDescriptor)
  let s ← read
  let compared := rowCompare (s.table.abi.acceptedRows c) index generation row
  let verdict ← liftM
    (rowVerdict (C.put.slot c) (s.table.pools c).slots[index]? generation row compared)
  match verdict with
  | .keep => pure ()
  | .remember => onTable (acceptRow remembers c index generation row)
  | .decode => decodeRow C remembers c index generation row

/-- Some turns of a section, from one index on. -/
def turns (turn : Nat → Fallible Sync Error Unit) : (count index : Nat) → Fallible Sync Error Unit
  | 0, _ => pure ()
  | count + 1, index => do
    turn index
    turns turn count (index + 1)

/-- The number of rows of a section: at least those that are there, and not too many. -/
def readCount (existing maximum : Nat) : Fallible Sync Error Nat := do
  let count ← onWords usize.get
  liftM (failIf (count < existing ∨ maximum < count) Error.resourceLimitExceeded)
  pure count

/-- `sync_slots`. -/
def syncSlots : Fallible Sync Error Unit := do
  let s ← read
  let count ← readCount (s.table.pools c).slots.length c.maximum
  turns (syncRow C remembers c) count 0

instance : DecidableEq (Descriptor c) :=
  match c with
  | .texture => inferInstanceAs (DecidableEq TextureDesc)
  | .buffer => inferInstanceAs (DecidableEq BufferDesc)
  | .bindGroup => inferInstanceAs (DecidableEq BindGroupDesc)
  | .shaderModule => inferInstanceAs (DecidableEq ShaderModuleDesc)
  | .computePipeline => inferInstanceAs (DecidableEq ComputePipelineDesc)
  | .programmablePipeline => inferInstanceAs (DecidableEq ProgrammableRenderPipelineDesc)

/-- A row without a generation agrees with its slot, if there is one. -/
def legacyVerdict (old : Option (Slot (Descriptor c))) (d : Descriptor c) : Except Error Unit :=
  match old with
  | none => .ok ()
  | some old => failIf (old.generation ≠ 0 ∨ old.descriptor ≠ some d) .invalidDescriptor

/-- One turn of the older format. -/
def legacyRow (index : Nat) : Fallible Sync Error Unit := do
  let row ← onWords readFrame
  let s ← read
  let d ← liftM (decodeWhole (C.get.slot c (contentsOf s.table)) row)
  liftM (legacyVerdict c (s.table.pools c).slots[index]? d)
  onTable (setSlots c fun slots =>
    if index < slots.length then slots else slots ++ [⟨some d, 0, none⟩])

/-- `sync_program_slots`. -/
def syncProgramSlots : Fallible Sync Error Unit := do
  let s ← read
  if s.table.abi.legacyProgramIds then do
    let count ← readCount (s.table.pools c).slots.length (min c.maximum 256)
    turns (legacyRow C c) count 0
  else syncSlots C remembers c

/-- One turn of `append_abi_rows`. -/
def appendRow (existing : Nat) (get : Contents → Reader UInt64 Error α)
    (append : α → Fallible ResourceTable Error Unit) (index : Nat) : Fallible Sync Error Unit := do
  let row ← onWords readFrame
  if existing ≤ index then do
    let s ← read
    let value ← liftM (decodeWhole (get (contentsOf s.table)) row)
    zoom Sync.table (fun s T => { s with table := T }) (append value)
  else pure ()

/-- `append_abi_rows`. -/
def appendRows (existing maximum : Nat) (get : Contents → Reader UInt64 Error α)
    (append : α → Fallible ResourceTable Error Unit) : Fallible Sync Error Unit := do
  let count ← readCount existing maximum
  turns (appendRow existing get append) count 0

/-- Append a sampler. -/
def defineSampler (d : SamplerDesc) : Fallible ResourceTable Error Unit := do
  let _ ← ResourceTable.defineSampler true d
  pure ()

/-- Append a fixed-function pipeline. -/
def defineRenderPipeline (d : RenderPipelineDesc) : Fallible ResourceTable Error Unit := do
  let _ ← ResourceTable.defineRenderPipeline true d
  pure ()

def syncSamplers : Fallible Sync Error Unit := do
  let s ← read
  appendRows s.table.samplers.length MAX_SAMPLERS C.get.sampler defineSampler

def syncPipelines : Fallible Sync Error Unit := do
  let s ← read
  appendRows s.table.pipelines.length MAX_RENDER_PIPELINES C.get.pipeline defineRenderPipeline

end Sections

/-! ## Whole snapshots -/

/-- The occupied slots of a category name live shader modules. -/
def checkShaders (c : Category) (T : ResourceTable) : Except Error Unit :=
  forEach (T.pools c).slots fun slot =>
    forEach ((slot.descriptor.map (shadersOf c)).getD []) fun m => (T.ref m).map fun _ => ()

/-- `rebuild_program_free_list`, from one index on: the vacant slots in order. -/
def rebuildFrom : Nat → List (Slot α) → List (Slot α) × Option Nat
  | _, [] => ([], none)
  | index, slot :: rest =>
    let later := rebuildFrom (index + 1) rest
    if slot.descriptor.isSome then ({ slot with nextFree := none } :: later.1, later.2)
    else ({ slot with nextFree := later.2 } :: later.1, some index)

/-- `rebuild_program_free_list`. -/
def rebuildFreeList (c : Category) (T : ResourceTable) : ResourceTable :=
  let rebuilt := rebuildFrom 0 (T.pools c).slots
  T.setPool c ⟨rebuilt.1, rebuilt.2⟩

def setLegacy (legacy : Bool) (T : ResourceTable) : ResourceTable :=
  { T with abi := { T.abi with legacyProgramIds := legacy } }

/-- The header of a snapshot: its format, its table and its revision. -/
def readHeader : Fallible Sync Error (UInt64 × UInt64) := do
  let magic ← onWords word
  liftM (failIf (magic ≠ MAGIC ∧ magic ≠ LEGACY_MAGIC) Error.invalidDescriptor)
  onTable (setLegacy (magic = LEGACY_MAGIC))
  let source ← onWords word
  let revision ← onWords word
  liftM (failIf (source = 0 ∨ revision = 0) Error.invalidDescriptor)
  pure (source, revision)

/-- The sections of a snapshot. -/
def syncSections (C : Codecs) (remembers : Bool) : Fallible Sync Error Unit := do
  syncSlots C remembers .texture
  syncSlots C remembers .buffer
  syncSamplers C
  syncPipelines C
  syncProgramSlots C remembers .shaderModule
  syncSlots C remembers .bindGroup
  syncProgramSlots C remembers .computePipeline
  syncProgramSlots C remembers .programmablePipeline

/-- `r.end()` and what follows. -/
def finishSync : Fallible Sync Error Unit := do
  let s ← read
  liftM (failIf (s.words ≠ []) Error.invalidDescriptor)
  liftM (checkShaders .computePipeline s.table)
  liftM (checkShaders .programmablePipeline s.table)
  onTable (rebuildFreeList .shaderModule)
  onTable (rebuildFreeList .computePipeline)
  onTable (rebuildFreeList .programmablePipeline)

/-- `sync_abi_snapshot`, on the words that are read. -/
def sync (C : Codecs) (remembers : Bool) : Fallible Sync Error (UInt64 × UInt64) := do
  let answer ← readHeader
  syncSections C remembers
  finishSync
  pure answer

/-- `sync_abi_snapshot`. -/
def syncAbiSnapshot (C : Codecs) (remembers : Bool) (words : List UInt64) :
    Fallible ResourceTable Error (UInt64 × UInt64) := fun T =>
  ((sync C remembers ⟨words, T⟩).1, (sync C remembers ⟨words, T⟩).2.table)

end Sgfx.Abi
