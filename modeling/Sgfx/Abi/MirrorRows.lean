import Sgfx.Abi.BindGroups
import Sgfx.Abi.MirrorCaches

/-!
# Mirrors that follow a table

The slots of a mirror hold what the slots of the table held when its snapshot was taken, with the
identities of the mirror, and it has accepted the rows of all of them.  Slots only move on: when the
next snapshot comes, a row is that of the mirror's slot, and is kept, or it is decoded.

## Main Definitions

* `retarget` — a descriptor with the identities of another table
* `Holds` — a category of a mirror and the slots that it follows
* `Later`, `HeldAt`

## Main Results

* `syncRow_later`, `syncRow_decodes` — one row
* `syncSlots_later`, `syncSlots_decodes` — one section
-/

namespace Sgfx

def ShaderEntryPoint.retarget (owner : UInt64) (e : ShaderEntryPoint) : ShaderEntryPoint :=
  { e with module := e.module.retarget owner }

def ComputePipelineDesc.retarget (owner : UInt64) (d : ComputePipelineDesc) :
    ComputePipelineDesc where
  shader := d.shader.retarget owner
  layout := d.layout
  stage := d.stage

def ProgrammableRenderPipelineDesc.retarget (owner : UInt64) (d : ProgrammableRenderPipelineDesc) :
    ProgrammableRenderPipelineDesc :=
  { d with
    vertex := d.vertex.retarget owner
    fragment := d.fragment.retarget owner
    valid := d.valid }

namespace Abi

open Fallible

/-- The descriptor with the identities of another table. -/
def retarget : (c : Category) → UInt64 → Descriptor c → Descriptor c
  | .texture, _, d => d
  | .buffer, _, d => d
  | .shaderModule, _, d => d
  | .bindGroup, owner, d => BindGroupDesc.retarget owner d
  | .computePipeline, owner, d => ComputePipelineDesc.retarget owner d
  | .programmablePipeline, owner, d => ProgrammableRenderPipelineDesc.retarget owner d

/-- What a mirror holds for a slot. -/
def mirrored (c : Category) (owner : UInt64) (slot : Slot (Descriptor c)) :
    UInt64 × Option (Descriptor c) :=
  (slot.generation, slot.descriptor.map (retarget c owner))

/-- A category of a mirror follows some slots, and has accepted their rows. -/
structure Holds (C : Codecs) (c : Category) (slots : List (Slot (Descriptor c)))
    (M : ResourceTable) : Prop where
  contents : (M.pools c).slots.map slotContent = slots.map (mirrored c M.id)
  rows : ∀ (i : Nat) (slot : Slot (Descriptor c)), slots[i]? = some slot →
    (M.abi.acceptedRows c)[i]? =
      some (some ⟨slot.generation, slotRow (C.put.slot c) slot⟩)

/-- What becomes of a slot: another generation, or the same one, with its descriptor. -/
def Later {α : Type} (old new : Slot α) : Prop :=
  old.generation < new.generation ∨
    old.generation = new.generation ∧ ∀ d, old.descriptor = some d → new.descriptor = some d

/-- The slot is there already. -/
def HeldAt {α : Type} (slots : List (Slot α)) (index : Nat) (slot : Slot α) : Prop :=
  ∃ old, slots[index]? = some old ∧ slotContent old = slotContent slot

/-- The row of a slot is decoded. -/
def Decodes (C : Codecs) (c : Category) (K : Contents) (slot : Slot (Descriptor c)) : Prop :=
  ∀ d ∈ slot.descriptor, C.get.slot c K (C.put.slot c d) = (.ok (retarget c K.id d), [])

/-! ## Rows of slots -/

section Rows

variable {α : Type} {encode : α → List UInt64} {get : Reader UInt64 Error α} {f : α → α}
  {old new slot slot' : Slot α} {cache : RowCache} {index : Nat}

theorem readFrame_framed {row : List UInt64} (fits : row.length < 2 ^ 64) :
    Reads readFrame (framed row) row := by
  show Reads readFrame (usize.put row.length ++ row) row
  exact Reads.bind (usize_readsBack fits) .take

/-- A row is decoded to its slot. -/
theorem decodeWhole_slotRow (h : ∀ d ∈ slot.descriptor, get (encode d) = (.ok (f d), [])) :
    decodeWhole (getSlot get) (slotRow encode slot) =
      .ok ⟨slot.descriptor.map f, slot.generation, none⟩ := by
  cases occupant : slot.descriptor with
  | none => exact decodeWhole_vacant occupant
  | some d =>
    rw [decodeWhole_eq_ok]
    have row : slotRow encode slot = slot.generation :: (bool.put true ++ encode d) := by
      unfold slotRow
      rw [occupant]
      rfl
    rw [row]
    refine bind_eq_ok.mpr ⟨slot.generation, bool.put true ++ encode d, rfl, ?_⟩
    refine bind_eq_ok.mpr ⟨true, encode d, bool_readsBack true _, ?_⟩
    exact bind_eq_ok.mpr ⟨f d, [], h d occupant, rfl⟩

/-- The descriptor of a row that is decoded is. -/
theorem get_of_decodeWhole (h : decodeWhole (getSlot get) (slotRow encode slot) = .ok slot') :
    ∀ d ∈ slot.descriptor, ∃ a, get (encode d) = (.ok a, []) := by
  intro d occupant
  rw [decodeWhole_eq_ok] at h
  have row : slotRow encode slot = slot.generation :: (bool.put true ++ encode d) := by
    unfold slotRow
    rw [show slot.descriptor = some d from occupant]
    rfl
  rw [row] at h
  obtain ⟨generation, rest, first, h⟩ := bind_eq_ok.mp h
  cases first
  obtain ⟨flag, rest, second, h⟩ := bind_eq_ok.mp h
  rw [bool_readsBack true] at second
  cases second
  obtain ⟨a, rest, third, h⟩ := bind_eq_ok.mp h
  cases h
  exact ⟨a, third⟩

/-- A cached row is compared with the row of the same generation. -/
theorem rowCompare_cached (cached : cache[index]? = some (some ⟨old.generation, slotRow encode old⟩)) :
    rowCompare cache index new.generation (slotRow encode new) =
      if old.generation ≠ new.generation then none
      else some (decide (slotRow encode old = slotRow encode new)) := by
  unfold rowCompare
  rw [cached]

/-- What the mirror has for a slot: its generation, and whether it is occupied. -/
structure SameState (old slot : Slot α) : Prop where
  generation : slot.generation = old.generation
  occupied : slot.descriptor.isSome = old.descriptor.isSome

/-- A row that the mirror has accepted is kept. -/
theorem rowVerdict_held (state : SameState old slot)
    (cached : cache[index]? = some (some ⟨old.generation, slotRow encode old⟩))
    (held : slotContent old = slotContent new) :
    rowVerdict encode (some slot) new.generation (slotRow encode new)
      (rowCompare cache index new.generation (slotRow encode new)) = .ok .keep := by
  obtain ⟨generation, -⟩ := Prod.mk.inj held
  have equal : slotRow encode old = slotRow encode new := slotRow_congr held
  rw [rowCompare_cached cached, if_neg (not_not.mpr generation), decide_eq_true equal]
  unfold rowVerdict
  dsimp only
  rw [state.generation, generation, if_neg (UInt64.lt_irrefl _), if_pos rfl]
  rfl

/-- Another row is decoded. -/
theorem rowVerdict_later (state : SameState old slot)
    (cached : cache[index]? = some (some ⟨old.generation, slotRow encode old⟩))
    (later : Later old new) (other : slotContent old ≠ slotContent new) :
    rowVerdict encode (some slot) new.generation (slotRow encode new)
      (rowCompare cache index new.generation (slotRow encode new)) = .ok .decode := by
  rw [rowCompare_cached cached]
  unfold rowVerdict
  dsimp only
  rw [state.generation]
  rcases later with less | ⟨generation, keeps⟩
  · have different : new.generation ≠ old.generation := by
      intro same
      rw [same] at less
      exact UInt64.lt_irrefl _ less
    rw [if_neg (UInt64.not_lt.mpr (UInt64.le_of_lt less)), if_neg different]
  · -- The slot was vacant and is occupied now.
    have vacant : old.descriptor = none := by
      cases occupant : old.descriptor with
      | none => rfl
      | some d => exact absurd (Prod.ext generation (occupant.trans (keeps d occupant).symm)) other
    have occupied : new.descriptor ≠ none := fun none =>
      other (Prod.ext generation (vacant.trans none.symm))
    obtain ⟨d, occupant⟩ := Option.ne_none_iff_exists'.mp occupied
    have different : slotRow encode old ≠ slotRow encode new := by
      unfold slotRow
      rw [vacant, occupant]
      intro same
      have flags : (0 : UInt64) = 1 := (List.cons.inj (List.cons.inj same).2).1
      exact absurd flags (by decide)
    rw [if_neg (not_not.mpr generation), decide_eq_false different, generation,
      if_neg (UInt64.lt_irrefl _), if_pos rfl]
    show (if slot.descriptor.isSome = true then _ else _) = _
    rw [state.occupied, vacant]
    rfl

end Rows

/-! ## One row -/

section Turn

variable {C : Codecs} {c : Category} {index : Nat} {slots : List (Slot (Descriptor c))}
  {slot : Slot (Descriptor c)} {s s' : Sync} {rest : List UInt64} {M : ResourceTable}

theorem Holds.length (h : Holds C c slots M) : (M.pools c).slots.length = slots.length := by
  have length := congrArg List.length h.contents
  rwa [List.length_map, List.length_map] at length

/-- What the mirror has at an index. -/
theorem Holds.getElem? (h : Holds C c slots M) (index : Nat) :
    (M.pools c).slots[index]?.map slotContent = slots[index]?.map (mirrored c M.id) := by
  have same := congrArg (·[index]?) h.contents
  rwa [List.getElem?_map, List.getElem?_map] at same

theorem Holds.some (h : Holds C c slots M) {old : Slot (Descriptor c)}
    (here : slots[index]? = some old) :
    ∃ held, (M.pools c).slots[index]? = some held ∧ slotContent held = mirrored c M.id old ∧
      SameState old held := by
  have same := h.getElem? index
  rw [here] at same
  obtain ⟨held, hheld, content⟩ := Option.map_eq_some_iff.mp same
  obtain ⟨generation, descriptor⟩ := Prod.mk.inj content
  exact ⟨held, hheld, content, generation, by rw [descriptor, Option.isSome_map]⟩

theorem mirrored_congr {owner : UInt64} {old : Slot (Descriptor c)}
    (h : slotContent old = slotContent slot) : mirrored c owner old = mirrored c owner slot := by
  obtain ⟨generation, descriptor⟩ := Prod.mk.inj h
  unfold mirrored
  rw [generation, descriptor]

theorem putSlot_map {α β : Type} {f : Slot α → β} {slots : List (Slot α)} {slot : Slot α} :
    (putSlot slots index slot).map f =
      if index < slots.length then (slots.map f).set index (f slot)
      else slots.map f ++ [f slot] := by
  unfold putSlot
  split
  · rw [List.map_set]
  · rw [List.map_append, List.map_singleton]

/-- A slot that the mirror has already. -/
theorem Holds.keep (h : Holds C c slots M) (held : HeldAt slots index slot) :
    Holds C c (putSlot slots index slot) M := by
  obtain ⟨old, here, content⟩ := held
  obtain ⟨inside, found⟩ := List.getElem?_eq_some_iff.mp here
  have put : putSlot slots index slot = slots.set index slot := if_pos inside
  refine ⟨?_, fun i other at_i => ?_⟩
  · rw [h.contents, put, List.map_set, ← mirrored_congr content, ← found, ← List.map_set,
      List.set_getElem_self]
  · rw [put] at at_i
    by_cases same : index = i
    · subst same
      rw [List.getElem?_set_self inside, Option.some.injEq] at at_i
      subst at_i
      rw [h.rows index old here, slotRow_congr content, (Prod.mk.inj content).1]
    · rw [List.getElem?_set_ne same] at at_i
      exact h.rows i other at_i

theorem rowAccept_self {cache : RowCache} {generation : UInt64} {row : List UInt64} :
    (rowAccept cache index generation row)[index]? = some (some ⟨generation, row⟩) := by
  unfold rowAccept
  refine List.getElem?_set_self ?_
  rw [List.length_append, List.length_replicate]
  omega

theorem rowAccept_ne {cache : RowCache} {generation : UInt64} {row : List UInt64} {i : Nat}
    {accepted : AcceptedRow} (other : index ≠ i) (h : cache[i]? = some (some accepted)) :
    (rowAccept cache index generation row)[i]? = some (some accepted) := by
  unfold rowAccept
  rw [List.getElem?_set_ne other, List.getElem?_append_left (List.getElem?_eq_some_iff.mp h).1, h]

/-- A slot that is decoded takes its place, and its row is accepted. -/
theorem Holds.decode (h : Holds C c slots M) (index_le : index ≤ slots.length)
    {new : Slot (Descriptor c)} (content : slotContent new = mirrored c M.id slot) :
    Holds C c (putSlot slots index slot)
      (acceptRow true c index slot.generation (slotRow (C.put.slot c) slot)
        (setSlots c (fun slots => putSlot slots index new) M)) := by
  refine ⟨?_, fun i other at_i => ?_⟩
  · rw [acceptRow_pools, setSlots_slots, putSlot_map, putSlot_map, h.contents, h.length, content]
    rfl
  · rw [acceptRow_accepted]
    by_cases same : index = i
    · subst same
      rw [putSlot_self index_le, Option.some.injEq] at at_i
      subst at_i
      exact rowAccept_self
    · have inside : i < slots.length := by
        obtain ⟨inside, -⟩ := List.getElem?_eq_some_iff.mp at_i
        unfold putSlot at inside
        split at inside
        · rwa [List.length_set] at inside
        · rw [List.length_append, List.length_singleton] at inside
          omega
      rw [putSlot_ne (Ne.symm same) inside] at at_i
      exact rowAccept_ne same (h.rows i other at_i)

/-- What a turn reads and decides. -/
structure Chosen (C : Codecs) (c : Category) (index : Nat) (slot : Slot (Descriptor c))
    (s : Sync) (rest : List UInt64) (verdict : RowVerdict) : Prop where
  fits : (slotRow (C.put.slot c) slot).length < 2 ^ 64
  words : s.words = framed (slotRow (C.put.slot c) slot) ++ rest
  chosen : rowVerdict (C.put.slot c) (s.table.pools c).slots[index]? slot.generation
    (slotRow (C.put.slot c) slot) (rowCompare (s.table.abi.acceptedRows c) index slot.generation
      (slotRow (C.put.slot c) slot)) = .ok verdict

theorem Chosen.read {verdict : RowVerdict} (h : Chosen C c index slot s rest verdict) :
    onWords readFrame s = (.ok (slotRow (C.put.slot c) slot), ⟨rest, s.table⟩) := by
  refine zoom_eq_ok.mpr ⟨rest, ?_, rfl⟩
  rw [h.words]
  exact readFrame_framed h.fits rest

theorem Chosen.keep (h : Chosen C c index slot s rest .keep) :
    syncRow C true c index s = (.ok (), ⟨rest, s.table⟩) := by
  refine bind_eq_ok.mpr ⟨_, _, h.read, lift_bind_eq_ok.mpr ⟨slot.generation, rfl, ?_⟩⟩
  rw [read_bind_run]
  exact lift_bind_eq_ok.mpr ⟨.keep, h.chosen, rfl⟩

theorem Chosen.decode {slot' : Slot (Descriptor c)} (h : Chosen C c index slot s rest .decode)
    (decoded : decodeWhole (getSlot (C.get.slot c (contentsOf s.table)))
      (slotRow (C.put.slot c) slot) = .ok slot') :
    syncRow C true c index s = (.ok (), ⟨rest, acceptRow true c index slot.generation
      (slotRow (C.put.slot c) slot)
      (setSlots c (fun slots => putSlot slots index slot') s.table)⟩) := by
  refine bind_eq_ok.mpr ⟨_, _, h.read, lift_bind_eq_ok.mpr ⟨slot.generation, rfl, ?_⟩⟩
  rw [read_bind_run]
  refine lift_bind_eq_ok.mpr ⟨.decode, h.chosen, ?_⟩
  show decodeRow C true c index slot.generation (slotRow (C.put.slot c) slot) ⟨rest, s.table⟩ = _
  unfold decodeRow
  rw [read_bind_run]
  exact lift_bind_eq_ok.mpr ⟨slot', decoded, rfl⟩

theorem Chosen.decoded (h : Chosen C c index slot s rest .decode)
    (ok : syncRow C true c index s = (.ok (), s')) :
    ∃ slot', decodeWhole (getSlot (C.get.slot c (contentsOf s.table)))
      (slotRow (C.put.slot c) slot) = .ok slot' := by
  obtain ⟨row, mid, read, ok⟩ := bind_eq_ok.mp ok
  obtain ⟨rfl, rfl⟩ := Prod.mk.inj (h.read.symm.trans read) |>.imp Except.ok.inj id
  obtain ⟨generation, head, ok⟩ := lift_bind_eq_ok.mp ok
  cases head
  rw [read_bind_run] at ok
  obtain ⟨verdict, chosen, ok⟩ := lift_bind_eq_ok.mp ok
  obtain rfl := Except.ok.inj (h.chosen.symm.trans chosen)
  change decodeRow C true c index slot.generation (slotRow (C.put.slot c) slot) ⟨rest, s.table⟩ =
    (.ok (), s') at ok
  unfold decodeRow at ok
  rw [read_bind_run] at ok
  obtain ⟨slot', decoded, -⟩ := lift_bind_eq_ok.mp ok
  exact ⟨slot', decoded⟩

/-- The next row of a section, of a slot that is later than the one that the mirror follows. -/
structure NextRow (C : Codecs) (c : Category) (slots : List (Slot (Descriptor c))) (index : Nat)
    (slot : Slot (Descriptor c)) (s : Sync) (rest : List UInt64) : Prop where
  holds : Holds C c slots s.table
  index_le : index ≤ slots.length
  later : ∀ old, slots[index]? = some old → Later old slot
  fits : (slotRow (C.put.slot c) slot).length < 2 ^ 64
  words : s.words = framed (slotRow (C.put.slot c) slot) ++ rest

theorem NextRow.held (h : NextRow C c slots index slot s rest) (held : HeldAt slots index slot) :
    Chosen C c index slot s rest .keep := by
  obtain ⟨old, here, content⟩ := held
  obtain ⟨mine, hmine, -, state⟩ := h.holds.some here
  refine ⟨h.fits, h.words, ?_⟩
  rw [hmine]
  exact rowVerdict_held state (h.holds.rows index old here) content

theorem NextRow.other (h : NextRow C c slots index slot s rest) (other : ¬ HeldAt slots index slot) :
    Chosen C c index slot s rest .decode := by
  refine ⟨h.fits, h.words, ?_⟩
  cases here : slots[index]? with
  | none =>
    have mine := h.holds.getElem? index
    rw [here, Option.map_none, Option.map_eq_none_iff] at mine
    rw [mine]
    rfl
  | some old =>
    obtain ⟨mine, hmine, -, state⟩ := h.holds.some here
    rw [hmine]
    exact rowVerdict_later state (h.holds.rows index old here) (h.later old here)
      fun content => other ⟨old, here, content⟩

/-- One row: the mirror follows the slot after it. -/
theorem syncRow_later (h : NextRow C c slots index slot s rest)
    (known : HeldAt slots index slot ∨ Decodes C c (contentsOf s.table) slot) :
    ∃ M, syncRow C true c index s = (.ok (), ⟨rest, M⟩) ∧
      Holds C c (putSlot slots index slot) M ∧ SameBut c s.table M := by
  by_cases held : HeldAt slots index slot
  · exact ⟨s.table, (h.held held).keep, h.holds.keep held, .refl _⟩
  · have decoded := decodeWhole_slotRow (known.resolve_left held)
    refine ⟨_, (h.other held).decode decoded, h.holds.decode h.index_le rfl, ?_⟩
    exact (sameBut_setSlots _).trans (sameBut_acceptRow ..)

/-- A row that is accepted is that of the mirror, or is decoded. -/
theorem syncRow_decodes (h : NextRow C c slots index slot s rest)
    (ok : syncRow C true c index s = (.ok (), s')) :
    HeldAt slots index slot ∨ ∀ d ∈ slot.descriptor,
      ∃ a, C.get.slot c (contentsOf s.table) (C.put.slot c d) = (.ok a, []) := by
  by_cases held : HeldAt slots index slot
  · exact .inl held
  · obtain ⟨slot', decoded⟩ := (h.other held).decoded ok
    exact .inr (get_of_decodeWhole decoded)

end Turn

/-! ## One section -/

section Section

variable {C : Codecs} {c : Category} {old new : List (Slot (Descriptor c))} {s s' : Sync}
  {rest : List UInt64} {index : Nat}

/-- The slots that the mirror follows before a turn of a section. -/
def partway {α : Type} (old new : List (Slot α)) (index : Nat) : List (Slot α) :=
  new.take index ++ old.drop index

theorem partway_getElem? {α : Type} {old new : List (Slot α)} (inside : index ≤ new.length) :
    (partway old new index)[index]? = old[index]? := by
  unfold partway
  rw [List.getElem?_append_right (by rw [List.length_take]; omega), List.length_take,
    List.getElem?_drop, Nat.min_eq_left inside, Nat.sub_self, Nat.add_zero]

theorem partway_succ {α : Type} {old new : List (Slot α)} {slot : Slot α}
    (here : new[index]? = some slot) :
    putSlot (partway old new index) index slot = partway old new (index + 1) := by
  obtain ⟨inside, found⟩ := List.getElem?_eq_some_iff.mp here
  have taken : (new.take index).length = index := List.length_take_of_le (Nat.le_of_lt inside)
  have next : new.take (index + 1) = new.take index ++ [slot] := by
    rw [← found, List.take_append_getElem inside]
  unfold partway putSlot
  rw [next]
  cases tail : old.drop index with
  | nil =>
    have short : old.drop (index + 1) = [] := by
      rw [← List.drop_drop, tail]
      rfl
    rw [List.append_nil, taken, if_neg (Nat.lt_irrefl _), short, List.append_nil]
  | cons first more =>
    have later : old.drop (index + 1) = more := by
      rw [← List.drop_drop, tail]
      rfl
    have room : index < (new.take index ++ first :: more).length := by
      rw [List.length_append, taken, List.length_cons]
      omega
    rw [if_pos room, List.set_append_right _ _ (Nat.le_of_eq taken), taken, Nat.sub_self,
      List.set_cons_zero, later, List.append_assoc]
    rfl

/-- A section of a snapshot, and the mirror that follows earlier slots. -/
structure NextSection (C : Codecs) (c : Category) (old new : List (Slot (Descriptor c))) : Prop where
  grows : old.length ≤ new.length
  few : new.length ≤ c.maximum
  later : ∀ (i : Nat) (slot slot' : Slot (Descriptor c)),
    old[i]? = some slot → new[i]? = some slot' → Later slot slot'
  fits : ∀ slot ∈ new, (slotRow (C.put.slot c) slot).length < 2 ^ 64

/-- The rows from one index on. -/
def rowsFrom (C : Codecs) (c : Category) (new : List (Slot (Descriptor c))) (index : Nat) :
    List UInt64 :=
  (new.drop index).flatMap fun slot => framed (slotRow (C.put.slot c) slot)

theorem rowsFrom_cons {slot : Slot (Descriptor c)} (here : new[index]? = some slot) :
    rowsFrom C c new index =
      framed (slotRow (C.put.slot c) slot) ++ rowsFrom C c new (index + 1) := by
  obtain ⟨inside, found⟩ := List.getElem?_eq_some_iff.mp here
  unfold rowsFrom
  rw [List.drop_eq_getElem_cons inside, found, List.flatMap_cons]

theorem NextSection.next (h : NextSection C c old new) {slot : Slot (Descriptor c)}
    (here : new[index]? = some slot) (holds : Holds C c (partway old new index) s.table)
    (words : s.words = rowsFrom C c new index ++ rest) :
    NextRow C c (partway old new index) index slot s (rowsFrom C c new (index + 1) ++ rest) := by
  obtain ⟨inside, -⟩ := List.getElem?_eq_some_iff.mp here
  refine ⟨holds, ?_, fun before at_index => ?_, h.fits slot (List.mem_of_getElem? here), ?_⟩
  · unfold partway
    rw [List.length_append, List.length_take]
    omega
  · rw [partway_getElem? (Nat.le_of_lt inside)] at at_index
    exact h.later index before slot at_index here
  · rw [words, rowsFrom_cons here, List.append_assoc]

theorem heldAt_partway {slot : Slot (Descriptor c)} (here : new[index]? = some slot) :
    HeldAt (partway old new index) index slot ↔ HeldAt old index slot := by
  obtain ⟨inside, -⟩ := List.getElem?_eq_some_iff.mp here
  unfold HeldAt
  rw [partway_getElem? (Nat.le_of_lt inside)]

/-- The rest of a section.  The induction is on the rows that are left. -/
theorem turns_later (h : NextSection C c old new) {count : Nat} (start : ResourceTable)
    (known : ∀ M, SameBut c start M → ∀ (i : Nat) (slot : Slot (Descriptor c)),
      new[i]? = some slot → HeldAt old i slot ∨ Decodes C c (contentsOf M) slot)
    (frame : SameBut c start s.table) (total : index + count = new.length)
    (holds : Holds C c (partway old new index) s.table)
    (words : s.words = rowsFrom C c new index ++ rest) :
    ∃ M, turns (syncRow C true c) count index s = (.ok (), ⟨rest, M⟩) ∧ Holds C c new M ∧
      SameBut c start M := by
  induction count generalizing index s with
  | zero =>
    have whole : partway old new index = new := by
      unfold partway
      rw [List.take_of_length_le (by omega), List.drop_eq_nil_of_le (by have := h.grows; omega),
        List.append_nil]
    have done : rowsFrom C c new index = [] := by
      unfold rowsFrom
      rw [List.drop_eq_nil_of_le (by omega)]
      rfl
    rw [done, List.nil_append] at words
    rw [whole] at holds
    exact ⟨s.table, by rw [← words]; rfl, holds, frame⟩
  | succ count ih =>
    have inside : index < new.length := by omega
    have here : new[index]? = some new[index] := List.getElem?_eq_getElem inside
    have next := h.next here holds words
    have known' := (known s.table frame index _ here).imp_left (heldAt_partway here).mpr
    obtain ⟨M, first, holds', frame'⟩ := syncRow_later next known'
    rw [partway_succ here] at holds'
    obtain ⟨M', later, holds'', frame''⟩ :=
      ih (s := ⟨_, M⟩) (frame.trans frame') (by omega) holds' rfl
    exact ⟨M', bind_eq_ok.mpr ⟨(), _, first, later⟩, holds'', frame''⟩

/-- The rows of a section that is accepted, from one index on, are those of the mirror or are
decoded, where all that is decoded is what the slots have. -/
theorem turns_decodes (h : NextSection C c old new) {count : Nat} (start : ResourceTable)
    (faithful : ∀ M, SameBut c start M → ∀ slot ∈ new, ∀ d ∈ slot.descriptor, ∀ a,
      C.get.slot c (contentsOf M) (C.put.slot c d) = (.ok a, []) → a = retarget c M.id d)
    (frame : SameBut c start s.table) (total : index + count = new.length)
    (holds : Holds C c (partway old new index) s.table)
    (words : s.words = rowsFrom C c new index ++ rest)
    (ok : turns (syncRow C true c) count index s = (.ok (), s')) :
    ∀ (i : Nat) (slot : Slot (Descriptor c)), index ≤ i → new[i]? = some slot →
      HeldAt old i slot ∨ ∃ M, SameBut c start M ∧ Decodes C c (contentsOf M) slot := by
  induction count generalizing index s with
  | zero =>
    intro i slot le here
    obtain ⟨inside, -⟩ := List.getElem?_eq_some_iff.mp here
    omega
  | succ count ih =>
    intro i slot le at_i
    have inside : index < new.length := by omega
    have here : new[index]? = some new[index] := List.getElem?_eq_getElem inside
    have next := h.next here holds words
    obtain ⟨_, mid, first, later⟩ := bind_eq_ok.mp ok
    have decodes : HeldAt (partway old new index) index new[index] ∨
        Decodes C c (contentsOf s.table) new[index] := by
      refine (syncRow_decodes next first).imp_right fun each d occupant => ?_
      obtain ⟨a, decoded⟩ := each d occupant
      rw [decoded, faithful s.table frame _ (List.getElem_mem inside) d occupant a decoded]
      rfl
    rcases Nat.eq_or_lt_of_le le with rfl | less
    · rw [here, Option.some.injEq] at at_i
      subst at_i
      exact decodes.imp (heldAt_partway here).mp fun decodes => ⟨s.table, frame, decodes⟩
    · obtain ⟨M, first', holds', frame'⟩ := syncRow_later next decodes
      obtain rfl : mid = ⟨_, M⟩ := (Prod.mk.inj (first.symm.trans first')).2
      rw [partway_succ here] at holds'
      exact ih (frame.trans frame') (by omega) holds' rfl later i slot less at_i

theorem readCount_run {existing maximum count : Nat} {words : List UInt64}
    (front : s.words = usize.put count ++ words) (small : count < 2 ^ 64)
    (grows : existing ≤ count) (few : count ≤ maximum) :
    readCount existing maximum s = (.ok count, ⟨words, s.table⟩) := by
  have read : onWords usize.get s = (.ok count, ⟨words, s.table⟩) := by
    refine zoom_eq_ok.mpr ⟨words, ?_, rfl⟩
    rw [front]
    exact usize_readsBack small words
  have inside : ¬ (count < existing ∨ maximum < count) := by omega
  exact bind_eq_ok.mpr ⟨count, _, read, lift_bind_eq_ok.mpr ⟨(), failIf_eq_ok.mpr inside, rfl⟩⟩

theorem NextSection.count (h : NextSection C c old new) (holds : Holds C c old s.table)
    (words : s.words = rows (slotRow (C.put.slot c)) new ++ rest) :
    readCount (s.table.pools c).slots.length c.maximum s =
      (.ok new.length, ⟨rowsFrom C c new 0 ++ rest, s.table⟩) := by
  have small : new.length < 2 ^ 64 :=
    Nat.lt_of_le_of_lt (Nat.le_trans h.few c.maximum_le) (by decide)
  exact readCount_run words small (holds.length ▸ h.grows) h.few

/-- One section: the mirror follows the slots after it. -/
theorem syncSlots_later (h : NextSection C c old new) (holds : Holds C c old s.table)
    (words : s.words = rows (slotRow (C.put.slot c)) new ++ rest)
    (known : ∀ M, SameBut c s.table M → ∀ (i : Nat) (slot : Slot (Descriptor c)),
      new[i]? = some slot → HeldAt old i slot ∨ Decodes C c (contentsOf M) slot) :
    ∃ M, syncSlots C true c s = (.ok (), ⟨rest, M⟩) ∧ Holds C c new M ∧ SameBut c s.table M := by
  have start : Holds C c (partway old new 0) s.table := holds
  obtain ⟨M, run, holds', frame⟩ :=
    turns_later (s := ⟨rowsFrom C c new 0 ++ rest, s.table⟩) h s.table known (.refl _)
      (Nat.zero_add _) start rfl
  refine ⟨M, ?_, holds', frame⟩
  unfold syncSlots
  rw [read_bind_run]
  exact bind_eq_ok.mpr ⟨new.length, _, h.count holds words, run⟩

/-- A section that is accepted has rows that the mirror has, and rows that it decodes. -/
theorem syncSlots_decodes (h : NextSection C c old new) (holds : Holds C c old s.table)
    (words : s.words = rows (slotRow (C.put.slot c)) new ++ rest)
    (faithful : ∀ M, SameBut c s.table M → ∀ slot ∈ new, ∀ d ∈ slot.descriptor, ∀ a,
      C.get.slot c (contentsOf M) (C.put.slot c d) = (.ok a, []) → a = retarget c M.id d)
    (ok : syncSlots C true c s = (.ok (), s')) (i : Nat) (slot : Slot (Descriptor c))
    (here : new[i]? = some slot) :
    HeldAt old i slot ∨ ∃ M, SameBut c s.table M ∧ Decodes C c (contentsOf M) slot := by
  unfold syncSlots at ok
  rw [read_bind_run] at ok
  obtain ⟨count, mid, counted, ok⟩ := bind_eq_ok.mp ok
  obtain ⟨same, rfl⟩ := Prod.mk.inj ((h.count holds words).symm.trans counted)
  obtain rfl := Except.ok.inj same
  have start : Holds C c (partway old new 0) s.table := holds
  exact turns_decodes (s := ⟨rowsFrom C c new 0 ++ rest, s.table⟩) h s.table faithful (.refl _)
    (Nat.zero_add _) start rfl ok i slot (Nat.zero_le i) here

end Section

/-! ## Lists that grow -/

section Lists

variable {α : Type} {encode : α → List UInt64} {get : Contents → Reader UInt64 Error α}
  {append : α → Fallible ResourceTable Error Unit} {field : ResourceTable → List α}
  {R : ResourceTable → ResourceTable → Prop} {maximum : Nat} {new : List α} {s : Sync}
  {rest : List UInt64}

/-- What appending to a list of a mirror does. -/
structure Appends (append : α → Fallible ResourceTable Error Unit)
    (field : ResourceTable → List α) (maximum : Nat) (R : ResourceTable → ResourceTable → Prop) :
    Prop where
  refl : ∀ M, R M M
  trans : ∀ M M' M'', R M M' → R M' M'' → R M M''
  run : ∀ M a, (field M).length < maximum →
    ∃ M', append a M = (.ok (), M') ∧ field M' = field M ++ [a] ∧ R M M'

/-- The rows of a list of values. -/
structure NextRows (encode : α → List UInt64) (get : Contents → Reader UInt64 Error α)
    (maximum : Nat) (new : List α) : Prop where
  few : new.length ≤ maximum
  decodes : ∀ a ∈ new, ∀ K, get K (encode a) = (.ok a, [])
  fits : ∀ a ∈ new, (encode a).length < 2 ^ 64

theorem appendRow_run (h : NextRows encode get maximum new)
    (appends : Appends append field maximum R) {existing index : Nat} {a : α}
    (here : new[index]? = some a) (words : s.words = framed (encode a) ++ rest)
    (before : field s.table = new.take (max existing index)) :
    ∃ M, appendRow existing get append index s = (.ok (), ⟨rest, M⟩) ∧
      field M = new.take (max existing (index + 1)) ∧ R s.table M := by
  obtain ⟨inside, found⟩ := List.getElem?_eq_some_iff.mp here
  have member := List.mem_of_getElem? here
  have read : onWords readFrame s = (.ok (encode a), ⟨rest, s.table⟩) := by
    refine zoom_eq_ok.mpr ⟨rest, ?_, rfl⟩
    rw [words]
    exact readFrame_framed (h.fits a member) rest
  by_cases fresh : existing ≤ index
  · rw [Nat.max_eq_right fresh] at before
    have room : (field s.table).length < maximum := by
      rw [before, List.length_take]
      have := h.few
      omega
    obtain ⟨M, run, grown, frame⟩ := appends.run s.table a room
    refine ⟨M, bind_eq_ok.mpr ⟨_, _, read, ?_⟩, ?_, frame⟩
    · rw [if_pos fresh, read_bind_run]
      refine lift_bind_eq_ok.mpr ⟨a, decodeWhole_eq_ok.mpr (h.decodes a member _), ?_⟩
      exact zoom_eq_ok.mpr ⟨M, run, rfl⟩
    · rw [grown, before, Nat.max_eq_right (by omega), ← found, List.take_append_getElem inside]
  · refine ⟨s.table, bind_eq_ok.mpr ⟨_, _, read, ?_⟩, ?_, appends.refl _⟩
    · rw [if_neg fresh]
      rfl
    · rw [before, Nat.max_eq_left (by omega), Nat.max_eq_left (by omega)]

theorem appendTurns_run (h : NextRows encode get maximum new)
    (appends : Appends append field maximum R) {existing count index : Nat}
    (total : index + count = new.length) (grows : existing ≤ new.length)
    (words : s.words = (new.drop index).flatMap (fun a => framed (encode a)) ++ rest)
    (before : field s.table = new.take (max existing index)) :
    ∃ M, turns (appendRow existing get append) count index s = (.ok (), ⟨rest, M⟩) ∧
      field M = new ∧ R s.table M := by
  induction count generalizing index s with
  | zero =>
    rw [List.drop_eq_nil_of_le (by omega), List.flatMap_nil, List.nil_append] at words
    rw [List.take_of_length_le (by omega)] at before
    exact ⟨s.table, by rw [← words]; rfl, before, appends.refl _⟩
  | succ count ih =>
    have inside : index < new.length := by omega
    have here : new[index]? = some new[index] := List.getElem?_eq_getElem inside
    rw [List.drop_eq_getElem_cons inside, List.flatMap_cons, List.append_assoc] at words
    obtain ⟨M, first, before', frame⟩ := appendRow_run h appends here words before
    obtain ⟨M', later, grown, frame'⟩ := ih (s := ⟨_, M⟩) (by omega) rfl before'
    exact ⟨M', bind_eq_ok.mpr ⟨(), _, first, later⟩, grown, appends.trans _ _ _ frame frame'⟩

/-- A list of the mirror grows to the list of the snapshot. -/
theorem appendRows_run (h : NextRows encode get maximum new)
    (appends : Appends append field maximum R) (small : maximum < 2 ^ 64)
    (grows : field s.table <+: new) (words : s.words = rows encode new ++ rest) :
    ∃ M, appendRows (field s.table).length maximum get append s = (.ok (), ⟨rest, M⟩) ∧
      field M = new ∧ R s.table M := by
  have le := grows.length_le
  have before : field s.table = new.take (max (field s.table).length 0) := by
    rw [Nat.max_eq_left (Nat.zero_le _)]
    exact List.prefix_iff_eq_take.mp grows
  obtain ⟨M, run, grown, frame⟩ :=
    appendTurns_run (s := ⟨new.flatMap (fun a => framed (encode a)) ++ rest, s.table⟩)
      h appends (Nat.zero_add _) le rfl before
  refine ⟨M, bind_eq_ok.mpr ⟨new.length, _, ?_, run⟩, grown, frame⟩
  exact readCount_run words (Nat.lt_of_le_of_lt h.few small) le h.few

end Lists

end Abi

end Sgfx
