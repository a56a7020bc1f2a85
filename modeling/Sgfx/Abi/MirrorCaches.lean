import Sgfx.Abi.Descriptors
import Sgfx.Abi.Mirrors
import Sgfx.Library.Lockstep

/-!
# The accepted rows of a mirror

A mirror that remembers the rows it has accepted, and one that never does, accept the same
snapshots and hold the same descriptors, if the codecs are canonical: every row that is
decoded is the encoding of what it is decoded to.  The remembered row of a slot is then the
encoding of what the slot holds, so that comparing with it is comparing with the encoding.

## Main Definitions

* `Codecs.Canonical`
* `Remembered` — the accepted rows are the encodings of their slots
* `Twins` — a mirror that remembers, and one that does not

## Main Results

* `Twins.syncRow` — one row
* `Twins.syncAbiSnapshot` — one snapshot
* `syncAll_eq_forgetting` — every sequence of snapshots
-/

namespace Sgfx.Abi

open Fallible

/-- The categories whose rows have no generation in the older format. -/
def isProgram : Category → Bool
  | .shaderModule | .computePipeline | .programmablePipeline => true
  | .texture | .buffer | .bindGroup => false

/-- A descriptor is encoded as the words that it was decoded from, in every row that has a
generation. -/
def Codecs.Canonical (C : Codecs) : Prop :=
  ∀ (c : Category) (contents : Contents), (contents.legacyProgramIds = true → isProgram c = false) →
    ∀ (words rest : List UInt64) (d : Descriptor c),
      C.get.slot c contents words = (.ok d, rest) → words = C.put.slot c d ++ rest

/-! ## Rows of canonical codecs -/

section Rows

variable {α : Type} {get : Reader UInt64 Error α} {encode : α → List UInt64} {row : List UInt64}
  {slot : Slot α}

theorem decodeWhole_eq_ok {a : α} : decodeWhole get row = .ok a ↔ get row = (.ok a, []) := by
  unfold decodeWhole
  split
  · rename_i h
    rw [h, Except.ok.injEq, Prod.mk.injEq, Except.ok.injEq, and_iff_left rfl]
  · rename_i h
    rw [h]
    constructor
    · intro heq
      cases heq
    · intro heq
      cases congrArg Prod.snd heq
  · rename_i h
    rw [h]
    constructor
    · intro heq
      cases heq
    · intro heq
      cases congrArg Prod.fst heq

theorem bool_get_eq_ok {b : Bool} {words rest : List UInt64}
    (h : bool.get words = (.ok b, rest)) : words = bool.put b ++ rest := by
  obtain ⟨w, mid, hword, hb⟩ := Fallible.bind_eq_ok.mp h
  cases words with
  | nil => cases hword
  | cons first words =>
    cases hword
    unfold boolOf at hb
    split at hb
    · rename_i hzero
      cases hb
      rw [hzero]
      rfl
    · split at hb
      · rename_i hone
        cases hb
        rw [hone]
        rfl
      · cases hb

/-- A slot is encoded as the row that it was decoded from. -/
theorem slotRow_of_decodeWhole
    (hget : ∀ words rest a, get words = (.ok a, rest) → words = encode a ++ rest)
    (h : decodeWhole (getSlot get) row = .ok slot) :
    row = slotRow encode slot ∧ row.head? = some slot.generation := by
  rw [decodeWhole_eq_ok] at h
  obtain ⟨generation, rest, hgeneration, htail⟩ := Fallible.bind_eq_ok.mp h
  clear h
  cases row with
  | nil => cases hgeneration
  | cons first row =>
    cases hgeneration
    obtain ⟨flag, rest, hflag, hrest⟩ := Fallible.bind_eq_ok.mp htail
    rw [bool_get_eq_ok hflag]
    cases flag with
    | true =>
      obtain ⟨a, hdescriptor, rfl⟩ := Fallible.bind_pure_eq_ok.mp hrest
      rw [hget _ _ _ hdescriptor, List.append_nil]
      exact ⟨rfl, rfl⟩
    | false =>
      cases hrest
      exact ⟨rfl, rfl⟩

/-- A vacant slot is decoded from its row. -/
theorem decodeWhole_vacant (h : slot.descriptor = none) :
    decodeWhole (getSlot get) (slotRow encode slot) = .ok ⟨none, slot.generation, none⟩ := by
  rw [decodeWhole_eq_ok, slotRow_vacant h]
  rfl

theorem slotRow_congr {slot' : Slot α} (h : slotContent slot = slotContent slot') :
    slotRow encode slot = slotRow encode slot' := by
  obtain ⟨hgeneration, hdescriptor⟩ := Prod.mk.inj h
  unfold slotRow
  rw [hgeneration, hdescriptor]

end Rows

/-! ## Remembered rows -/

/-- Every remembered row is the encoding of its slot. -/
def RememberedBy {α : Type} (encode : α → List UInt64) (slots : List (Slot α)) (cache : RowCache) :
    Prop :=
  ∀ (i : Nat) (row : AcceptedRow), cache[i]? = some (some row) →
    ∃ slot, slots[i]? = some slot ∧ row.generation = slot.generation ∧
      row.words = slotRow encode slot

section Remembered

variable {α : Type} {encode : α → List UInt64} {slots : List (Slot α)} {cache : RowCache}
  {slot : Slot α} {row : List UInt64} {index : Nat}

theorem putSlot_self (h : index ≤ slots.length) : (putSlot slots index slot)[index]? = some slot := by
  unfold putSlot
  split
  · rename_i hlt
    rw [List.getElem?_set_self hlt]
  · rename_i hle
    rw [Nat.le_antisymm h (Nat.le_of_not_lt hle), List.getElem?_concat_length]

theorem putSlot_ne {i : Nat} (h : i ≠ index) (hi : i < slots.length) :
    (putSlot slots index slot)[i]? = slots[i]? := by
  unfold putSlot
  split
  · rw [List.getElem?_set_ne h.symm]
  · rw [List.getElem?_append_left hi]

theorem putSlot_length : index < (putSlot slots index slot).length ∨ slots.length < index := by
  unfold putSlot
  split
  · rename_i hlt
    rw [List.length_set]
    exact .inl hlt
  · rw [List.length_append, List.length_singleton]
    omega

theorem rowAccept_getElem? {generation : UInt64} {i : Nat} {accepted : AcceptedRow}
    (h : (rowAccept cache index generation row)[i]? = some (some accepted)) :
    (i = index ∧ accepted = ⟨generation, row⟩) ∨ (i ≠ index ∧ cache[i]? = some (some accepted)) := by
  unfold rowAccept at h
  by_cases hi : index = i
  · subst hi
    rw [List.getElem?_set_self'] at h
    obtain ⟨_, -, heq⟩ := Option.map_eq_some_iff.mp h
    exact .inl ⟨rfl, (Option.some.inj heq).symm⟩
  · rw [List.getElem?_set_ne hi, List.getElem?_append] at h
    split at h
    · exact .inr ⟨Ne.symm hi, h⟩
    · cases List.eq_of_mem_replicate (List.mem_of_getElem? h)

/-- Remembering the row of a slot. -/
theorem RememberedBy.accept (h : RememberedBy encode slots cache) {generation : UInt64}
    (hslot : slots[index]? = some slot) (hgeneration : generation = slot.generation)
    (hrow : row = slotRow encode slot) :
    RememberedBy encode slots (rowAccept cache index generation row) := by
  intro i accepted haccepted
  rcases rowAccept_getElem? haccepted with ⟨rfl, rfl⟩ | ⟨-, hold⟩
  · exact ⟨slot, hslot, hgeneration, hrow⟩
  · exact h i accepted hold

/-- Replacing a slot together with its row. -/
theorem RememberedBy.putSlot (h : RememberedBy encode slots cache) {generation : UInt64}
    (hindex : index ≤ slots.length) (hgeneration : generation = slot.generation)
    (hrow : row = slotRow encode slot) :
    RememberedBy encode (putSlot slots index slot) (rowAccept cache index generation row) := by
  intro i accepted haccepted
  rcases rowAccept_getElem? haccepted with ⟨rfl, rfl⟩ | ⟨hne, hold⟩
  · exact ⟨slot, putSlot_self hindex, hgeneration, hrow⟩
  · obtain ⟨old, hslot, hok⟩ := h i accepted hold
    obtain ⟨hi, -⟩ := List.getElem?_eq_some_iff.mp hslot
    exact ⟨old, (putSlot_ne hne hi).trans hslot, hok⟩

theorem RememberedBy.append (h : RememberedBy encode slots cache) (more : List (Slot α)) :
    RememberedBy encode (slots ++ more) cache := by
  intro i accepted haccepted
  obtain ⟨old, hslot, hok⟩ := h i accepted haccepted
  obtain ⟨hi, -⟩ := List.getElem?_eq_some_iff.mp hslot
  exact ⟨old, (List.getElem?_append_left hi).trans hslot, hok⟩

/-- A remembered row answers for the encoding of its slot. -/
theorem RememberedBy.compare (h : RememberedBy encode slots cache) {answer : Bool}
    (hslot : slots[index]? = some slot)
    (hcompare : rowCompare cache index slot.generation row = some answer) :
    answer = decide (slotRow encode slot = row) := by
  unfold rowCompare at hcompare
  split at hcompare
  · rename_i accepted hcached
    obtain ⟨slot', hslot', -, hwords⟩ := h index accepted hcached
    rw [hslot, Option.some.injEq] at hslot'
    subst hslot'
    split at hcompare
    · cases hcompare
    · rw [← Option.some.inj hcompare, hwords]
  · cases hcompare

/-- The places in the free list do not count. -/
theorem RememberedBy.congr {slots' : List (Slot α)} (h : RememberedBy encode slots cache)
    (hmap : slots.map slotContent = slots'.map slotContent) : RememberedBy encode slots' cache := by
  intro i accepted haccepted
  obtain ⟨old, hslot, hgeneration, hwords⟩ := h i accepted haccepted
  have hcontent := congrArg (·[i]?) hmap
  rw [List.getElem?_map, List.getElem?_map, hslot] at hcontent
  obtain ⟨new, hnew, heq⟩ := Option.map_eq_some_iff.mp hcontent.symm
  refine ⟨new, hnew, hgeneration.trans (Prod.mk.inj heq).1.symm, hwords.trans ?_⟩
  exact slotRow_congr heq.symm

end Remembered

/-! ## Verdicts -/

section Verdicts

variable {α : Type} {encode : α → List UInt64} {old old' : Option (Slot α)} {slot : Slot α}
  {generation : UInt64} {row : List UInt64} {compared : Option Bool}

/-- A row is only remembered for what it encodes. -/
theorem rowVerdict_remember (h : rowVerdict encode old generation row compared = .ok .remember) :
    ∃ slot, old = some slot ∧ generation = slot.generation ∧ row = slotRow encode slot := by
  unfold rowVerdict sameGeneration at h
  grind

/-- Without remembered rows nothing is kept. -/
theorem rowVerdict_forgetting : rowVerdict encode old generation row none ≠ .ok .keep := by
  unfold rowVerdict sameGeneration
  grind

/-- A row of a live slot at its generation is the encoding of the slot, or refused. -/
theorem rowVerdict_live {verdict : RowVerdict} (hlive : slot.descriptor.isSome = true)
    (hcompared : ∀ answer, compared = some answer → answer = decide (slotRow encode slot = row))
    (h : rowVerdict encode (some slot) slot.generation row compared = .ok verdict) :
    row = slotRow encode slot := by
  unfold rowVerdict at h
  dsimp only at h
  rw [if_neg (UInt64.lt_irrefl _), if_pos rfl] at h
  by_contra hdiffers
  cases compared with
  | none =>
    rw [sameGeneration, if_pos hlive, if_pos (Ne.symm hdiffers)] at h
    cases h
  | some answer =>
    have hanswer := (hcompared answer rfl).trans (decide_eq_false (Ne.symm hdiffers))
    subst hanswer
    rw [sameGeneration, if_pos hlive] at h
    cases h

/-- A remembered row spares the comparison with an encoding, or the decoding of a vacant row. -/
theorem rowVerdict_twins (hcontent : old.map slotContent = old'.map slotContent)
    (hcompared : ∀ slot answer, old = some slot → generation = slot.generation →
      compared = some answer → answer = decide (slotRow encode slot = row)) :
    rowVerdict encode old generation row compared = rowVerdict encode old' generation row none ∨
      ∃ slot, old = some slot ∧ generation = slot.generation ∧ row = slotRow encode slot ∧
        rowVerdict encode old generation row compared = .ok .keep ∧
        (rowVerdict encode old' generation row none = .ok .remember ∨
          rowVerdict encode old' generation row none = .ok .decode ∧ slot.descriptor = none) := by
  cases old with
  | none =>
    rw [Option.map_eq_none_iff.mp hcontent.symm]
    exact .inl rfl
  | some slot =>
    obtain ⟨slot', rfl, hsame⟩ := Option.map_eq_some_iff.mp hcontent.symm
    have hrow : slotRow encode slot' = slotRow encode slot := slotRow_congr hsame
    obtain ⟨hgeneration, hdescriptor⟩ := Prod.mk.inj hsame
    have hverdict : rowVerdict encode (some slot') generation row none =
        rowVerdict encode (some slot) generation row none := by
      unfold rowVerdict sameGeneration
      dsimp only
      rw [hrow, hgeneration, hdescriptor]
    rw [hverdict]
    unfold rowVerdict
    dsimp only
    by_cases hlt : generation < slot.generation
    · rw [if_pos hlt, if_pos hlt]
      exact .inl rfl
    by_cases heq : generation = slot.generation
    · rw [if_neg hlt, if_neg hlt, if_pos heq, if_pos heq]
      cases compared with
      | none => exact .inl rfl
      | some answer =>
        have hanswer := hcompared slot answer rfl heq rfl
        cases answer with
        | true =>
          have hsame := of_decide_eq_true hanswer.symm
          refine .inr ⟨slot, rfl, heq, hsame.symm, rfl, ?_⟩
          unfold sameGeneration
          rw [if_neg (not_not_intro hsame)]
          cases slot.descriptor with
          | some d => exact .inl rfl
          | none => exact .inr ⟨rfl, rfl⟩
        | false =>
          have hdiffers := of_decide_eq_false hanswer.symm
          unfold sameGeneration
          rw [if_pos hdiffers]
          exact .inl rfl
    · rw [if_neg hlt, if_neg hlt, if_neg heq, if_neg heq]
      exact .inl rfl

end Verdicts

/-! ## Twins -/

/-- A mirror that remembers its accepted rows, and one that does not, of the same contents. -/
structure Twins (C : Codecs) (T U : ResourceTable) : Prop where
  id : T.id = U.id
  legacy : T.abi.legacyProgramIds = U.abi.legacyProgramIds
  slots : ∀ c, (T.pools c).slots.map slotContent = (U.pools c).slots.map slotContent
  samplers : T.samplers = U.samplers
  pipelines : T.pipelines = U.pipelines
  remembered : ∀ c, RememberedBy (C.put.slot c) (T.pools c).slots (T.abi.acceptedRows c)
  forgotten : ∀ c, U.abi.acceptedRows c = []

/-- What may change with the rows of one category. -/
structure SameBut (c : Category) (T T' : ResourceTable) : Prop where
  id : T'.id = T.id
  legacy : T'.abi.legacyProgramIds = T.abi.legacyProgramIds
  samplers : T'.samplers = T.samplers
  pipelines : T'.pipelines = T.pipelines
  pools : ∀ c', c' ≠ c → T'.pools c' = T.pools c'
  accepted : ∀ c', c' ≠ c → T'.abi.acceptedRows c' = T.abi.acceptedRows c'

@[simp] theorem acceptRow_pools (remembers : Bool) (c : Category) (index : Nat)
    (generation : UInt64) (row : List UInt64) (T : ResourceTable) :
    (acceptRow remembers c index generation row T).pools = T.pools := by
  unfold acceptRow
  split <;> rfl

@[simp] theorem acceptRow_accepted (c : Category) (index : Nat) (generation : UInt64)
    (row : List UInt64) (T : ResourceTable) :
    (acceptRow true c index generation row T).abi.acceptedRows c =
      rowAccept (T.abi.acceptedRows c) index generation row := Function.update_self ..

@[simp] theorem setSlots_slots (c : Category)
    (f : List (Slot (Descriptor c)) → List (Slot (Descriptor c))) (T : ResourceTable) :
    ((setSlots c f T).pools c).slots = f (T.pools c).slots := by
  rw [setSlots, ResourceTable.setPool_same]

@[simp] theorem setSlots_id (c : Category) (T : ResourceTable) : setSlots c id T = T := by
  show ({ T with pools := Function.update T.pools c (T.pools c) } : ResourceTable) = T
  rw [Function.update_eq_self]

section SameBut

variable {c : Category} {T T' T'' : ResourceTable}

theorem SameBut.refl (T : ResourceTable) : SameBut c T T :=
  ⟨rfl, rfl, rfl, rfl, fun _ _ => rfl, fun _ _ => rfl⟩

theorem SameBut.trans (first : SameBut c T T') (second : SameBut c T' T'') : SameBut c T T'' where
  id := second.id.trans first.id
  legacy := second.legacy.trans first.legacy
  samplers := second.samplers.trans first.samplers
  pipelines := second.pipelines.trans first.pipelines
  pools c' h := (second.pools c' h).trans (first.pools c' h)
  accepted c' h := (second.accepted c' h).trans (first.accepted c' h)

theorem sameBut_setPool (p : SlotPool (Descriptor c)) : SameBut c T (T.setPool c p) :=
  ⟨rfl, rfl, rfl, rfl, fun _ h => ResourceTable.setPool_other _ _ h, fun _ _ => rfl⟩

theorem sameBut_setSlots (f : List (Slot (Descriptor c)) → List (Slot (Descriptor c))) :
    SameBut c T (setSlots c f T) := sameBut_setPool _

theorem sameBut_acceptRow (remembers : Bool) (index : Nat) (generation : UInt64)
    (row : List UInt64) : SameBut c T (acceptRow remembers c index generation row T) := by
  unfold acceptRow
  split
  · exact ⟨rfl, rfl, rfl, rfl, fun _ _ => rfl, fun _ h => Function.update_of_ne h ..⟩
  · exact .refl T

end SameBut

namespace Twins

variable {C : Codecs} {T T' U U' : ResourceTable} {c : Category}

theorem contents (h : Twins C T U) : contentsOf T = contentsOf U := by
  have hslots : (contentsOf T).slots = (contentsOf U).slots := funext h.slots
  unfold contentsOf at hslots ⊢
  rw [h.id, h.legacy, h.samplers, h.pipelines]
  exact congrArg (Contents.mk U.id U.abi.legacyProgramIds · U.samplers U.pipelines) hslots

/-- A change of one category on both sides. -/
theorem change (h : Twins C T U) (hT : SameBut c T T') (hU : SameBut c U U')
    (hmap : (T'.pools c).slots.map slotContent = (U'.pools c).slots.map slotContent)
    (hremembered : RememberedBy (C.put.slot c) (T'.pools c).slots (T'.abi.acceptedRows c))
    (hforgotten : U'.abi.acceptedRows c = []) : Twins C T' U' where
  id := by rw [hT.id, hU.id, h.id]
  legacy := by rw [hT.legacy, hU.legacy, h.legacy]
  slots c' := by
    by_cases hc : c' = c
    · exact hc ▸ hmap
    · rw [hT.pools c' hc, hU.pools c' hc, h.slots]
  samplers := by rw [hT.samplers, hU.samplers, h.samplers]
  pipelines := by rw [hT.pipelines, hU.pipelines, h.pipelines]
  remembered c' := by
    by_cases hc : c' = c
    · exact hc ▸ hremembered
    · rw [hT.pools c' hc, hT.accepted c' hc]
      exact h.remembered c'
  forgotten c' := by
    by_cases hc : c' = c
    · exact hc ▸ hforgotten
    · rw [hU.accepted c' hc, h.forgotten]

/-- A row is remembered together with its slot. -/
theorem accept (h : Twins C T U) {index : Nat} {generation : UInt64} {row : List UInt64}
    {f g : List (Slot (Descriptor c)) → List (Slot (Descriptor c))}
    (hmap : (f (T.pools c).slots).map slotContent = (g (U.pools c).slots).map slotContent)
    (hremembered : RememberedBy (C.put.slot c) (f (T.pools c).slots)
      (rowAccept (T.abi.acceptedRows c) index generation row)) :
    Twins C (acceptRow true c index generation row (setSlots c f T))
      (acceptRow false c index generation row (setSlots c g U)) := by
  refine h.change ((sameBut_setSlots f).trans (sameBut_acceptRow ..))
    ((sameBut_setSlots g).trans (sameBut_acceptRow ..)) ?_ ?_ (h.forgotten c)
  · rw [acceptRow_pools, acceptRow_pools, setSlots_slots, setSlots_slots, hmap]
  · rw [acceptRow_pools, setSlots_slots, acceptRow_accepted]
    exact hremembered

theorem length_eq (h : Twins C T U) (c : Category) :
    (T.pools c).slots.length = (U.pools c).slots.length := by
  have hlength := congrArg List.length (h.slots c)
  rwa [List.length_map, List.length_map] at hlength

theorem getElem? (h : Twins C T U) (c : Category) (index : Nat) :
    (T.pools c).slots[index]?.map slotContent = (U.pools c).slots[index]?.map slotContent := by
  have hget := congrArg (·[index]?) (h.slots c)
  rwa [List.getElem?_map, List.getElem?_map] at hget

end Twins

/-! ## Sections in lockstep -/

/-- The same words are left, and the mirrors are twins, in one format. -/
structure Reading (C : Codecs) (legacy : Bool) (s t : Sync) : Prop where
  words : s.words = t.words
  twins : Twins C s.table t.table
  legacy : s.table.abi.legacyProgramIds = legacy

/-- While the rows of a category are read, its slots are there as far as they have been. -/
structure ReadingRows (C : Codecs) (legacy : Bool) (c : Category) (index : Nat) (s t : Sync) : Prop
    extends Reading C legacy s t where
  index_le : index ≤ (s.table.pools c).slots.length

section Sections

variable {α : Type} {C : Codecs} {legacy : Bool} {c : Category} {index count : Nat} {s t : Sync}
  {generation : UInt64} {row : List UInt64}

/-- Reading words does not touch the mirrors. -/
theorem Reading.onWords (h : Reading C legacy s t) (m : Reader UInt64 Error α) :
    Lockstep (onWords m) (onWords m) s t
      (fun _ s' t' => Reading C legacy s' t' ∧ s'.table = s.table ∧ t'.table = t.table)
      (Reading C legacy) := by
  have hsame : Lockstep m m s.words t.words (fun _ => Eq) Eq := h.words ▸ Lockstep.refl m s.words
  refine Lockstep.zoom hsame (fun _ words words' heq => ?_) fun words words' heq => ?_
  · exact ⟨⟨heq, h.twins, h.legacy⟩, rfl, rfl⟩
  · exact ⟨heq, h.twins, h.legacy⟩

/-- A decoded row takes its slot, and is what that slot encodes. -/
theorem ReadingRows.decodeRow (h : ReadingRows C legacy c index s t) (hC : C.Canonical)
    (hlegacy : legacy = true → isProgram c = false) (hgeneration : row.head? = some generation) :
    Lockstep (decodeRow C true c index generation row) (decodeRow C false c index generation row)
      s t (fun _ => ReadingRows C legacy c (index + 1)) (Reading C legacy) := by
  have hcontents := h.twins.contents
  refine .read_bind ?_
  rw [hcontents]
  refine .lift_bind (fun slot hslot => ?_) fun _ _ => h.toReading
  have hcanonical := hC c (contentsOf t.table) fun hl => hlegacy <| by
    rw [← h.legacy, h.twins.legacy]
    exact hl
  obtain ⟨hrow, hhead⟩ := slotRow_of_decodeWhole (hcanonical · ·) hslot
  rw [hgeneration, Option.some.injEq] at hhead
  refine .update_bind (.update ?_)
  have hlength := h.twins.length_eq c
  have hremembered := (h.twins.remembered c).putSlot h.index_le hhead hrow
  have hmap : (putSlot (s.table.pools c).slots index slot).map slotContent =
      (putSlot (t.table.pools c).slots index slot).map slotContent := by
    unfold putSlot
    rw [hlength]
    split
    · rw [List.map_set, List.map_set, h.twins.slots]
    · rw [List.map_append, List.map_append, h.twins.slots]
  have htwins := h.twins.accept (f := fun slots => putSlot slots index slot)
    (g := fun slots => putSlot slots index slot) hmap hremembered
  refine ⟨⟨h.words, htwins, ?_⟩, ?_⟩
  · rw [← h.legacy]
    exact ((sameBut_setSlots _).trans (sameBut_acceptRow ..)).legacy
  · dsimp only
    rw [acceptRow_pools, setSlots_slots]
    exact putSlot_length.resolve_right (Nat.not_lt_of_le h.index_le)

theorem decodeRow_forgetting {slot : Slot (Descriptor c)}
    (h : decodeWhole (getSlot (C.get.slot c (contentsOf t.table))) row = .ok slot) :
    Abi.decodeRow C false c index generation row t =
      (.ok (), ⟨t.words, setSlots c (fun slots => putSlot slots index slot) t.table⟩) := by
  unfold Abi.decodeRow
  rw [read_bind_run, h]
  rfl

/-- A vacant slot is replaced by itself. -/
theorem Twins.putVacant {T U : ResourceTable} (h : Twins C T U) {slot : Slot (Descriptor c)}
    (hslot : (T.pools c).slots[index]? = some slot) (hvacant : slot.descriptor = none) :
    Twins C T (setSlots c (fun slots => putSlot slots index ⟨none, slot.generation, none⟩) U) := by
  refine h.change (.refl T) (sameBut_setSlots _) ?_ (h.remembered c) (h.forgotten c)
  obtain ⟨hlt, -⟩ := List.getElem?_eq_some_iff.mp hslot
  have hcontent := h.getElem? c index
  rw [hslot, ← List.getElem?_map] at hcontent
  obtain ⟨hindex, hself⟩ := List.getElem?_eq_some_iff.mp hcontent.symm
  have hvacantContent : slotContent (⟨none, slot.generation, none⟩ : Slot (Descriptor c)) =
      slotContent slot := by
    unfold slotContent
    rw [hvacant]
  rw [setSlots_slots, putSlot, if_pos (h.length_eq c ▸ hlt), List.map_set, hvacantContent, ← hself,
    List.set_getElem_self, h.slots]

/-- One row. -/
theorem ReadingRows.syncRow (h : ReadingRows C legacy c index s t) (hC : C.Canonical)
    (hlegacy : legacy = true → isProgram c = false) :
    Lockstep (syncRow C true c index) (syncRow C false c index) s t
      (fun _ => ReadingRows C legacy c (index + 1)) (Reading C legacy) := by
  refine Lockstep.bind (h.toReading.onWords readFrame) fun row s' t' hread => ?_
  obtain ⟨hreading, hs, ht⟩ := hread
  have h' : ReadingRows C legacy c index s' t' := ⟨hreading, hs ▸ h.index_le⟩
  refine .lift_bind (fun generation hhead => ?_) fun _ _ => hreading
  rw [okOr_eq_ok] at hhead
  refine .read_bind ?_
  have hempty : rowCompare (t'.table.abi.acceptedRows c) index generation row = none := by
    rw [h'.twins.forgotten]
    rfl
  have hverdict := @rowVerdict_twins _ (C.put.slot c) _ _ generation row
    (rowCompare (s'.table.abi.acceptedRows c) index generation row) (h'.twins.getElem? c index)
    fun slot answer hslot heq hcompare => (h'.twins.remembered c).compare hslot (heq ▸ hcompare)
  dsimp only
  rw [hempty]
  rcases hverdict with hsame | ⟨slot, hslot, hgeneration, hrow, hkeep, hforgetting⟩
  · -- The verdicts agree, and without remembered rows no row is kept.
    rw [hsame]
    refine .lift_bind (fun verdict hok => ?_) fun _ _ => hreading
    cases verdict with
    | keep => exact absurd hok rowVerdict_forgetting
    | remember =>
      obtain ⟨slot, hslot, hgeneration, hrow⟩ := rowVerdict_remember (hsame.trans hok)
      have htwins := h'.twins.accept (f := id) (g := id) (h'.twins.slots c)
        ((h'.twins.remembered c).accept hslot hgeneration hrow)
      rw [setSlots_id, setSlots_id] at htwins
      obtain ⟨hlt, -⟩ := List.getElem?_eq_some_iff.mp hslot
      refine .update ⟨⟨hreading.words, htwins, ?_⟩, ?_⟩
      · rw [← hreading.legacy]
        exact (sameBut_acceptRow ..).legacy
      · dsimp only
        rw [acceptRow_pools]
        exact hlt
    | decode => exact h'.decodeRow hC hlegacy hhead
  · -- A kept row is the encoding of its slot.
    rw [hkeep]
    obtain ⟨hlt, -⟩ := List.getElem?_eq_some_iff.mp hslot
    rcases hforgetting with hremember | ⟨hdecode, hvacant⟩
    · rw [hremember]
      exact .pure ⟨hreading, hlt⟩
    · rw [hdecode]
      have hdecoded := @decodeWhole_vacant _ (C.get.slot c (contentsOf t'.table)) (C.put.slot c)
        slot hvacant
      rw [← hrow] at hdecoded
      show Lockstep (pure ()) (Abi.decodeRow C false c index generation row) s' t' _ _
      rw [Lockstep, decodeRow_forgetting hdecoded]
      exact ⟨rfl, ⟨hreading.words, h'.twins.putVacant hslot hvacant, hreading.legacy⟩, hlt⟩

/-- Turns in lockstep, with a relation of the states before each turn. -/
theorem lockstep_turns {m n : Nat → Fallible Sync Error Unit} {R : Nat → Sync → Sync → Prop}
    {error : Sync → Sync → Prop}
    (step : ∀ i s t, R i s t → Lockstep (m i) (n i) s t (fun _ => R (i + 1)) error)
    (h : R index s t) :
    Lockstep (turns m count index) (turns n count index) s t
      (fun _ s' t' => ∃ i, R i s' t') error := by
  induction count generalizing index s t with
  | zero => exact .pure ⟨index, h⟩
  | succ count ih => exact Lockstep.bind (step index s t h) fun _ s' t' h' => ih h'

/-- Turns that only keep the mirrors twins. -/
theorem Reading.turns {m n : Nat → Fallible Sync Error Unit} (h : Reading C legacy s t)
    (step : ∀ i s t, Reading C legacy s t →
      Lockstep (m i) (n i) s t (fun _ => Reading C legacy) (Reading C legacy)) :
    Lockstep (turns m count index) (turns n count index) s t (fun _ => Reading C legacy)
      (Reading C legacy) := by
  have hturns : Lockstep (Abi.turns m count index) (Abi.turns n count index) s t
      (fun _ s' t' => ∃ _ : Nat, Reading C legacy s' t') (Reading C legacy) :=
    @lockstep_turns _ _ _ _ m n (fun _ => Reading C legacy) _ step h
  exact hturns.imp (fun _ _ _ hrows => hrows.choose_spec) fun _ _ herror => herror

theorem Reading.readCount (h : Reading C legacy s t) (existing maximum : Nat) :
    Lockstep (readCount existing maximum) (readCount existing maximum) s t
      (fun _ s' t' => Reading C legacy s' t' ∧ s'.table = s.table ∧ t'.table = t.table)
      (Reading C legacy) :=
  Lockstep.bind (h.onWords usize.get) fun _ _ _ h' =>
    .lift_bind (fun _ _ => .pure h') fun _ _ => h'.1

theorem Reading.syncSlots (h : Reading C legacy s t) (hC : C.Canonical)
    (hlegacy : legacy = true → isProgram c = false) :
    Lockstep (syncSlots C true c) (syncSlots C false c) s t (fun _ => Reading C legacy)
      (Reading C legacy) := by
  refine .read_bind ?_
  rw [h.twins.length_eq c]
  refine Lockstep.bind (h.readCount _ _) fun count s' t' h' => ?_
  have hturns : Lockstep (Abi.turns (syncRow C true c) count 0)
      (Abi.turns (syncRow C false c) count 0) s' t'
      (fun _ s' t' => ∃ i, ReadingRows C legacy c i s' t') (Reading C legacy) :=
    lockstep_turns (fun i s t hrow => hrow.syncRow hC hlegacy) ⟨h'.1, Nat.zero_le _⟩
  exact hturns.imp (fun _ _ _ hrows => hrows.choose_spec.toReading) fun _ _ herror => herror

/-- One row of the older format: the slots that are there stay as they are. -/
theorem Reading.legacyRow (h : Reading C legacy s t) :
    Lockstep (legacyRow C c index) (legacyRow C c index) s t (fun _ => Reading C legacy)
      (Reading C legacy) := by
  refine Lockstep.bind (h.onWords readFrame) fun row s' t' h' => ?_
  obtain ⟨hreading, -, -⟩ := h'
  have htwins := hreading.twins
  refine .read_bind ?_
  rw [htwins.contents]
  refine .lift_bind (fun d _ => ?_) fun _ _ => hreading
  have hverdict : legacyVerdict c (s'.table.pools c).slots[index]? d =
      legacyVerdict c (t'.table.pools c).slots[index]? d := by
    have hcontent := htwins.getElem? c index
    cases hold : (s'.table.pools c).slots[index]? with
    | none =>
      rw [hold] at hcontent
      rw [Option.map_eq_none_iff.mp hcontent.symm]
    | some old =>
      rw [hold] at hcontent
      obtain ⟨new, hnew, heq⟩ := Option.map_eq_some_iff.mp hcontent.symm
      obtain ⟨hgeneration, hdescriptor⟩ := Prod.mk.inj heq
      rw [hnew, legacyVerdict, legacyVerdict, hgeneration, hdescriptor]
  rw [hverdict]
  refine .lift_bind (fun _ _ => .update ?_) fun _ _ => hreading
  have hset : ∀ T : ResourceTable, SameBut c T (setSlots c (fun slots =>
      if index < slots.length then slots else slots ++ [⟨some d, 0, none⟩]) T) :=
    fun T => sameBut_setSlots _
  refine ⟨hreading.words, htwins.change (hset _) (hset _) ?_ ?_ (htwins.forgotten c),
    hreading.legacy⟩
  · rw [setSlots_slots, setSlots_slots, htwins.length_eq c]
    split
    · exact htwins.slots c
    · rw [List.map_append, List.map_append, htwins.slots]
  · rw [setSlots_slots]
    split
    · exact htwins.remembered c
    · exact (htwins.remembered c).append _

theorem Reading.syncProgramSlots (h : Reading C legacy s t) (hC : C.Canonical) :
    Lockstep (syncProgramSlots C true c) (syncProgramSlots C false c) s t
      (fun _ => Reading C legacy) (Reading C legacy) := by
  refine .read_bind ?_
  rw [← h.twins.legacy, h.legacy]
  cases legacy with
  | true =>
    rw [if_pos rfl, if_pos rfl, h.twins.length_eq c]
    refine Lockstep.bind (h.readCount _ _) fun count s' t' h' => ?_
    exact h'.1.turns fun i s t hrow => hrow.legacyRow
  | false =>
    rw [if_neg Bool.false_ne_true, if_neg Bool.false_ne_true]
    exact h.syncSlots hC fun hfalse => absurd hfalse Bool.false_ne_true

/-- One appended row. -/
theorem Reading.appendRow (h : Reading C legacy s t) {existing : Nat}
    {get : Contents → Reader UInt64 Error α} {append : α → Fallible ResourceTable Error Unit}
    (happend : ∀ (T U : ResourceTable) (a : α), Twins C T U → T.abi.legacyProgramIds = legacy →
      Lockstep (append a) (append a) T U
        (fun _ T' U' => Twins C T' U' ∧ T'.abi.legacyProgramIds = legacy)
        (fun T' U' => Twins C T' U' ∧ T'.abi.legacyProgramIds = legacy)) :
    Lockstep (appendRow existing get append index) (appendRow existing get append index) s t
      (fun _ => Reading C legacy) (Reading C legacy) := by
  refine Lockstep.bind (h.onWords readFrame) fun row s' t' h' => ?_
  obtain ⟨hreading, -, -⟩ := h'
  split
  · refine .read_bind ?_
    rw [hreading.twins.contents]
    refine .lift_bind (fun a _ => ?_) fun _ _ => hreading
    refine Lockstep.zoom (happend _ _ a hreading.twins hreading.legacy) (fun _ T' U' h' => ?_)
      fun T' U' h' => ?_
    · exact ⟨hreading.words, h'.1, h'.2⟩
    · exact ⟨hreading.words, h'.1, h'.2⟩
  · exact .pure hreading

theorem Twins.defineSampler {T U : ResourceTable} (h : Twins C T U)
    (hlegacy : T.abi.legacyProgramIds = legacy) (d : SamplerDesc) :
    Lockstep (defineSampler d) (defineSampler d) T U
      (fun _ T' U' => Twins C T' U' ∧ T'.abi.legacyProgramIds = legacy)
      (fun T' U' => Twins C T' U' ∧ T'.abi.legacyProgramIds = legacy) := by
  suffices hdefine : Lockstep (ResourceTable.defineSampler true d) (ResourceTable.defineSampler true d) T U
      (fun _ T' U' => Twins C T' U' ∧ T'.abi.legacyProgramIds = legacy)
      (fun T' U' => Twins C T' U' ∧ T'.abi.legacyProgramIds = legacy) from
    hdefine.bind fun _ _ _ h' => .pure h'
  refine .read_bind ?_
  rw [h.samplers, h.id]
  refine .lift_bind (fun _ _ => .lift_bind (fun _ _ => .update_bind (.pure ?_)) ?_) ?_
  · refine ⟨⟨h.id, h.legacy, h.slots, ?_, h.pipelines, h.remembered, h.forgotten⟩, hlegacy⟩
    exact congrArg (· ++ [d]) h.samplers
  · exact fun _ _ => ⟨h, hlegacy⟩
  · exact fun _ _ => ⟨h, hlegacy⟩

theorem Twins.defineRenderPipeline {T U : ResourceTable} (h : Twins C T U)
    (hlegacy : T.abi.legacyProgramIds = legacy) (d : RenderPipelineDesc) :
    Lockstep (defineRenderPipeline d) (defineRenderPipeline d) T U
      (fun _ T' U' => Twins C T' U' ∧ T'.abi.legacyProgramIds = legacy)
      (fun T' U' => Twins C T' U' ∧ T'.abi.legacyProgramIds = legacy) := by
  suffices hdefine : Lockstep (ResourceTable.defineRenderPipeline true d) (ResourceTable.defineRenderPipeline true d) T U
      (fun _ T' U' => Twins C T' U' ∧ T'.abi.legacyProgramIds = legacy)
      (fun T' U' => Twins C T' U' ∧ T'.abi.legacyProgramIds = legacy) from
    hdefine.bind fun _ _ _ h' => .pure h'
  refine .read_bind ?_
  rw [h.pipelines, h.id]
  refine .lift_bind (fun _ _ => .lift_bind (fun _ _ => .update_bind (.pure ?_)) ?_) ?_
  · refine ⟨⟨h.id, h.legacy, h.slots, h.samplers, ?_, h.remembered, h.forgotten⟩, hlegacy⟩
    exact congrArg (· ++ [d]) h.pipelines
  · exact fun _ _ => ⟨h, hlegacy⟩
  · exact fun _ _ => ⟨h, hlegacy⟩

/-- The samplers, or the fixed-function pipelines. -/
theorem Reading.appendRows (h : Reading C legacy s t) {existing maximum : Nat}
    {get : Contents → Reader UInt64 Error α} {append : α → Fallible ResourceTable Error Unit}
    (happend : ∀ (T U : ResourceTable) (a : α), Twins C T U → T.abi.legacyProgramIds = legacy →
      Lockstep (append a) (append a) T U
        (fun _ T' U' => Twins C T' U' ∧ T'.abi.legacyProgramIds = legacy)
        (fun T' U' => Twins C T' U' ∧ T'.abi.legacyProgramIds = legacy)) :
    Lockstep (appendRows existing maximum get append) (appendRows existing maximum get append) s t
      (fun _ => Reading C legacy) (Reading C legacy) := by
  refine Lockstep.bind (h.readCount _ _) fun count s' t' h' => ?_
  exact h'.1.turns fun i s t hrow => hrow.appendRow happend

theorem Reading.syncSamplers (h : Reading C legacy s t) :
    Lockstep (syncSamplers C) (syncSamplers C) s t (fun _ => Reading C legacy)
      (Reading C legacy) := by
  refine .read_bind ?_
  rw [h.twins.samplers]
  exact h.appendRows fun T U d htwins hlegacy => htwins.defineSampler hlegacy d

theorem Reading.syncPipelines (h : Reading C legacy s t) :
    Lockstep (syncPipelines C) (syncPipelines C) s t (fun _ => Reading C legacy)
      (Reading C legacy) := by
  refine .read_bind ?_
  rw [h.twins.pipelines]
  exact h.appendRows fun T U d htwins hlegacy => htwins.defineRenderPipeline hlegacy d

/-- All sections. -/
theorem Reading.syncSections (h : Reading C legacy s t) (hC : C.Canonical) :
    Lockstep (syncSections C true) (syncSections C false) s t (fun _ => Reading C legacy)
      (Reading C legacy) := by
  refine (h.syncSlots hC fun _ => rfl).bind fun _ _ _ h => ?_
  refine (h.syncSlots hC fun _ => rfl).bind fun _ _ _ h => ?_
  refine h.syncSamplers.bind fun _ _ _ h => ?_
  refine h.syncPipelines.bind fun _ _ _ h => ?_
  refine (h.syncProgramSlots hC).bind fun _ _ _ h => ?_
  refine (h.syncSlots hC fun _ => rfl).bind fun _ _ _ h => ?_
  refine (h.syncProgramSlots hC).bind fun _ _ _ h => ?_
  exact h.syncProgramSlots hC

/-- The format of a snapshot is set on both sides. -/
theorem lockstep_readHeader (hwords : s.words = t.words) (h : Twins C s.table t.table) :
    Lockstep readHeader readHeader s t (fun _ s' t' => ∃ legacy, Reading C legacy s' t')
      (fun s' t' => ∃ legacy, Reading C legacy s' t') := by
  have hreading : Reading C s.table.abi.legacyProgramIds s t := ⟨hwords, h, rfl⟩
  refine Lockstep.bind ((hreading.onWords word).imp (fun _ _ _ h => h.1) fun _ _ h => ⟨_, h⟩)
    fun magic s₁ t₁ h₁ => .lift_bind (fun _ _ => .update_bind ?_) fun _ _ => ⟨_, h₁⟩
  have h₂ : Reading C (decide (magic = LEGACY_MAGIC))
      ⟨s₁.words, setLegacy (magic = LEGACY_MAGIC) s₁.table⟩
      ⟨t₁.words, setLegacy (magic = LEGACY_MAGIC) t₁.table⟩ := by
    have h := h₁.twins
    exact ⟨h₁.words, ⟨h.id, rfl, h.slots, h.samplers, h.pipelines, h.remembered, h.forgotten⟩, rfl⟩
  refine Lockstep.bind ((h₂.onWords word).imp (fun _ _ _ h => h.1) fun _ _ h => ⟨_, h⟩)
    fun source s₃ t₃ h₃ => ?_
  refine Lockstep.bind ((h₃.onWords word).imp (fun _ _ _ h => h.1) fun _ _ h => ⟨_, h⟩)
    fun revision s₄ t₄ h₄ => ?_
  exact .lift_bind (fun _ _ => .pure ⟨_, h₄⟩) fun _ _ => ⟨_, h₄⟩

/-- What an identity resolves to is part of the contents. -/
theorem Twins.ref {T U : ResourceTable} (h : Twins C T U) (id : Id c) : T.ref id = U.ref id := by
  have hcontent := h.getElem? c id.index.toNat
  have hlookup : T.lookup id = U.lookup id := by
    unfold ResourceTable.lookup SlotPool.resolve
    cases hT : (T.pools c).slots[id.index.toNat]? with
    | none =>
      rw [hT] at hcontent
      rw [Option.map_eq_none_iff.mp hcontent.symm]
    | some old =>
      rw [hT] at hcontent
      obtain ⟨new, hU, heq⟩ := Option.map_eq_some_iff.mp hcontent.symm
      obtain ⟨hgeneration, hdescriptor⟩ := Prod.mk.inj heq
      rw [hU, Option.filter_some, Option.filter_some, hgeneration]
      split
      · exact hdescriptor.symm
      · rfl
  unfold ResourceTable.ref
  rw [h.id, hlookup]

theorem Twins.checkShaders {T U : ResourceTable} (h : Twins C T U) :
    checkShaders c T = checkShaders c U := by
  have hcontents : ∀ (V : ResourceTable), Abi.checkShaders c V =
      forEach ((V.pools c).slots.map slotContent) fun p =>
        forEach ((p.2.map (shadersOf c)).getD []) fun m => (V.ref m).map fun _ => () := by
    intro V
    unfold Abi.checkShaders
    induction (V.pools c).slots with
    | nil => rfl
    | cons slot rest ih =>
      rw [List.map_cons, forEach, forEach, ih]
      rfl
  rw [hcontents, hcontents, h.slots c]
  have href : (fun m : ShaderModuleId => (T.ref m).map fun _ => ()) =
      fun m => (U.ref m).map fun _ => () := by
    funext m
    rw [h.ref]
  rw [href]

theorem rebuildFrom_content {slots : List (Slot α)} :
    (rebuildFrom index slots).1.map slotContent = slots.map slotContent := by
  induction slots generalizing index with
  | nil => rfl
  | cons slot rest ih =>
    rw [rebuildFrom]
    split <;> rw [List.map_cons, List.map_cons, ih] <;> rfl

/-- Rebuilding the free list changes no contents. -/
theorem Twins.rebuildFreeList {T U : ResourceTable} (h : Twins C T U) :
    Twins C (rebuildFreeList c T) (rebuildFreeList c U) := by
  unfold Abi.rebuildFreeList
  refine h.change (sameBut_setPool _) (sameBut_setPool _) ?_ ?_ (h.forgotten c)
  · rw [ResourceTable.setPool_same, ResourceTable.setPool_same, rebuildFrom_content,
      rebuildFrom_content, h.slots]
  · rw [ResourceTable.setPool_same]
    exact (h.remembered c).congr rebuildFrom_content.symm

theorem Reading.finishSync (h : Reading C legacy s t) :
    Lockstep finishSync finishSync s t (fun _ s' t' => Twins C s'.table t'.table)
      (fun s' t' => Twins C s'.table t'.table) := by
  refine .read_bind ?_
  rw [h.words, h.twins.checkShaders, h.twins.checkShaders]
  refine .lift_bind (fun _ _ => .lift_bind (fun _ _ => .lift_bind (fun _ _ => ?_) ?_) ?_) ?_
  · refine .update_bind (.update_bind (.update ?_))
    exact h.twins.rebuildFreeList.rebuildFreeList.rebuildFreeList
  · exact fun _ _ => h.twins
  · exact fun _ _ => h.twins
  · exact fun _ _ => h.twins

/-- One snapshot: the same outcome, and twins again. -/
theorem Twins.syncAbiSnapshot {T U : ResourceTable} (h : Twins C T U) (hC : C.Canonical)
    (words : List UInt64) :
    (syncAbiSnapshot C true words T).1 = (syncAbiSnapshot C false words U).1 ∧
      Twins C (syncAbiSnapshot C true words T).2 (syncAbiSnapshot C false words U).2 := by
  have hsync : Lockstep (sync C true) (sync C false) ⟨words, T⟩ ⟨words, U⟩
      (fun _ s' t' => Twins C s'.table t'.table) (fun s' t' => Twins C s'.table t'.table) := by
    have hheader := (lockstep_readHeader rfl h : Lockstep readHeader readHeader ⟨words, T⟩
      ⟨words, U⟩ _ _).imp (fun _ _ _ h => h) fun _ _ ⟨_, h⟩ => h.twins
    refine Lockstep.bind hheader fun answer s t hreading => ?_
    obtain ⟨legacy, hreading⟩ := hreading
    refine Lockstep.bind ((hreading.syncSections hC).imp (fun _ _ _ h => h) fun _ _ h => h.twins)
      fun _ s t hreading => ?_
    exact Lockstep.bind hreading.finishSync fun _ _ _ h => .pure h
  exact ⟨hsync.same, hsync.state⟩

end Sections

/-! ## Every sequence of snapshots -/

/-- Apply snapshots one after another, whatever their outcomes. -/
def syncAll (C : Codecs) (remembers : Bool) (T : ResourceTable) :
    List (List UInt64) → List (Except Error (UInt64 × UInt64)) × ResourceTable
  | [] => ([], T)
  | words :: rest =>
    let first := syncAbiSnapshot C remembers words T
    let later := syncAll C remembers first.2 rest
    (first.1 :: later.1, later.2)

section Runs

variable {C : Codecs} {T U : ResourceTable}

theorem Twins.new (id : UInt64) (id_ne : id ≠ 0) :
    Twins C (ResourceTable.new id id_ne) (ResourceTable.new id id_ne) where
  id := rfl
  legacy := rfl
  slots _ := rfl
  samplers := rfl
  pipelines := rfl
  remembered _ i row h := by cases h
  forgotten _ := rfl

theorem Twins.syncAll (h : Twins C T U) (hC : C.Canonical) (snapshots : List (List UInt64)) :
    (syncAll C true T snapshots).1 = (syncAll C false U snapshots).1 ∧
      Twins C (syncAll C true T snapshots).2 (syncAll C false U snapshots).2 := by
  induction snapshots generalizing T U with
  | nil => exact ⟨rfl, h⟩
  | cons words rest ih =>
    obtain ⟨hfirst, htwins⟩ := h.syncAbiSnapshot hC words
    obtain ⟨hlater, hfinal⟩ := ih htwins
    exact ⟨congrArg₂ List.cons hfirst hlater, hfinal⟩

/-- A row of a live slot at its generation is only accepted as the encoding of the slot. -/
theorem Twins.live_row (h : Twins C T U) {c : Category} {index : Nat} {words : List UInt64}
    {s : Sync} {slot : Slot (Descriptor c)} {row : List UInt64}
    (haccepted : syncRow C true c index ⟨words, T⟩ = (.ok (), s))
    (hslot : (T.pools c).slots[index]? = some slot) (hlive : slot.descriptor.isSome = true)
    (hrow : (readFrame words).1 = .ok row) (hgeneration : row.head? = some slot.generation) :
    row = slotRow (C.put.slot c) slot := by
  obtain ⟨row', s', hframe, haccepted⟩ := Fallible.bind_eq_ok.mp haccepted
  obtain ⟨rest, hread, rfl⟩ := Fallible.zoom_eq_ok.mp hframe
  rw [show (readFrame words).1 = .ok row' from congrArg Prod.fst hread, Except.ok.injEq] at hrow
  subst hrow
  obtain ⟨generation, hhead, haccepted⟩ := Fallible.lift_bind_eq_ok.mp haccepted
  rw [okOr_eq_ok, hgeneration, Option.some.injEq] at hhead
  subst hhead
  rw [Fallible.read_bind_run] at haccepted
  obtain ⟨verdict, hresult, -⟩ := Fallible.lift_bind_eq_ok.mp haccepted
  have hverdict : rowVerdict (C.put.slot c) (T.pools c).slots[index]? slot.generation row'
    (rowCompare (T.abi.acceptedRows c) index slot.generation row') = .ok verdict := hresult
  rw [hslot] at hverdict
  exact rowVerdict_live hlive (fun answer => (h.remembered c).compare hslot) hverdict

end Runs

/-- After every sequence of snapshots, a mirror that remembers its accepted rows has accepted and
refused what one that does not would have, and holds the same descriptors.  It accepts a row of a
live slot at its generation only as the encoding of the slot. -/
theorem syncAll_eq_forgetting (C : Codecs) (hC : C.Canonical) (id : UInt64) (id_ne : id ≠ 0)
    (snapshots : List (List UInt64)) :
    let remembering := syncAll C true (ResourceTable.new id id_ne) snapshots
    let forgetting := syncAll C false (ResourceTable.new id id_ne) snapshots
    remembering.1 = forgetting.1 ∧ contentsOf remembering.2 = contentsOf forgetting.2 ∧
      ∀ (c : Category) (index : Nat) (words : List UInt64) (s : Sync) (slot : Slot (Descriptor c))
        (row : List UInt64), syncRow C true c index ⟨words, remembering.2⟩ = (.ok (), s) →
          (remembering.2.pools c).slots[index]? = some slot → slot.descriptor.isSome = true →
          (readFrame words).1 = .ok row → row.head? = some slot.generation →
          row = slotRow (C.put.slot c) slot := by
  intro remembering forgetting
  obtain ⟨hsame, htwins⟩ := (Twins.new id id_ne).syncAll hC snapshots
  refine ⟨hsame, htwins.contents, ?_⟩
  intro c index words s slot row haccepted hslot hlive hrow hgeneration
  exact htwins.live_row haccepted hslot hlive hrow hgeneration

/-- The codecs of snapshots that hold nothing but buffers. -/
def bufferCodecs : Codecs where
  put :=
    { slot
        | .buffer, d => bufferDesc.put d
        | _, _ => []
      sampler := fun _ => []
      pipeline := fun _ => [] }
  get :=
    { slot
        | .buffer => fun _ => bufferDesc.get
        | _ => fun _ => fail .invalidDescriptor
      sampler := fun _ => fail .invalidDescriptor
      pipeline := fun _ => fail .invalidDescriptor }

theorem bufferCodecs_canonical : bufferCodecs.Canonical := by
  intro c contents _ words rest d h
  cases c with
  | buffer => exact bufferDesc_canonical h
  | texture | bindGroup | shaderModule | computePipeline | programmablePipeline => cases h

/-- One storage buffer of 16 bytes. -/
def oneBuffer : List UInt64 := [MAGIC, 7, 1, 0, 1, 4, 0, 1, 16, 32, 0, 0, 0, 0, 0, 0]

theorem mirrorOwner_ne : (2 : UInt64) ≠ 0 := by decide

/-- The second time, the row is the remembered one. -/
theorem syncAll_eq_forgetting_oneBuffer :
    (syncAll bufferCodecs true (ResourceTable.new 2 mirrorOwner_ne) [oneBuffer, oneBuffer]).1 =
        [.ok (7, 1), .ok (7, 1)] ∧
      (syncAll bufferCodecs true (ResourceTable.new 2 mirrorOwner_ne) [oneBuffer, oneBuffer]).1 =
        (syncAll bufferCodecs false (ResourceTable.new 2 mirrorOwner_ne) [oneBuffer, oneBuffer]).1 :=
  ⟨rfl, (syncAll_eq_forgetting bufferCodecs bufferCodecs_canonical 2 mirrorOwner_ne
    [oneBuffer, oneBuffer]).1⟩

end Sgfx.Abi
