import Mathlib.Data.List.Dedup
import Sgfx.Vulkan.InputAttachmentRewriting

/-!
# Handles of input attachments

The loop over the attachments takes an id for every type and every pointer of a depth attachment,
in whatever order the attachments come.

## Main Definitions

* `Allotted` — ids for keys, one after the other
* `HandlesOf` — what the loop has seen

## Main Results

* `handles_spec`
* `keys_length` — the number of ids does not depend on the order
-/

namespace Sgfx.Vulkan.InputAttachments

open Spirv

/-! ## Tables -/

section Tables

variable {g : Dialect} {bound : UInt32} {code : List (List UInt32)} {i : List UInt32}
  {t p v index : UInt32}

/-- The words of a type of subpass data. -/
theorem isSubpassType_iff : isSubpassType i = true ↔
    opcode i = 25 ∧ 9 ≤ i.length ∧ i.getD 3 0 = 6 := by
  unfold isSubpassType
  rw [Bool.and_eq_true, Bool.and_eq_true, beq_iff_eq, beq_iff_eq, decide_eq_true_eq, and_assoc]

theorem isIndex_iff : isIndex i = true ↔ opcode i = 71 ∧ i.length = 4 ∧ i.getD 2 0 = 43 := by
  unfold isIndex
  rw [Bool.and_eq_true, Bool.and_eq_true, beq_iff_eq, beq_iff_eq, beq_iff_eq, and_assoc]

theorem isFragCoord_iff : isFragCoord i = true ↔
    opcode i = 71 ∧ i.length = 4 ∧ i.getD 2 0 = 11 ∧ i.getD 3 0 = 15 := by
  unfold isFragCoord
  rw [Bool.and_eq_true, Bool.and_eq_true, Bool.and_eq_true, beq_iff_eq, beq_iff_eq, beq_iff_eq,
    beq_iff_eq, and_assoc, and_assoc]

theorem subpassTypes_isSome : (subpassTypes code t).isSome = true ↔ SubpassType code t := by
  constructor
  · intro h
    obtain ⟨image, found⟩ := Option.isSome_iff_exists.mp h
    obtain ⟨i, member, selected⟩ := gather_eq_some found
    split at selected
    · rename_i subpass
      exact ⟨i, member, subpass, congrArg Prod.fst (Option.some.inj selected)⟩
    · cases selected
  · rintro ⟨i, member, subpass, rfl⟩
    exact gather_isSome member (if_pos subpass)

theorem subpassTypes_eq_some (h : subpassTypes code t = some i) :
    i ∈ code ∧ isSubpassType i = true ∧ i.getD 1 0 = t := by
  obtain ⟨j, member, selected⟩ := gather_eq_some h
  split at selected
  · rename_i subpass
    obtain ⟨rfl, rfl⟩ := Prod.mk.inj (Option.some.inj selected)
    exact ⟨member, subpass, rfl⟩
  · cases selected

theorem hasSubpass_iff : HasSubpass code ↔ ∃ type, SubpassType code type := by
  rw [HasSubpass, List.any_eq_true]
  exact ⟨fun ⟨i, member, subpass⟩ => ⟨_, i, member, subpass, rfl⟩,
    fun ⟨_, i, member, subpass, _⟩ => ⟨i, member, subpass⟩⟩

theorem pointers_eq_some {storage ty : UInt32} (h : pointers code p = some (storage, ty)) :
    ∃ i ∈ code, opcode i = 32 ∧ i.length = 4 ∧ i.getD 1 0 = p ∧ i.getD 2 0 = storage ∧
      i.getD 3 0 = ty := by
  obtain ⟨i, member, selected⟩ := gather_eq_some h
  split at selected
  · rename_i declares
    obtain ⟨same, entry⟩ := Prod.mk.inj (Option.some.inj selected)
    obtain ⟨rfl, rfl⟩ := Prod.mk.inj entry
    exact ⟨i, member, declares.1, declares.2, same, rfl, rfl⟩
  · cases selected

theorem variableTypes_eq_some (h : variableTypes code v = some p) :
    ∃ i ∈ code, opcode i = 59 ∧ 4 ≤ i.length ∧ i.getD 2 0 = v ∧ i.getD 1 0 = p := by
  obtain ⟨i, member, selected⟩ := gather_eq_some h
  split at selected
  · rename_i declares
    obtain ⟨same, rfl⟩ := Prod.mk.inj (Option.some.inj selected)
    exact ⟨i, member, declares.1, declares.2, same, rfl⟩
  · cases selected

theorem attachments_append (i : List UInt32) : attachments (code ++ [i]) =
    if isIndex i = true then (attachments code).insert (i.getD 1 0) (i.getD 3 0)
    else attachments code := by
  unfold attachments
  by_cases index : isIndex i = true
  · rw [if_pos index, List.filter_append, List.filter_cons, if_pos index, List.foldl_append]
    rfl
  · rw [if_neg index, List.filter_append, List.filter_cons, if_neg index, List.filter_nil,
      List.append_nil]

theorem attachments_eq_some (h : (attachments code)[v]? = some index) :
    ∃ d ∈ code, isIndex d = true ∧ d.getD 1 0 = v ∧ d.getD 3 0 = index := by
  induction code using List.reverseRecOn with
  | nil => cases h
  | append_singleton code i ih =>
    have before : (attachments code)[v]? = some index →
        ∃ d ∈ code ++ [i], isIndex d = true ∧ d.getD 1 0 = v ∧ d.getD 3 0 = index := by
      intro h
      obtain ⟨d, member, rest⟩ := ih h
      exact ⟨d, List.mem_append_left _ member, rest⟩
    rw [attachments_append] at h
    split at h
    · rename_i last
      rw [getElem?_insert_eq] at h
      split at h
      · rename_i same
        exact ⟨i, List.mem_append_right _ List.mem_cons_self, last, same, Option.some.inj h⟩
      · exact before h
    · exact before h

theorem attachments_isSome {d : List UInt32} (member : d ∈ code) (h : isIndex d = true) :
    ((attachments code)[d.getD 1 0]?).isSome = true := by
  induction code using List.reverseRecOn with
  | nil => cases member
  | append_singleton code i ih =>
    rw [attachments_append]
    rcases List.mem_append.mp member with old | last
    · split
      · rw [getElem?_insert_eq]
        split
        · rfl
        · exact ih old
      · exact ih old
    · obtain rfl := List.mem_singleton.mp last
      rw [if_pos h, getElem?_insert_eq, if_pos rfl]
      rfl

end Tables

/-! ## Allotted ids -/

/-- A table has an id for each key of a kind, by the place of the key. -/
def TableOf (base : UInt32) (keys : List (Bool × UInt32)) (kind : Bool) (table : IdMap UInt32) :
    Prop :=
  ∀ key id, table key = some id ↔ ∃ k, keys[k]? = some (kind, key) ∧ id = base + UInt32.ofNat k

section Allotted

variable {base next key : UInt32} {keys : List (Bool × UInt32)} {kind other : Bool}
  {table : IdMap UInt32}

theorem TableOf.mem (h : TableOf base keys kind table) :
    (table key).isSome = true ↔ (kind, key) ∈ keys := by
  rw [Option.isSome_iff_exists, List.mem_iff_getElem?]
  constructor
  · rintro ⟨id, found⟩
    obtain ⟨k, there, _⟩ := (h key id).mp found
    exact ⟨k, there⟩
  · rintro ⟨k, there⟩
    exact ⟨_, (h key _).mpr ⟨k, there, rfl⟩⟩

theorem tableOf_nil : TableOf base [] kind .empty := by
  intro key id
  constructor
  · intro found
    cases found
  · rintro ⟨k, there, _⟩
    cases there

/-- A key of the other kind does not matter. -/
theorem TableOf.append (h : TableOf base keys kind table) (differ : other ≠ kind) :
    TableOf base (keys ++ [(other, key)]) kind table := by
  intro key' id
  rw [h key' id]
  refine exists_congr fun k => and_congr_left fun _ => ?_
  rw [List.getElem?_append]
  split
  · rfl
  · rename_i outside
    rw [List.getElem?_eq_none (Nat.le_of_not_lt outside)]
    refine ⟨fun none => (Option.some_ne_none _ none.symm).elim, fun last => ?_⟩
    have member := List.mem_of_getElem? last
    have same := congrArg Prod.fst (List.mem_singleton.mp member)
    exact absurd same.symm differ

/-- The next id is for a new key. -/
theorem TableOf.insert (h : TableOf base keys kind table) (new : (kind, key) ∉ keys) :
    TableOf base (keys ++ [(kind, key)]) kind
      (table.insert key (base + UInt32.ofNat keys.length)) := by
  intro key' id
  have place : ∀ k, (keys ++ [(kind, key)])[k]? = some (kind, key') ↔
      keys[k]? = some (kind, key') ∨ (k = keys.length ∧ key' = key) := by
    intro k
    rw [List.getElem?_append]
    split
    · rename_i inside
      exact ⟨.inl, fun h => h.resolve_right fun last => by omega⟩
    · rename_i outside
      rw [List.getElem?_eq_none (Nat.le_of_not_lt outside), List.getElem?_singleton]
      constructor
      · intro last
        split at last
        · have same := congrArg Prod.snd (Option.some.inj last)
          exact .inr ⟨by omega, same.symm⟩
        · cases last
      · rintro (none | ⟨rfl, rfl⟩)
        · cases none
        · rw [Nat.sub_self]
          rfl
  by_cases same : key' = key
  · obtain rfl := same
    rw [IdMap.insert_self]
    constructor
    · intro found
      exact ⟨keys.length, (place _).mpr (.inr ⟨rfl, rfl⟩), (Option.some.inj found).symm⟩
    · rintro ⟨k, there, rfl⟩
      rcases (place k).mp there with old | ⟨rfl, _⟩
      · exact absurd (List.mem_of_getElem? old) new
      · rfl
  · rw [IdMap.insert_of_ne same, h key' id]
    refine exists_congr fun k => and_congr_left fun _ => ?_
    rw [place]
    exact ⟨.inl, fun h => h.resolve_right fun last => same last.2⟩

/-- `orInsert` adds a key that is not there. -/
theorem orInsert_spec (key : UInt32) (h : TableOf base keys kind table)
    (nodup : keys.Nodup) (hnext : next = base + UInt32.ofNat keys.length) :
    ∃ keys', (keys' = keys ∨ keys' = keys ++ [(kind, key)]) ∧ (kind, key) ∈ keys' ∧ keys'.Nodup ∧
      TableOf base keys' kind (orInsert table next key).1 ∧
      (orInsert table next key).2 = base + UInt32.ofNat keys'.length := by
  unfold orInsert
  cases found : table key with
  | some id =>
    have member := h.mem.mp (Option.isSome_iff_exists.mpr ⟨id, found⟩)
    exact ⟨keys, .inl rfl, member, nodup, h, hnext⟩
  | none =>
    have new : (kind, key) ∉ keys := by
      intro member
      have some := h.mem.mpr member
      rw [found] at some
      cases some
    refine ⟨keys ++ [(kind, key)], .inr rfl, List.mem_append_right _ List.mem_cons_self, ?_, ?_, ?_⟩
    · rw [List.nodup_append]
      refine ⟨nodup, List.pairwise_singleton _ _, ?_⟩
      rintro a old b last rfl
      exact new (List.mem_singleton.mp last ▸ old)
    · rw [hnext]
      exact h.insert new
    · rw [List.length_append, List.length_singleton, hnext]
      show base + UInt32.ofNat keys.length + 1 = _
      rw [UInt32.add_assoc, UInt32.ofNat_add]
      rfl

end Allotted

/-! ## The loop -/

/-- The type and the pointer of a variable with subpass data. -/
structure ImageOf (code : List (List UInt32)) (v pointer ty : UInt32) : Prop where
  typed : variableTypes code v = some pointer
  points : InputAttachments.pointers code pointer = some (0, ty)
  subpass : SubpassType code ty

/-- The attachments that are done, and the keys of those of depth. -/
structure HandlesOf (code : List (List UInt32)) (inputs : List (Option Bool)) (base : UInt32)
    (done : List (UInt32 × UInt32)) (keys : List (Bool × UInt32)) (s : Handles) : Prop where
  nodup : keys.Nodup
  next : s.next = base + UInt32.ofNat keys.length
  types : TableOf base keys false s.depthTypes
  pointers : TableOf base keys true s.depthPointers
  images : ∀ v ty depth, s.imageVariables v = some (ty, depth) → ∃ index, (v, index) ∈ done ∧
    inputs[index.toNat]? = some (some depth) ∧ ∃ pointer, ImageOf code v pointer ty
  complete : ∀ v index, (v, index) ∈ done → (s.imageVariables v).isSome = true
  depth : ∀ v index, (v, index) ∈ done → ∃ depth pointer ty, ImageOf code v pointer ty ∧
    inputs[index.toNat]? = some (some depth) ∧
    (depth = true → (false, ty) ∈ keys ∧ (true, pointer) ∈ keys)
  keys : ∀ key ∈ keys, ∃ v index pointer ty, (v, index) ∈ done ∧
    inputs[index.toNat]? = some (some true) ∧ ImageOf code v pointer ty ∧
    (key = (false, ty) ∨ key = (true, pointer))

/-- A turn of the loop. -/
theorem handleTurn_eq_ok {code : List (List UInt32)} {inputs : List (Option Bool)}
    {s s' : Handles} {entry : UInt32 × UInt32} (h : handleTurn code inputs s entry = .ok s') :
    ∃ depth pointer ty, inputs[entry.2.toNat]? = some (some depth) ∧
      ImageOf code entry.1 pointer ty ∧
      s'.imageVariables = s.imageVariables.insert entry.1 (ty, depth) ∧
      if depth then
        s'.depthTypes = (orInsert s.depthTypes s.next ty).1 ∧
        s'.depthPointers = (orInsert s.depthPointers (orInsert s.depthTypes s.next ty).2 pointer).1 ∧
        s'.next = (orInsert s.depthPointers (orInsert s.depthTypes s.next ty).2 pointer).2
      else s'.depthTypes = s.depthTypes ∧ s'.depthPointers = s.depthPointers ∧ s'.next = s.next := by
  obtain ⟨depth, known, h⟩ := except_bind_eq_ok.mp h
  obtain ⟨pointer, typed, h⟩ := except_bind_eq_ok.mp h
  obtain ⟨⟨storage, ty⟩, points, h⟩ := except_bind_eq_ok.mp h
  obtain ⟨image, subpass, h⟩ := except_bind_eq_ok.mp h
  obtain ⟨_, plain, h⟩ := except_bind_eq_ok.mp h
  rw [okOr_eq_ok] at known typed points subpass
  rw [failIf_eq_ok, not_or, not_not] at plain
  have points := plain.1 ▸ points
  have known : inputs[entry.2.toNat]? = some (some depth) := by
    cases listed : inputs[entry.2.toNat]? with
    | none =>
      rw [listed] at known
      cases known
    | some value =>
      rw [listed] at known
      exact congrArg some known
  refine ⟨depth, pointer, ty, known,
    ⟨typed, points, subpassTypes_isSome.mp (Option.isSome_iff_exists.mpr ⟨image, subpass⟩)⟩, ?_⟩
  dsimp only at h
  split at h
  · rename_i depth
    cases h
    rw [if_pos depth]
    exact ⟨rfl, rfl, rfl, rfl⟩
  · rename_i flat
    cases h
    rw [if_neg flat]
    exact ⟨rfl, rfl, rfl, rfl⟩

theorem handleTurn_spec {code : List (List UInt32)} {inputs : List (Option Bool)} {base : UInt32}
    {done : List (UInt32 × UInt32)} {keys : List (Bool × UInt32)} {s s' : Handles}
    {entry : UInt32 × UInt32} (of : HandlesOf code inputs base done keys s)
    (h : handleTurn code inputs s entry = .ok s') :
    ∃ keys', HandlesOf code inputs base (done ++ [entry]) keys' s' := by
  obtain ⟨depth, pointer, ty, known, imageOf, inserted, h⟩ := handleTurn_eq_ok h
  have images : ∀ v ty' depth',
      (s.imageVariables.insert entry.1 (ty, depth)) v = some (ty', depth') → ∃ index,
      (v, index) ∈ done ++ [entry] ∧ inputs[index.toNat]? = some (some depth') ∧
      ∃ pointer, ImageOf code v pointer ty' := by
    intro v ty' depth' found
    rcases IdMap.insert_eq_some found with ⟨rfl, same⟩ | old
    · obtain ⟨rfl, rfl⟩ := Prod.mk.inj same
      exact ⟨entry.2, List.mem_append_right _ List.mem_cons_self, known, pointer, imageOf⟩
    · obtain ⟨index, member, rest⟩ := of.images v ty' depth' old
      exact ⟨index, List.mem_append_left _ member, rest⟩
  have complete : ∀ v index, (v, index) ∈ done ++ [entry] →
      (s.imageVariables.insert entry.1 (ty, depth) v).isSome = true := by
    intro v index member
    refine IdMap.insert_isSome ?_
    rcases List.mem_append.mp member with old | last
    · exact .inr (of.complete v index old)
    · exact .inl (congrArg Prod.fst (List.mem_singleton.mp last))
  have depths : ∀ keys' : List (Bool × UInt32), keys ⊆ keys' →
      (depth = true → (false, ty) ∈ keys' ∧ (true, pointer) ∈ keys') →
      ∀ v index, (v, index) ∈ done ++ [entry] → ∃ depth pointer ty, ImageOf code v pointer ty ∧
        inputs[index.toNat]? = some (some depth) ∧
        (depth = true → (false, ty) ∈ keys' ∧ (true, pointer) ∈ keys') := by
    intro keys' larger new v index member
    rcases List.mem_append.mp member with old | last
    · obtain ⟨depth', pointer', ty', image', known', keyed⟩ := of.depth v index old
      exact ⟨depth', pointer', ty', image', known', fun h =>
        ⟨larger (keyed h).1, larger (keyed h).2⟩⟩
    · obtain rfl := List.mem_singleton.mp last
      exact ⟨depth, pointer, ty, imageOf, known, new⟩
  have keysOf : ∀ keys' : List (Bool × UInt32),
      (∀ key ∈ keys', key ∈ keys ∨ (depth = true ∧ (key = (false, ty) ∨ key = (true, pointer)))) →
      ∀ key ∈ keys', ∃ v index pointer ty, (v, index) ∈ done ++ [entry] ∧
        inputs[index.toNat]? = some (some true) ∧ ImageOf code v pointer ty ∧
        (key = (false, ty) ∨ key = (true, pointer)) := by
    intro keys' each key member
    rcases each key member with old | ⟨rfl, new⟩
    · obtain ⟨v, index, pointer', ty', there, rest⟩ := of.keys key old
      exact ⟨v, index, pointer', ty', List.mem_append_left _ there, rest⟩
    · exact ⟨entry.1, entry.2, pointer, ty, List.mem_append_right _ List.mem_cons_self, known,
        imageOf, new⟩
  rw [← inserted] at images complete
  cases depth with
  | false =>
    obtain ⟨types, pointers, next⟩ := h
    exact ⟨keys, of.nodup, next.trans of.next, types ▸ of.types, pointers ▸ of.pointers, images,
      complete, depths keys (List.Subset.refl _) fun h => absurd h Bool.false_ne_true,
      keysOf keys fun _ => .inl⟩
  | true =>
    obtain ⟨types', pointers', next'⟩ := h
    obtain ⟨keys₁, grown₁, there₁, nodup₁, types, next₁⟩ :=
      orInsert_spec ty of.types of.nodup of.next
    have pointers₁ : TableOf base keys₁ true s.depthPointers := by
      rcases grown₁ with rfl | rfl
      · exact of.pointers
      · exact of.pointers.append (by decide)
    obtain ⟨keys₂, grown₂, there₂, nodup₂, pointers, next₂⟩ :=
      orInsert_spec pointer pointers₁ nodup₁ next₁
    have types₂ : TableOf base keys₂ false (orInsert s.depthTypes s.next ty).1 := by
      rcases grown₂ with rfl | rfl
      · exact types
      · exact types.append (by decide)
    have mem₁ : ∀ key, key ∈ keys₁ ↔ key ∈ keys ∨ key = (false, ty) := by
      intro key
      rcases grown₁ with rfl | rfl
      · exact ⟨.inl, fun h => h.elim id fun same => same ▸ there₁⟩
      · rw [List.mem_append, List.mem_singleton]
    have mem₂ : ∀ key, key ∈ keys₂ ↔ key ∈ keys₁ ∨ key = (true, pointer) := by
      intro key
      rcases grown₂ with rfl | rfl
      · exact ⟨.inl, fun h => h.elim id fun same => same ▸ there₂⟩
      · rw [List.mem_append, List.mem_singleton]
    refine ⟨keys₂, nodup₂, next'.trans next₂, types' ▸ types₂, pointers' ▸ pointers, images,
      complete, depths keys₂ ?_ ?_, keysOf keys₂ ?_⟩
    · exact fun key member => (mem₂ key).mpr (.inl ((mem₁ key).mpr (.inl member)))
    · exact fun _ => ⟨(mem₂ _).mpr (.inl there₁), there₂⟩
    · intro key member
      rcases (mem₂ key).mp member with member | rfl
      · rcases (mem₁ key).mp member with member | rfl
        · exact .inl member
        · exact .inr ⟨rfl, .inl rfl⟩
      · exact .inr ⟨rfl, .inr rfl⟩

/-! ## All attachments -/

section Spec

variable {code : List (List UInt32)} {inputs : List (Option Bool)} {base v p t index : UInt32}
  {order : List (UInt32 × UInt32) → List (UInt32 × UInt32)} {s : Handles}

theorem mem_depthVariables : v ∈ depthVariables code inputs ↔ Attached code inputs v true := by
  unfold depthVariables
  rw [List.mem_map]
  constructor
  · rintro ⟨d, member, rfl⟩
    rw [List.mem_filter, Bool.and_eq_true, beq_iff_eq] at member
    exact ⟨d, member.1, member.2.1, rfl, member.2.2⟩
  · rintro ⟨d, member, isIndex, rfl, depth⟩
    refine ⟨d, List.mem_filter.mpr ⟨member, ?_⟩, rfl⟩
    rw [Bool.and_eq_true, beq_iff_eq]
    exact ⟨isIndex, depth⟩

theorem mem_depthPointers : p ∈ depthPointers code inputs ↔
    ∃ v, Attached code inputs v true ∧ variableTypes code v = some p := by
  unfold depthPointers
  rw [List.mem_dedup, List.mem_filterMap]
  exact exists_congr fun v => and_congr_left fun _ => mem_depthVariables

theorem mem_depthTypes : t ∈ depthTypes code inputs ↔
    ∃ p ∈ depthPointers code inputs, ∃ storage, pointers code p = some (storage, t) := by
  unfold depthTypes
  rw [List.mem_dedup, List.mem_filterMap]
  refine exists_congr fun p => and_congr_right fun _ => ?_
  rw [Option.map_eq_some_iff]
  constructor
  · rintro ⟨⟨storage, type⟩, found, rfl⟩
    exact ⟨storage, found⟩
  · rintro ⟨storage, found⟩
    exact ⟨(storage, t), found, rfl⟩

/-- What the loop leaves: the images of all attachments, and an id for each key. -/
structure Handled (code : List (List UInt32)) (inputs : List (Option Bool)) (base : UInt32)
    (keys : List (Bool × UInt32)) (s : Handles) : Prop where
  nodup : keys.Nodup
  next : s.next = base + UInt32.ofNat keys.length
  length : keys.length = (depthTypes code inputs).length + (depthPointers code inputs).length
  types : TableOf base keys false s.depthTypes
  pointers : TableOf base keys true s.depthPointers
  attached : ∀ v depth, Attached code inputs v depth →
    ∃ pointer ty, ImageOf code v pointer ty ∧ s.imageVariables v = some (ty, depth) ∧
      (depth = true → (false, ty) ∈ keys ∧ (true, pointer) ∈ keys)
  images : ∀ v ty depth, s.imageVariables v = some (ty, depth) → Attached code inputs v depth
  keys : ∀ key ∈ keys, ∃ v pointer ty, Attached code inputs v true ∧ ImageOf code v pointer ty ∧
    (key = (false, ty) ∨ key = (true, pointer))

theorem handles_eq_ok (h : handles order code inputs base = .ok s) :
    ∃ keys, HandlesOf code inputs base (order (attachments code).toList) keys s := by
  refine foldlM_ok (fun done s => ∃ keys, HandlesOf code inputs base done keys s) ?_ ?_ h
  · exact ⟨[], List.nodup_nil, (UInt32.add_zero base).symm, tableOf_nil, tableOf_nil,
      fun _ _ _ found => absurd found (Option.some_ne_none _).symm,
      fun _ _ member => absurd member List.not_mem_nil,
      fun _ _ member => absurd member List.not_mem_nil,
      fun _ member => absurd member List.not_mem_nil⟩
  · rintro done entry s s' ⟨keys, of⟩ turned
    exact handleTurn_spec of turned

theorem handles_spec (perm : ∀ entries, (order entries).Perm entries)
    (once : ∀ i ∈ code, ∀ j ∈ code, isIndex i = true → isIndex j = true →
      i.getD 1 0 = j.getD 1 0 → i.getD 3 0 = j.getD 3 0)
    (h : handles order code inputs base = .ok s) : ∃ keys, Handled code inputs base keys s := by
  obtain ⟨keys, of⟩ := handles_eq_ok h
  have entries : ∀ v index, (v, index) ∈ order (attachments code).toList ↔
      (attachments code)[v]? = some index := fun v index =>
    (perm _).mem_iff.trans Std.TreeMap.mem_toList_iff_getElem?_eq_some
  have listed : ∀ v depth, Attached code inputs v depth → ∃ index,
      (v, index) ∈ order (attachments code).toList ∧
      inputs[index.toNat]? = some (some depth) := by
    rintro v depth ⟨d, member, isIndex, rfl, known⟩
    obtain ⟨index, found⟩ := Option.isSome_iff_exists.mp (attachments_isSome member isIndex)
    obtain ⟨e, there, again, same, rfl⟩ := attachments_eq_some found
    refine ⟨_, (entries _ _).mpr found, ?_⟩
    rw [once e there d member again isIndex same]
    exact known
  have attachedOf : ∀ v index depth, (v, index) ∈ order (attachments code).toList →
      inputs[index.toNat]? = some (some depth) → Attached code inputs v depth := by
    intro v index depth member known
    obtain ⟨d, there, isIndex, same, rfl⟩ := attachments_eq_some ((entries v index).mp member)
    exact ⟨d, there, isIndex, same, known⟩
  have attached : ∀ v depth, Attached code inputs v depth →
      ∃ pointer ty, ImageOf code v pointer ty ∧ s.imageVariables v = some (ty, depth) ∧
        (depth = true → (false, ty) ∈ keys ∧ (true, pointer) ∈ keys) := by
    intro v depth attached
    obtain ⟨index, member, known⟩ := listed v depth attached
    obtain ⟨depth', pointer, ty, image, known', keyed⟩ := of.depth v index member
    obtain rfl := Option.some.inj (Option.some.inj (known.symm.trans known'))
    obtain ⟨⟨ty', depth'⟩, found⟩ := Option.isSome_iff_exists.mp (of.complete v index member)
    obtain ⟨index', member', known', pointer', image'⟩ := of.images v ty' depth' found
    have same := ((entries v index).mp member).symm.trans ((entries v index').mp member')
    obtain rfl := Option.some.inj same
    obtain rfl := Option.some.inj (Option.some.inj (known.symm.trans known'))
    obtain rfl := Option.some.inj (image.typed.symm.trans image'.typed)
    have types := Option.some.inj (image.points.symm.trans image'.points)
    obtain rfl : ty = ty' := congrArg Prod.snd types
    exact ⟨pointer, ty, image, found, keyed⟩
  have keysOf : ∀ key ∈ keys, ∃ v pointer ty, Attached code inputs v true ∧
      ImageOf code v pointer ty ∧ (key = (false, ty) ∨ key = (true, pointer)) := by
    intro key member
    obtain ⟨v, index, pointer, ty, there, known, image, same⟩ := of.keys key member
    exact ⟨v, pointer, ty, attachedOf v index true there known, image, same⟩
  refine ⟨keys, of.nodup, of.next, ?_, of.types, of.pointers, attached, ?_, keysOf⟩
  · have distinct : ((depthTypes code inputs).map (Prod.mk false) ++
        (depthPointers code inputs).map (Prod.mk true)).Nodup := by
      rw [List.nodup_append]
      refine ⟨(List.nodup_dedup _).map fun _ _ same => congrArg Prod.snd same,
        (List.nodup_dedup _).map fun _ _ same => congrArg Prod.snd same, ?_⟩
      rintro a type b pointer rfl
      obtain ⟨_, _, rfl⟩ := List.mem_map.mp type
      obtain ⟨_, _, differ⟩ := List.mem_map.mp pointer
      cases differ
    have same : keys.Perm ((depthTypes code inputs).map (Prod.mk false) ++
        (depthPointers code inputs).map (Prod.mk true)) := by
      refine (List.perm_ext_iff_of_nodup of.nodup distinct).mpr fun key => ?_
      rw [List.mem_append, List.mem_map, List.mem_map]
      constructor
      · intro member
        obtain ⟨v, pointer, ty, depth, image, same⟩ := keysOf key member
        have pointed := mem_depthPointers.mpr ⟨v, depth, image.typed⟩
        rcases same with rfl | rfl
        · exact .inl ⟨ty, mem_depthTypes.mpr ⟨pointer, pointed, 0, image.points⟩, rfl⟩
        · exact .inr ⟨pointer, pointed, rfl⟩
      · rintro (⟨ty, member, rfl⟩ | ⟨pointer, member, rfl⟩)
        · obtain ⟨p, member, storage, points⟩ := mem_depthTypes.mp member
          obtain ⟨v, depth, typed⟩ := mem_depthPointers.mp member
          obtain ⟨pointer, ty', image, _, keyed⟩ := attached v true depth
          obtain rfl := Option.some.inj (image.typed.symm.trans typed)
          have types := Option.some.inj (image.points.symm.trans points)
          have same : ty' = ty := congrArg Prod.snd types
          exact same ▸ (keyed rfl).1
        · obtain ⟨v, depth, typed⟩ := mem_depthPointers.mp member
          obtain ⟨pointer', ty', image, _, keyed⟩ := attached v true depth
          obtain rfl := Option.some.inj (image.typed.symm.trans typed)
          exact (keyed rfl).2
    rw [same.length_eq, List.length_append, List.length_map, List.length_map]
  · intro v ty depth found
    obtain ⟨index, member, known, _⟩ := of.images v ty depth found
    exact attachedOf v index depth member known

end Spec

end Sgfx.Vulkan.InputAttachments
