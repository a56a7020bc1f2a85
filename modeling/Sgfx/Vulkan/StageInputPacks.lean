import Sgfx.Vulkan.StageInputTables

/-!
# Vectors of packed inputs

The inputs of a group are lanes of one vector, with the location of the group and new ids.

## Main Definitions

* `MemberOf` — an input as its declarations say
* `PackOf` — the vector of a group

## Main Results

* `packGroups_forall₂`, `packGroups_supplied`
* `isPacked_iff` — the inputs by id are the packed ones
-/

namespace Sgfx.Vulkan.StageInputs

open Spirv

/-- The type of an input has lanes of a scalar type. -/
def Lanes (code : List (List UInt32)) (ty scalar width : UInt32) : Prop :=
  (∃ t ∈ code, opcode t = 23 ∧ t.length = 4 ∧ t.getD 1 0 = ty ∧ t.getD 2 0 = scalar ∧
    t.getD 3 0 = width) ∨ (width = 1 ∧ scalar = ty)

/-- A packed input: its component, the type of its variable, and its lanes. -/
structure MemberOf (code : List (List UInt32)) (input : Input) : Prop where
  component : Decorated code input.id 31 input.component ∨
    (input.component = 0 ∧ ∀ component, ¬ Decorated code input.id 31 component)
  typed : ∃ v ∈ code, ∃ p ∈ code, opcode v = 59 ∧ v.length = 4 ∧ v.getD 2 0 = input.id ∧
    v.getD 3 0 = 1 ∧ opcode p = 32 ∧ p.length = 4 ∧ p.getD 1 0 = v.getD 1 0 ∧ p.getD 2 0 = 1 ∧
    p.getD 3 0 = input.ty
  lanes : Lanes code input.ty input.scalar input.width
  scalar : ∃ s ∈ code, (opcode s = 21 ∨ opcode s = 22) ∧ 2 ≤ s.length ∧ s.getD 1 0 = input.scalar
  width : 1 ≤ input.width.toNat
  fits : input.component.toNat + input.width.toNat ≤ 4

/-- The vector of a group, whose members have one scalar type. -/
structure PackOf (code : List (List UInt32)) (group : UInt32 × List UInt32) (pack : Pack) :
    Prop where
  location : pack.combined.location = group.1
  ids : (pack.members.map Input.id).Perm group.2
  members : ∀ input ∈ pack.members, MemberOf code input ∧ input.scalar = pack.combined.scalar
  qualifiers : ∀ words ∈ pack.combined.qualifiers, words.length = 1

/-- The ids of a vector. -/
def Pack.ids (pack : Pack) : List UInt32 :=
  [pack.combined.vec4, pack.combined.pointer, pack.combined.variableId]

section Members

variable {code : List (List UInt32)} {tables : Tables} {next next' id : UInt32}

theorem fresh_eq_ok (h : fresh next = .ok (id, next')) :
    id = next ∧ next'.toNat = next.toNat + 1 := by
  obtain ⟨sum, hsum, h⟩ := except_bind_eq_ok.mp h
  cases h
  rw [okOr_eq_ok, Option.filter_eq_some_iff] at hsum
  obtain ⟨hsum, _⟩ := hsum
  unfold checkedAdd32 at hsum
  split at hsum
  · rename_i fits
    cases hsum
    refine ⟨rfl, ?_⟩
    rw [UInt32.toNat_add]
    exact Nat.mod_eq_of_lt fits
  · cases hsum

/-- A member that is added. -/
theorem packMember_eq_ok {qualifiers : List (List UInt32)} {s s' : List Input × UInt32}
    (tables_of : TablesOf code tables)
    (h : packMember tables qualifiers s id = .ok s') :
    ∃ input, s'.1 = s.1 ++ [input] ∧ input.id = id ∧ MemberOf code input ∧
      ∀ first, s.1.head? = some first → first.scalar = input.scalar := by
  unfold packMember at h
  dsimp only at h
  obtain ⟨_, _, h⟩ := except_bind_eq_ok.mp h
  cases entry : tables.variableTypes id with
  | none =>
    rw [entry] at h
    obtain ⟨_, _, h⟩ := except_bind_eq_ok.mp h
    obtain ⟨_, storage, _⟩ := except_bind_eq_ok.mp h
    rw [failIf_eq_ok] at storage
    exact absurd (.inl (by decide)) storage
  | some variableType =>
    obtain ⟨v, member, op, long, rfl, rfl⟩ := tables_of.variable_mem id variableType entry
    rw [entry, Option.getD_some] at h
    dsimp only at h
    obtain ⟨⟨pointerStorage, ty⟩, found, h⟩ := except_bind_eq_ok.mp h
    rw [okOr_eq_ok] at found
    obtain ⟨p, there, opp, lengthp, same, pair⟩ := tables_of.pointer_mem _ _ found
    obtain ⟨rfl, rfl⟩ := Prod.mk.inj pair
    obtain ⟨_, storage, h⟩ := except_bind_eq_ok.mp h
    rw [failIf_eq_ok, not_or, not_or, not_not, not_not, not_not] at storage
    obtain ⟨storage, pointerStorage, length⟩ := storage
    have lanes : Lanes code (p.getD 3 0) ((tables.vectors (p.getD 3 0)).getD (p.getD 3 0, 1)).1
        ((tables.vectors (p.getD 3 0)).getD (p.getD 3 0, 1)).2 := by
      cases vector : tables.vectors (p.getD 3 0) with
      | none => exact .inr ⟨rfl, rfl⟩
      | some pair =>
        obtain ⟨t, member, op, length, type, rfl⟩ := tables_of.vector_mem _ _ vector
        exact .inl ⟨t, member, op, length, type, rfl, rfl⟩
    generalize (tables.vectors (p.getD 3 0)).getD (p.getD 3 0, 1) = shape at h lanes
    obtain ⟨scalar, width⟩ := shape
    dsimp only at h lanes
    obtain ⟨_, fits, h⟩ := except_bind_eq_ok.mp h
    rw [failIf_eq_ok, not_or, not_or, not_not] at fits
    obtain ⟨known, ⟨low, high⟩, fits⟩ := fits
    obtain ⟨_, agree, h⟩ := except_bind_eq_ok.mp h
    rw [failIf_eq_ok] at agree
    obtain ⟨_, _, h⟩ := except_bind_eq_ok.mp h
    cases h
    have known : tables.scalars scalar = some () := by
      cases entry : tables.scalars scalar with
      | none =>
        rw [entry] at known
        exact absurd rfl known
      | some there => rfl
    have slot : ∀ component, (tables.decorationsOf (v.getD 2 0)).component = some component ↔
        Decorated code (v.getD 2 0) 31 component := tables_of.slot 31 (by decide) _
    have small : ((tables.decorationsOf (v.getD 2 0)).component.getD 0).toNat ≤ 3 := by
      cases component : (tables.decorationsOf (v.getD 2 0)).component with
      | none => exact Nat.zero_le 3
      | some component' => exact UInt32.le_iff_toNat_le.mp (tables_of.small _ _ component)
    have low := UInt32.le_iff_toNat_le.mp low
    have high := UInt32.le_iff_toNat_le.mp high
    have sum := UInt32.le_iff_toNat_le.mp (UInt32.not_lt.mp fits)
    rw [UInt32.toNat_add] at sum
    have four : (4 : UInt32).toNat = 4 := rfl
    have one : (1 : UInt32).toNat = 1 := rfl
    rw [four] at high sum
    rw [one] at low
    refine ⟨_, rfl, rfl, ⟨?_, ⟨v, member, p, there, op, length, rfl, storage, opp, lengthp, same,
      pointerStorage, rfl⟩, lanes, tables_of.scalar_mem _ known, low, by dsimp only; omega⟩, ?_⟩
    · dsimp only
      cases component : (tables.decorationsOf (v.getD 2 0)).component with
      | none =>
        refine .inr ⟨rfl, fun other decorated => ?_⟩
        rw [(slot other).mpr decorated] at component
        cases component
      | some component' => exact .inl ((slot component').mp component)
    · intro first head
      by_contra differ
      rw [head] at agree
      exact agree (decide_eq_true differ)

theorem packMembers_eq_ok {qualifiers : List (List UInt32)} {ids : List UInt32}
    {members : List Input} {mask : UInt32} (tables_of : TablesOf code tables)
    (h : ids.foldlM (packMember tables qualifiers) ([], 0) = .ok (members, mask)) :
    members.map Input.id = ids ∧
      ∀ input ∈ members, MemberOf code input ∧
        input.scalar = (members.map Input.scalar).headD 0 := by
  refine foldlM_ok (fun done s => s.1.map Input.id = done ∧ ∀ input ∈ s.1, MemberOf code input ∧
    input.scalar = (s.1.map Input.scalar).headD 0) ⟨rfl, fun _ h => absurd h List.not_mem_nil⟩ ?_ h
  rintro done id ⟨before, mask⟩ ⟨after, mask'⟩ ⟨ids, members⟩ added
  obtain ⟨input, rfl, rfl, member, same⟩ := packMember_eq_ok tables_of added
  refine ⟨by rw [List.map_append, ids]; rfl, ?_⟩
  cases before with
  | nil =>
    intro input' there
    obtain rfl := List.mem_singleton.mp there
    exact ⟨member, rfl⟩
  | cons first rest =>
    intro input' there
    rcases List.mem_append.mp there with there | there
    · exact members input' there
    · obtain rfl := List.mem_singleton.mp there
      exact ⟨member, (same first rfl).symm⟩

/-- The vector of a group, with the three next ids. -/
theorem packGroup_eq_ok {group : UInt32 × List UInt32} {pack : Pack}
    (tables_of : TablesOf code tables) (h : packGroup tables next group = .ok (pack, next')) :
    PackOf code group pack ∧ next'.toNat = next.toNat + 3 ∧
      pack.combined.vec4.toNat = next.toNat ∧ pack.combined.pointer.toNat = next.toNat + 1 ∧
      pack.combined.variableId.toNat = next.toNat + 2 := by
  unfold packGroup at h
  dsimp only at h
  obtain ⟨_, qualified, h⟩ := except_bind_eq_ok.mp h
  obtain ⟨⟨members, mask⟩, packed, h⟩ := except_bind_eq_ok.mp h
  obtain ⟨⟨vec4, second⟩, one, h⟩ := except_bind_eq_ok.mp h
  obtain ⟨⟨pointer, third⟩, two, h⟩ := except_bind_eq_ok.mp h
  obtain ⟨⟨variableId, last⟩, three, h⟩ := except_bind_eq_ok.mp h
  cases h
  obtain ⟨rfl, one⟩ := fresh_eq_ok one
  obtain ⟨rfl, two⟩ := fresh_eq_ok two
  obtain ⟨rfl, three⟩ := fresh_eq_ok three
  obtain ⟨ids, members⟩ := packMembers_eq_ok tables_of packed
  dsimp only at one two three
  refine ⟨⟨rfl, ?_, members, ?_⟩, show last.toNat = _ by omega, rfl, one, by rw [two, one]⟩
  · rw [ids]
    exact List.perm_insertionSort _ _
  · intro words listed
    rw [failIf_eq_ok, List.any_eq_true] at qualified
    by_contra long
    refine qualified ⟨words, listed, ?_⟩
    rw [isQualifier, Bool.not_eq_true', Bool.and_eq_false_iff]
    exact .inl (beq_false_of_ne long)

theorem packGroups_forall₂ {groups : List (UInt32 × List UInt32)} {packs : List Pack}
    (tables_of : TablesOf code tables)
    (h : transduce (packGroup tables) next groups = .ok (packs, next')) :
    List.Forall₂ (PackOf code) groups packs :=
  (transduce_forall₂ h (fun _ _ => True) _ trivial fun _ _ _ _ _ _ _ _ turned =>
    ⟨trivial, (packGroup_eq_ok tables_of turned).1⟩).1

/-- The ids of the vectors are the next ones, each once. -/
theorem packGroups_supplied {groups : List (UInt32 × List UInt32)} {packs : List Pack}
    (tables_of : TablesOf code tables)
    (h : transduce (packGroup tables) next groups = .ok (packs, next')) :
    Supplied UInt32.toNat (fun _ => []) Pack.ids next.toNat groups packs next'.toNat := by
  refine transduce_supplied h UInt32.toNat fun group _ s₁ pack s₂ _ turned => ?_
  obtain ⟨_, last, vec4, pointer, variableId⟩ := packGroup_eq_ok tables_of turned
  refine ⟨by omega, ?_, fun id member => .inr ?_⟩
  · have first : pack.combined.vec4 ≠ pack.combined.pointer := fun same => by
      rw [same] at vec4
      omega
    have second : pack.combined.vec4 ≠ pack.combined.variableId := fun same => by
      rw [same] at vec4
      omega
    have third : pack.combined.pointer ≠ pack.combined.variableId := fun same => by
      rw [same] at pointer
      omega
    simp only [Pack.ids, List.nodup_cons, List.mem_cons, List.not_mem_nil, or_false, not_or,
      not_false_eq_true, List.nodup_nil, and_true]
    exact ⟨⟨first, second⟩, third⟩
  · simp only [Pack.ids, List.mem_cons, List.not_mem_nil, or_false] at member
    rcases member with rfl | rfl | rfl
    · omega
    · omega
    · omega

end Members

/-! ## Inputs by id -/

section Inputs

variable {packs : List Pack} {id : UInt32}

theorem foldl_insert {entries : List (Input × Combined)} {m : IdMap (Input × Combined)} :
    (∀ entry, entries.foldl (fun inputs entry => inputs.insert entry.1.id entry) m id =
        some entry → (entry ∈ entries ∧ entry.1.id = id) ∨ m id = some entry) ∧
      ((∃ entry ∈ entries, entry.1.id = id) ∨ (m id).isSome →
        (entries.foldl (fun inputs entry => inputs.insert entry.1.id entry) m id).isSome) := by
  induction entries generalizing m with
  | nil => exact ⟨fun _ h => .inr h, fun h => h.resolve_left fun ⟨_, h, _⟩ =>
      absurd h List.not_mem_nil⟩
  | cons first rest ih =>
    rw [List.foldl_cons]
    have step := @ih (m.insert first.1.id first)
    refine ⟨fun entry found => ?_, fun h => step.2 ?_⟩
    · rcases step.1 entry found with ⟨member, same⟩ | found
      · exact .inl ⟨List.mem_cons_of_mem _ member, same⟩
      · rcases IdMap.insert_eq_some found with ⟨rfl, rfl⟩ | found
        · exact .inl ⟨List.mem_cons_self, rfl⟩
        · exact .inr found
    · rcases h with ⟨entry, member, same⟩ | old
      · rcases List.mem_cons.mp member with rfl | member
        · exact .inr (IdMap.insert_isSome (.inl same.symm))
        · exact .inl ⟨entry, member, same⟩
      · exact .inr (IdMap.insert_isSome (.inr old))

theorem packedInputs_eq_some {input : Input} {combined : Combined}
    (h : packedInputs packs id = some (input, combined)) :
    ∃ pack ∈ packs, pack.combined = combined ∧ input ∈ pack.members ∧ input.id = id := by
  rcases foldl_insert.1 _ h with ⟨member, same⟩ | none
  · obtain ⟨pack, there, member⟩ := List.mem_flatMap.mp member
    obtain ⟨input', inside, pair⟩ := List.mem_map.mp member
    obtain ⟨rfl, rfl⟩ := Prod.mk.inj pair
    exact ⟨pack, there, rfl, inside, same⟩
  · cases none

theorem isPacked_packs : isPacked (packedInputs packs) id = true ↔
    ∃ pack ∈ packs, ∃ input ∈ pack.members, input.id = id := by
  unfold isPacked
  constructor
  · intro h
    obtain ⟨⟨input, combined⟩, found⟩ := Option.isSome_iff_exists.mp h
    obtain ⟨pack, there, _, inside, same⟩ := packedInputs_eq_some found
    exact ⟨pack, there, input, inside, same⟩
  · rintro ⟨pack, there, input, inside, same⟩
    refine foldl_insert.2 (.inl ⟨(input, pack.combined), ?_, same⟩)
    exact List.mem_flatMap.mpr ⟨pack, there, List.mem_map_of_mem inside⟩

/-- The inputs by id are the packed ones. -/
theorem isPacked_iff {code : List (List UInt32)} {groups : List (UInt32 × List UInt32)}
    (packed : PackedGroups code groups) (related : List.Forall₂ (PackOf code) groups packs) :
    isPacked (packedInputs packs) id = true ↔ PackedInput code id := by
  rw [isPacked_packs]
  constructor
  · rintro ⟨pack, there, input, inside, rfl⟩
    obtain ⟨group, member, pack_of⟩ := forall₂_mem_right related there
    exact packed.packed group member _ (pack_of.ids.mem_iff.mp (List.mem_map_of_mem inside))
  · intro h
    obtain ⟨group, member, listed⟩ := packed.exists_group id h
    obtain ⟨pack, there, pack_of⟩ := forall₂_mem_left related member
    obtain ⟨input, inside, same⟩ := List.mem_map.mp (pack_of.ids.mem_iff.mpr listed)
    exact ⟨pack, there, input, inside, same⟩

end Inputs

end Sgfx.Vulkan.StageInputs
