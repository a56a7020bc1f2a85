import Mathlib.Data.List.Induction
import Std.Data.TreeMap
import Sgfx.Vulkan.Specialization
import Sgfx.Vulkan.SpirvGrammar

/-!
# Tables of SPIR-V instructions

A pass collects what instructions declare in maps from ids.  A later declaration of an id replaces
an earlier one.

## Main Definitions

* `gather` — the entries that instructions have in a table
* `entries` — the same table, with its entries in a list

## Main Results

* `gather_eq_some`, `gather_isSome` — what a table has is declared
* `gather_eq_some_iff` — a table of declarations that do not differ
-/

namespace Sgfx.Vulkan.Spirv

variable {α : Type} {select : List UInt32 → Option (UInt32 × α)} {code : List (List UInt32)}
  {i : List UInt32} {id : UInt32} {a : α}

/-- An entry after an insertion. -/
theorem getElem?_insert_eq {α : Type} (m : Std.TreeMap UInt32 α) (k other : UInt32) (a : α) :
    (m.insert k a)[other]? = if k = other then some a else m[other]? := by
  rw [Std.TreeMap.getElem?_insert]
  by_cases h : k = other
  · rw [if_pos (Std.LawfulEqOrd.compare_eq_iff_eq.mpr h), if_pos h]
  · rw [if_neg fun eq => h (Std.LawfulEqOrd.compare_eq_iff_eq.mp eq), if_neg h]

/-- One more entry of a table. -/
def recordOne (select : List UInt32 → Option (UInt32 × α)) (table : IdMap α) (i : List UInt32) :
    IdMap α :=
  match select i with
  | some (id, a) => table.insert id a
  | none => table

/-- The entries of all instructions (`collect::<HashMap<_, _>>`). -/
def gather (select : List UInt32 → Option (UInt32 × α)) (code : List (List UInt32)) : IdMap α :=
  code.foldl (recordOne select) .empty

theorem recordOne_eq_some {table : IdMap α} (h : recordOne select table i id = some a) :
    select i = some (id, a) ∨ table id = some a := by
  unfold recordOne at h
  cases selected : select i with
  | none =>
    rw [selected] at h
    exact .inr h
  | some entry =>
    rw [selected] at h
    rcases IdMap.insert_eq_some h with ⟨rfl, rfl⟩ | old
    · exact .inl rfl
    · exact .inr old

theorem recordOne_isSome {table : IdMap α}
    (h : (∃ a, select i = some (id, a)) ∨ (table id).isSome) :
    (recordOne select table i id).isSome := by
  unfold recordOne
  cases selected : select i with
  | none =>
    refine h.resolve_left fun ⟨a, again⟩ => ?_
    rw [selected] at again
    cases again
  | some entry =>
    refine IdMap.insert_isSome (h.imp_left fun ⟨a, again⟩ => ?_)
    rw [selected] at again
    exact congrArg Prod.fst (Option.some.inj again.symm)

theorem gather_append_singleton : gather select (code ++ [i]) =
    recordOne select (gather select code) i := List.foldl_append ..

/-- An entry is one of an instruction. -/
theorem gather_eq_some (h : gather select code id = some a) :
    ∃ i ∈ code, select i = some (id, a) := by
  induction code using List.reverseRecOn with
  | nil => cases h
  | append_singleton code i ih =>
    rw [gather_append_singleton] at h
    rcases recordOne_eq_some h with mine | old
    · exact ⟨i, List.mem_append_right _ List.mem_cons_self, mine⟩
    · obtain ⟨j, member, selected⟩ := ih old
      exact ⟨j, List.mem_append_left _ member, selected⟩

/-- The id of an entry is in the table. -/
theorem gather_isSome (member : i ∈ code) (selected : select i = some (id, a)) :
    (gather select code id).isSome := by
  induction code using List.reverseRecOn with
  | nil => cases member
  | append_singleton code j ih =>
    rw [gather_append_singleton]
    refine recordOne_isSome ?_
    rcases List.mem_append.mp member with old | last
    · exact .inr (ih old)
    · obtain rfl := List.mem_singleton.mp last
      exact .inl ⟨a, selected⟩

/-- A table of declarations that do not differ. -/
theorem gather_eq_some_iff
    (same : ∀ i ∈ code, ∀ j ∈ code, ∀ id a b, select i = some (id, a) → select j = some (id, b) →
      a = b) : gather select code id = some a ↔ ∃ i ∈ code, select i = some (id, a) := by
  refine ⟨gather_eq_some, fun ⟨i, member, selected⟩ => ?_⟩
  obtain ⟨b, found⟩ := Option.isSome_iff_exists.mp (gather_isSome member selected)
  obtain ⟨j, there, again⟩ := gather_eq_some found
  rw [found, same i member j there id a b selected again]

/-- An entry that does not differ from others. -/
theorem gather_of_mem (member : i ∈ code) (selected : select i = some (id, a))
    (same : ∀ j ∈ code, ∀ b, select j = some (id, b) → b = a) :
    gather select code id = some a := by
  obtain ⟨b, found⟩ := Option.isSome_iff_exists.mp (gather_isSome member selected)
  obtain ⟨j, there, again⟩ := gather_eq_some found
  rw [found, same j there b again]

/-- Declarations of ids do not differ, as an id has one definition. -/
theorem gather_results {g : Dialect} {bound : UInt32} (numbered : g.Numbered bound code)
    (defines : ∀ i ∈ code, ∀ id a, select i = some (id, a) → g.resultOf i = some id) :
    gather select code id = some a ↔ ∃ i ∈ code, select i = some (id, a) := by
  refine gather_eq_some_iff fun i member j there id a b selected again => ?_
  have same := numbered.eq_of_result member there (defines i member id a selected)
    (defines j there id b again)
  rw [same, again] at selected
  exact (Prod.mk.inj (Option.some.inj selected)).2.symm

/-! ## Larger tables -/

/-- The entries of all instructions besides those of a table. -/
def recordAll (select : List UInt32 → Option (UInt32 × α)) (table : IdMap α)
    (code : List (List UInt32)) : IdMap α := code.foldl (recordOne select) table

theorem recordAll_eq_some {table : IdMap α} (h : recordAll select table code id = some a) :
    table id = some a ∨ ∃ i ∈ code, select i = some (id, a) := by
  induction code using List.reverseRecOn with
  | nil => exact .inl h
  | append_singleton code i ih =>
    rw [recordAll, List.foldl_append] at h
    rcases recordOne_eq_some h with mine | old
    · exact .inr ⟨i, List.mem_append_right _ List.mem_cons_self, mine⟩
    · refine (ih old).imp_right fun ⟨j, member, selected⟩ => ?_
      exact ⟨j, List.mem_append_left _ member, selected⟩

theorem recordAll_isSome {table : IdMap α}
    (h : (∃ i ∈ code, ∃ a, select i = some (id, a)) ∨ (table id).isSome) :
    (recordAll select table code id).isSome := by
  induction code using List.reverseRecOn with
  | nil =>
    refine h.resolve_left ?_
    rintro ⟨i, none, _⟩
    cases none
  | append_singleton code j ih =>
    rw [recordAll, List.foldl_append]
    refine recordOne_isSome ?_
    rcases h with ⟨i, member, a, selected⟩ | old
    · rcases List.mem_append.mp member with before | last
      · exact .inr (ih (.inl ⟨i, before, a, selected⟩))
      · obtain rfl := List.mem_singleton.mp last
        exact .inl ⟨a, selected⟩
    · exact .inr (ih (.inr old))

/-- One more entry of a tree. -/
def enter (select : List UInt32 → Option (UInt32 × α)) (table : Std.TreeMap UInt32 α)
    (i : List UInt32) : Std.TreeMap UInt32 α :=
  match select i with
  | some (id, a) => table.insert id a
  | none => table

/-- The entries of all instructions, in a tree. -/
def entries (select : List UInt32 → Option (UInt32 × α)) (code : List (List UInt32)) :
    Std.TreeMap UInt32 α := code.foldl (enter select) ∅

theorem entries_getElem? (select : List UInt32 → Option (UInt32 × α))
    (code : List (List UInt32)) (id : UInt32) : (entries select code)[id]? = gather select code id := by
  induction code using List.reverseRecOn with
  | nil => rfl
  | append_singleton code i ih =>
    rw [gather_append_singleton, entries, List.foldl_append]
    show (enter select (entries select code) i)[id]? = _
    unfold enter recordOne
    cases select i with
    | none => exact ih
    | some entry =>
      dsimp only
      rw [getElem?_insert_eq, ih]
      by_cases same : entry.1 = id
      · rw [if_pos same, ← same, IdMap.insert_self]
      · rw [if_neg same, IdMap.insert_of_ne (Ne.symm same)]

/-- The entries in the tree are those of the table. -/
theorem mem_entries : (id, a) ∈ (entries select code).toList ↔ gather select code id = some a := by
  rw [Std.TreeMap.mem_toList_iff_getElem?_eq_some, entries_getElem?]

end Sgfx.Vulkan.Spirv
