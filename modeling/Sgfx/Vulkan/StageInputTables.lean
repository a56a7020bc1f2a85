import Sgfx.Vulkan.SpirvTables
import Sgfx.Vulkan.StageInputs

/-!
# Which inputs are packed

The tables of a module say what its instructions declare, and the groups are the inputs that share
a location, or that have a component other than the first.

## Main Definitions

* `Located`, `Shifted`, `PackedInput` — the inputs that are packed, by the instructions
* `TablesOf` — what the tables say of the instructions

## Main Results

* `tables_of`, `inputGroups_spec`
-/

namespace Sgfx.Vulkan.StageInputs

open Spirv

/-! ## Declarations -/

section Declarations

variable (code : List (List UInt32))

/-- The id of a variable. -/
def IsVariable (id : UInt32) : Prop :=
  ∃ v ∈ code, opcode v = 59 ∧ 4 ≤ v.length ∧ v.getD 2 0 = id

/-- The id of an input. -/
def IsInput (id : UInt32) : Prop :=
  ∃ v ∈ code, opcode v = 59 ∧ 4 ≤ v.length ∧ v.getD 2 0 = id ∧ v.getD 3 0 = 1

/-- The id has a decoration with one operand. -/
def Decorated (id kind value : UInt32) : Prop :=
  ∃ d ∈ code, opcode d = 71 ∧ 3 ≤ d.length ∧ d.getD 1 0 = id ∧ d.getD 2 0 = kind ∧ d.getD 3 0 = value

/-- An input with a location. -/
structure Located (id location : UInt32) : Prop where
  input : IsInput code id
  decorated : Decorated code id 30 location

/-- An input that does not start with the first component. -/
def Shifted (id : UInt32) : Prop := ∃ component ≠ 0, Decorated code id 31 component

/-- The input shares its location, or does not start with its first component. -/
def PackedInput (id : UInt32) : Prop :=
  ∃ location, Located code id location ∧
    (Shifted code id ∨ ∃ other ≠ id, Located code other location)

end Declarations

/-- The decoration of a kind. -/
def Decorations.slot (decor : Decorations) (kind : UInt32) : Option UInt32 :=
  if kind = 30 then decor.location else decor.component

/-- The tables say what the instructions declare. -/
structure TablesOf (code : List (List UInt32)) (tables : Tables) : Prop where
  slot : ∀ kind ∈ [30, 31], ∀ id value,
    (tables.decorationsOf id).slot kind = some value ↔ Decorated code id kind value
  small : ∀ id component, (tables.decorationsOf id).component = some component → component ≤ 3
  variable_mem : ∀ id entry, tables.variableTypes id = some entry → ∃ v ∈ code, opcode v = 59 ∧
    4 ≤ v.length ∧ v.getD 2 0 = id ∧ entry = (v.getD 1 0, v.getD 3 0, v.length)
  variable_isSome : ∀ v ∈ code, opcode v = 59 → 4 ≤ v.length →
    (tables.variableTypes (v.getD 2 0)).isSome
  pointer_mem : ∀ id entry, tables.pointers id = some entry → ∃ p ∈ code, opcode p = 32 ∧
    p.length = 4 ∧ p.getD 1 0 = id ∧ entry = (p.getD 2 0, p.getD 3 0)
  vector_mem : ∀ id entry, tables.vectors id = some entry → ∃ v ∈ code, opcode v = 23 ∧
    v.length = 4 ∧ v.getD 1 0 = id ∧ entry = (v.getD 2 0, v.getD 3 0)
  scalar_mem : ∀ id, tables.scalars id = some () → ∃ s ∈ code, (opcode s = 21 ∨ opcode s = 22) ∧
    2 ≤ s.length ∧ s.getD 1 0 = id

/-! ## Decorations -/

section Decorations

variable {code : List (List UInt32)} {tables tables' : Tables} {i : List UInt32}
  {id kind value : UInt32}

theorem decorationsOf_insert {decor : Decorations} (same : tables'.decorations =
    tables.decorations.insert id decor) (other : UInt32) :
    tables'.decorationsOf other = if id = other then decor else tables.decorationsOf other := by
  unfold Tables.decorationsOf
  rw [same, Std.TreeMap.getElem?_insert]
  by_cases h : id = other
  · rw [if_pos (Std.LawfulEqOrd.compare_eq_iff_eq.mpr h), if_pos h]
    rfl
  · rw [if_neg fun eq => h (Std.LawfulEqOrd.compare_eq_iff_eq.mp eq), if_neg h]

/-- A decoration sets one slot, which was free or had the same value. -/
theorem decorate_eq_ok (h : decorate tables i = .ok tables') :
    ∃ target, tables' = { tables with
        decorations := tables.decorations.insert (i.getD 1 0) target } ∧
      (target.component = (tables.decorationsOf (i.getD 1 0)).component ∨
        (target.component = some (i.getD 3 0) ∧ i.getD 3 0 ≤ 3)) ∧
      ∀ kind ∈ [30, 31],
        (i.getD 2 0 = kind ∧ target.slot kind = some (i.getD 3 0) ∧
          ∀ value, (tables.decorationsOf (i.getD 1 0)).slot kind = some value →
            value = i.getD 3 0) ∨
        (i.getD 2 0 ≠ kind ∧ target.slot kind =
          (tables.decorationsOf (i.getD 1 0)).slot kind) := by
  unfold decorate at h
  dsimp only at h
  split at h
  · rename_i placed
    obtain ⟨_, _, h⟩ := except_bind_eq_ok.mp h
    obtain ⟨_, agree, h⟩ := except_bind_eq_ok.mp h
    obtain ⟨_, small, h⟩ := except_bind_eq_ok.mp h
    rw [failIf_eq_ok] at agree small
    have same : ∀ {slot : Option UInt32}, ¬ slot.any (· ≠ i.getD 3 0) = true →
        ∀ value, slot = some value → value = i.getD 3 0 := by
      rintro slot free value rfl
      by_contra other
      exact free (decide_eq_true other)
    cases h
    rcases placed with location | component
    · rw [if_pos location] at agree
      refine ⟨_, rfl, .inl ?_, ?_⟩
      · rw [if_pos location]
      · rw [if_pos location]
        simp only [List.forall_mem_cons, List.not_mem_nil, false_implies, implies_true, and_true]
        refine ⟨.inl ⟨location, rfl, same agree⟩, .inr ⟨?_, rfl⟩⟩
        rw [location]
        decide
    · have other : i.getD 2 0 ≠ 30 := by
        rw [component]
        decide
      rw [if_neg other] at agree
      refine ⟨_, rfl, .inr ?_, ?_⟩
      · rw [if_neg other]
        exact ⟨rfl, UInt32.not_lt.mp fun large => small ⟨component, large⟩⟩
      · rw [if_neg other]
        simp only [List.forall_mem_cons, List.not_mem_nil, false_implies, implies_true, and_true]
        exact ⟨.inr ⟨other, rfl⟩, .inl ⟨component, rfl, same agree⟩⟩
  · rename_i plain
    cases h
    rw [not_or] at plain
    refine ⟨_, rfl, .inl rfl, ?_⟩
    simp only [List.forall_mem_cons, List.not_mem_nil, false_implies, implies_true, and_true]
    exact ⟨.inr ⟨plain.1, rfl⟩, .inr ⟨plain.2, rfl⟩⟩

/-- What an instruction adds to the tables. -/
inductive Records (tables : Tables) (i : List UInt32) : Tables → Prop
  | scalar (op : opcode i = 21 ∨ opcode i = 22) (long : 2 ≤ i.length) :
      Records tables i { tables with scalars := tables.scalars.insert (i.getD 1 0) () }
  | vector (op : opcode i = 23) (length : i.length = 4) :
      Records tables i
        { tables with vectors := tables.vectors.insert (i.getD 1 0) (i.getD 2 0, i.getD 3 0) }
  | pointer (op : opcode i = 32) (length : i.length = 4) :
      Records tables i
        { tables with pointers := tables.pointers.insert (i.getD 1 0) (i.getD 2 0, i.getD 3 0) }
  | variableType (op : opcode i = 59) (long : 4 ≤ i.length) :
      Records tables i { tables with
        variableTypes := tables.variableTypes.insert (i.getD 2 0)
          (i.getD 1 0, i.getD 3 0, i.length) }
  | decoration (op : opcode i = 71) (long : 3 ≤ i.length) {tables' : Tables}
      (h : decorate tables i = .ok tables') : Records tables i tables'
  | other (undeclared : ¬ (opcode i = 59 ∧ 4 ≤ i.length))
      (undecorated : ¬ (opcode i = 71 ∧ 3 ≤ i.length)) : Records tables i tables

theorem recordTables_eq_ok (h : recordTables tables i = .ok tables') : Records tables i tables' := by
  unfold recordTables at h
  split at h
  · rename_i int
    cases h
    exact .scalar (.inl int.1) (by omega)
  split at h
  · rename_i float
    cases h
    exact .scalar (.inr float.1) (by omega)
  split at h
  · rename_i vector
    cases h
    exact .vector vector.1 vector.2
  split at h
  · rename_i pointer
    cases h
    exact .pointer pointer.1 pointer.2
  split at h
  · rename_i declared
    cases h
    exact .variableType declared.1 declared.2
  · rename_i undeclared
    split at h
    · rename_i decorated
      exact .decoration decorated.1 decorated.2 h
    · rename_i undecorated
      split at h
      · obtain ⟨_, _, h⟩ := except_bind_eq_ok.mp h
        cases h
        exact .other undeclared undecorated
      · cases h
        exact .other undeclared undecorated

/-! ## Tables -/

/-- Every entry of a table is that of an instruction. -/
theorem table_mem {α : Type} (part : Tables → IdMap α) (entry : List UInt32 → UInt32 → α → Prop)
    (empty : part {} = .empty)
    (step : ∀ tables i tables', Records tables i tables' → part tables' = part tables ∨
      ∃ id a, entry i id a ∧ part tables' = (part tables).insert id a)
    (h : code.foldlM recordTables {} = .ok tables) :
    ∀ id a, part tables id = some a → ∃ i ∈ code, entry i id a := by
  refine foldlM_ok (fun done tables => ∀ id a, part tables id = some a → ∃ i ∈ done, entry i id a)
    ?_ ?_ h
  · intro id a h
    rw [empty] at h
    cases h
  · intro done i tables tables' old recorded id a found
    have before : part tables id = some a → ∃ j ∈ done ++ [i], entry j id a := by
      intro found
      obtain ⟨j, member, h⟩ := old id a found
      exact ⟨j, List.mem_append_left _ member, h⟩
    rcases step tables i tables' (recordTables_eq_ok recorded) with same | ⟨id', a', mine, same⟩
    · rw [same] at found
      exact before found
    · rw [same] at found
      rcases IdMap.insert_eq_some found with ⟨rfl, rfl⟩ | found
      · exact ⟨i, List.mem_append_right _ List.mem_cons_self, mine⟩
      · exact before found

theorem Decorated.append_left {rest : List (List UInt32)} (h : Decorated code id kind value) :
    Decorated (code ++ rest) id kind value := by
  obtain ⟨d, member, h⟩ := h
  exact ⟨d, List.mem_append_left _ member, h⟩

/-- What a decoration adds. -/
theorem decorated_append_singleton : Decorated (code ++ [i]) id kind value ↔
    Decorated code id kind value ∨ (opcode i = 71 ∧ 3 ≤ i.length ∧ i.getD 1 0 = id ∧
      i.getD 2 0 = kind ∧ i.getD 3 0 = value) := by
  unfold Decorated
  simp only [List.mem_append, List.mem_singleton, or_and_right, exists_or, exists_eq_left]

/-- Tables without another decoration. -/
theorem Records.decorations_eq (h : Records tables i tables')
    (undecorated : ¬ (opcode i = 71 ∧ 3 ≤ i.length)) : tables'.decorations = tables.decorations := by
  cases h with
  | scalar => rfl
  | vector => rfl
  | pointer => rfl
  | variableType => rfl
  | decoration op long h => exact absurd ⟨op, long⟩ undecorated
  | other => rfl

theorem Records.decorate_eq (h : Records tables i tables') (op : opcode i = 71)
    (long : 3 ≤ i.length) : decorate tables i = .ok tables' := by
  cases h with
  | scalar other =>
    rw [op] at other
    exact absurd other (by decide)
  | vector other =>
    rw [op] at other
    exact absurd other (by decide)
  | pointer other =>
    rw [op] at other
    exact absurd other (by decide)
  | variableType other =>
    rw [op] at other
    exact absurd other (by decide)
  | decoration _ _ h => exact h
  | other _ undecorated => exact absurd ⟨op, long⟩ undecorated

theorem tables_slot (h : code.foldlM recordTables {} = .ok tables) :
    ∀ kind ∈ [30, 31], ∀ id value,
      (tables.decorationsOf id).slot kind = some value ↔ Decorated code id kind value := by
  refine foldlM_ok (fun done tables => ∀ kind ∈ [30, 31], ∀ id value,
    (tables.decorationsOf id).slot kind = some value ↔ Decorated done id kind value) ?_ ?_ h
  · intro kind _ id value
    have none : (({} : Tables).decorationsOf id).slot kind = none := by
      have empty : ({} : Tables).decorationsOf id = {} := by
        unfold Tables.decorationsOf
        rw [Std.TreeMap.getElem?_emptyc]
        rfl
      rw [empty, Decorations.slot]
      split <;> rfl
    rw [none]
    exact ⟨fun h => (Option.some_ne_none _ h.symm).elim,
      fun ⟨d, member, _⟩ => absurd member List.not_mem_nil⟩
  · intro done i tables tables' old recorded kind listed id value
    have records := recordTables_eq_ok recorded
    rw [decorated_append_singleton, ← old kind listed id value]
    by_cases decorated : opcode i = 71 ∧ 3 ≤ i.length
    · obtain ⟨target, same, _, slots⟩ :=
        decorate_eq_ok (records.decorate_eq decorated.1 decorated.2)
      have here : tables'.decorationsOf id =
          if i.getD 1 0 = id then target else tables.decorationsOf id :=
        decorationsOf_insert (by rw [same]) id
      rw [here]
      by_cases mine : i.getD 1 0 = id
      · rw [if_pos mine, ← mine]
        rcases slots kind listed with ⟨kinds, set, agree⟩ | ⟨other, kept⟩
        · rw [set, Option.some.injEq]
          constructor
          · exact fun now => .inr ⟨decorated.1, decorated.2, rfl, kinds, now⟩
          · rintro (before | now)
            · exact (agree value before).symm
            · exact now.2.2.2.2
        · rw [kept]
          exact ⟨.inl, fun h => h.resolve_right fun now => other now.2.2.2.1⟩
      · rw [if_neg mine]
        exact ⟨.inl, fun h => h.resolve_right fun now => mine now.2.2.1⟩
    · have same : tables'.decorationsOf id = tables.decorationsOf id := by
        unfold Tables.decorationsOf
        rw [records.decorations_eq decorated]
      rw [same]
      exact ⟨.inl, fun h => h.resolve_right fun now => decorated ⟨now.1, now.2.1⟩⟩

theorem tables_small (h : code.foldlM recordTables {} = .ok tables) :
    ∀ id component, (tables.decorationsOf id).component = some component → component ≤ 3 := by
  refine foldlM_ok (fun _ tables => ∀ id component,
    (tables.decorationsOf id).component = some component → component ≤ 3) ?_ ?_ h
  · intro id component found
    unfold Tables.decorationsOf at found
    rw [Std.TreeMap.getElem?_emptyc] at found
    cases found
  · intro done i tables tables' old recorded id component found
    have records := recordTables_eq_ok recorded
    by_cases decorated : opcode i = 71 ∧ 3 ≤ i.length
    · obtain ⟨target, same, small, _⟩ :=
        decorate_eq_ok (records.decorate_eq decorated.1 decorated.2)
      have here : tables'.decorationsOf id =
          if i.getD 1 0 = id then target else tables.decorationsOf id :=
        decorationsOf_insert (by rw [same]) id
      rw [here] at found
      split at found
      · rcases small with kept | ⟨set, small⟩
        · exact old _ component (kept ▸ found)
        · rw [set] at found
          exact Option.some.inj found ▸ small
      · exact old id component found
    · have same : tables'.decorationsOf id = tables.decorationsOf id := by
        unfold Tables.decorationsOf
        rw [records.decorations_eq decorated]
      exact old id component (same ▸ found)

theorem tables_variable_isSome (h : code.foldlM recordTables {} = .ok tables) :
    ∀ v ∈ code, opcode v = 59 → 4 ≤ v.length → (tables.variableTypes (v.getD 2 0)).isSome := by
  refine foldlM_ok (fun done tables => ∀ v ∈ done, opcode v = 59 → 4 ≤ v.length →
    (tables.variableTypes (v.getD 2 0)).isSome) (fun v member => absurd member List.not_mem_nil)
    ?_ h
  intro done i tables tables' old recorded v member op long
  have before : v ∈ done → (tables.variableTypes (v.getD 2 0)).isSome :=
    fun member => old v member op long
  have mine : v ∈ done ∨ v = i := by
    rcases List.mem_append.mp member with member | member
    · exact .inl member
    · exact .inr (List.mem_singleton.mp member)
  cases recordTables_eq_ok recorded with
  | scalar other =>
    rcases mine with member | rfl
    · exact before member
    · rw [op] at other
      exact absurd other (by decide)
  | vector other =>
    rcases mine with member | rfl
    · exact before member
    · rw [op] at other
      exact absurd other (by decide)
  | pointer other =>
    rcases mine with member | rfl
    · exact before member
    · rw [op] at other
      exact absurd other (by decide)
  | variableType =>
    rcases mine with member | rfl
    · exact IdMap.insert_isSome (.inr (before member))
    · exact IdMap.insert_isSome (.inl rfl)
  | decoration other _ h =>
    obtain ⟨target, rfl, _⟩ := decorate_eq_ok h
    rcases mine with member | rfl
    · exact before member
    · rw [op] at other
      exact absurd other (by decide)
  | other undeclared =>
    rcases mine with member | rfl
    · exact before member
    · exact absurd ⟨op, long⟩ undeclared

/-- The tables after the first loop. -/
theorem tables_of (h : code.foldlM recordTables {} = .ok tables) : TablesOf code tables where
  slot := tables_slot h
  small := tables_small h
  variable_isSome := tables_variable_isSome h
  variable_mem := by
    refine table_mem Tables.variableTypes (fun v id entry => opcode v = 59 ∧ 4 ≤ v.length ∧
      v.getD 2 0 = id ∧ entry = (v.getD 1 0, v.getD 3 0, v.length)) rfl ?_ h
    intro tables i tables' records
    cases records with
    | scalar => exact .inl rfl
    | vector => exact .inl rfl
    | pointer => exact .inl rfl
    | variableType op long => exact .inr ⟨_, _, ⟨op, long, rfl, rfl⟩, rfl⟩
    | decoration _ _ h =>
      obtain ⟨target, rfl, _⟩ := decorate_eq_ok h
      exact .inl rfl
    | other => exact .inl rfl
  pointer_mem := by
    refine table_mem Tables.pointers (fun p id entry => opcode p = 32 ∧ p.length = 4 ∧
      p.getD 1 0 = id ∧ entry = (p.getD 2 0, p.getD 3 0)) rfl ?_ h
    intro tables i tables' records
    cases records with
    | scalar => exact .inl rfl
    | vector => exact .inl rfl
    | pointer op length => exact .inr ⟨_, _, ⟨op, length, rfl, rfl⟩, rfl⟩
    | variableType => exact .inl rfl
    | decoration _ _ h =>
      obtain ⟨target, rfl, _⟩ := decorate_eq_ok h
      exact .inl rfl
    | other => exact .inl rfl
  vector_mem := by
    refine table_mem Tables.vectors (fun v id entry => opcode v = 23 ∧ v.length = 4 ∧
      v.getD 1 0 = id ∧ entry = (v.getD 2 0, v.getD 3 0)) rfl ?_ h
    intro tables i tables' records
    cases records with
    | scalar => exact .inl rfl
    | vector op length => exact .inr ⟨_, _, ⟨op, length, rfl, rfl⟩, rfl⟩
    | pointer => exact .inl rfl
    | variableType => exact .inl rfl
    | decoration _ _ h =>
      obtain ⟨target, rfl, _⟩ := decorate_eq_ok h
      exact .inl rfl
    | other => exact .inl rfl
  scalar_mem := by
    intro id found
    refine table_mem Tables.scalars (fun s id _ => (opcode s = 21 ∨ opcode s = 22) ∧
      2 ≤ s.length ∧ s.getD 1 0 = id) rfl ?_ h id () found
    intro tables i tables' records
    cases records with
    | scalar op long => exact .inr ⟨_, _, ⟨op, long, rfl⟩, rfl⟩
    | vector => exact .inl rfl
    | pointer => exact .inl rfl
    | variableType => exact .inl rfl
    | decoration _ _ h =>
      obtain ⟨target, rfl, _⟩ := decorate_eq_ok h
      exact .inl rfl
    | other => exact .inl rfl

end Decorations

/-! ## Groups -/

section Groups

variable {g : Dialect} {code : List (List UInt32)} {bound : UInt32} {tables : Tables}
  {groups : Std.TreeMap UInt32 (List UInt32)} {id location : UInt32}

/-- A variable has one declaration. -/
theorem variable_unique (numbered : g.Numbered bound code) {v w : List UInt32} (hv : v ∈ code)
    (hw : w ∈ code) (opv : opcode v = 59) (opw : opcode w = 59) (longv : 4 ≤ v.length)
    (longw : 4 ≤ w.length) (same : v.getD 2 0 = w.getD 2 0) : v = w := by
  have hv' : g.resultOf v = some (v.getD 2 0) :=
    (Dialect.result_value (by rw [opv]; decide) (by omega)).1
  have hw' : g.resultOf w = some (w.getD 2 0) :=
    (Dialect.result_value (by rw [opw]; decide) (by omega)).1
  exact numbered.eq_of_result hv hw hv' (same ▸ hw')

theorem TablesOf.isInput_iff (tables_of : TablesOf code tables) (numbered : g.Numbered bound code) :
    tables.isInput id = true ↔ IsInput code id := by
  unfold Tables.isInput
  rw [Option.any_eq_true]
  constructor
  · rintro ⟨entry, found, storage⟩
    obtain ⟨v, member, op, long, same, rfl⟩ := tables_of.variable_mem id entry found
    exact ⟨v, member, op, long, same, beq_iff_eq.mp storage⟩
  · rintro ⟨v, member, op, long, rfl, storage⟩
    obtain ⟨entry, found⟩ := Option.isSome_iff_exists.mp
      (tables_of.variable_isSome v member op long)
    obtain ⟨w, there, opw, longw, same, rfl⟩ := tables_of.variable_mem _ entry found
    obtain rfl := variable_unique numbered there member opw op longw long same
    exact ⟨_, found, beq_iff_eq.mpr storage⟩

theorem TablesOf.location_iff (tables_of : TablesOf code tables) :
    (tables.decorationsOf id).location = some location ↔ Decorated code id 30 location :=
  tables_of.slot 30 (by decide) id location

theorem TablesOf.isShifted_iff (tables_of : TablesOf code tables) :
    (tables.decorationsOf id).isShifted = true ↔ Shifted code id := by
  have slot : ∀ component, (tables.decorationsOf id).component = some component ↔
      Decorated code id 31 component := tables_of.slot 31 (by decide) id
  unfold Decorations.isShifted Shifted
  rw [Option.any_eq_true]
  constructor
  · rintro ⟨component, found, shifted⟩
    exact ⟨component, of_decide_eq_true shifted, (slot component).mp found⟩
  · rintro ⟨component, shifted, decorated⟩
    exact ⟨component, (slot component).mpr decorated, decide_eq_true shifted⟩

/-- A turn adds an input to its location. -/
theorem groupTurn_eq_ok {entry : UInt32 × Decorations}
    {groups' : Std.TreeMap UInt32 (List UInt32)}
    (h : groupTurn tables groups entry = .ok groups') :
    (∃ location, tables.isInput entry.1 = true ∧ entry.2.location = some location ∧
      groups' = groups.insert location ((groups[location]?).getD [] ++ [entry.1])) ∨
    (¬ (tables.isInput entry.1 = true ∧ entry.2.location.isSome) ∧ groups' = groups) := by
  unfold groupTurn at h
  obtain ⟨_, _, h⟩ := except_bind_eq_ok.mp h
  split at h
  · rename_i location input found
    cases h
    exact .inl ⟨location, input, found, rfl⟩
  · rename_i other
    cases h
    refine .inr ⟨?_, rfl⟩
    rintro ⟨input, found⟩
    obtain ⟨location, found⟩ := Option.isSome_iff_exists.mp found
    exact other location input found

/-- The groups hold the inputs that are done, by their locations. -/
structure GroupsOf (tables : Tables) (done : List (UInt32 × Decorations))
    (groups : Std.TreeMap UInt32 (List UInt32)) : Prop where
  mem_iff : ∀ location id : UInt32, id ∈ (groups[location]?).getD [] ↔
    ∃ decor, (id, decor) ∈ done ∧ tables.isInput id = true ∧ decor.location = some location
  nonempty : ∀ (location : UInt32) (ids : List UInt32), groups[location]? = some ids → ids ≠ []
  nodup : (done.map Prod.fst).Nodup → ∀ location : UInt32, ((groups[location]?).getD []).Nodup

theorem groups_of {entries : List (UInt32 × Decorations)}
    (h : entries.foldlM (groupTurn tables) ∅ = .ok groups) : GroupsOf tables entries groups := by
  refine foldlM_ok (GroupsOf tables) ⟨?_, ?_, ?_⟩ ?_ h
  · intro location id
    rw [Std.TreeMap.getElem?_emptyc]
    exact ⟨fun h => absurd h List.not_mem_nil, fun ⟨_, h, _⟩ => absurd h List.not_mem_nil⟩
  · intro location ids h
    rw [Std.TreeMap.getElem?_emptyc] at h
    cases h
  · intro _ location
    rw [Std.TreeMap.getElem?_emptyc]
    exact List.nodup_nil
  · intro done entry groups groups' old turned
    have later : ∀ {location id}, (∃ decor, (id, decor) ∈ done ++ [entry] ∧
        tables.isInput id = true ∧ decor.location = some location) ↔
        (∃ decor, (id, decor) ∈ done ∧ tables.isInput id = true ∧
          decor.location = some location) ∨
        (id = entry.1 ∧ tables.isInput id = true ∧ entry.2.location = some location) := by
      intro location id
      constructor
      · rintro ⟨decor, member, rest⟩
        rcases List.mem_append.mp member with member | member
        · exact .inl ⟨decor, member, rest⟩
        · obtain rfl := List.mem_singleton.mp member
          exact .inr ⟨rfl, rest⟩
      · rintro (⟨decor, member, rest⟩ | ⟨rfl, rest⟩)
        · exact ⟨decor, List.mem_append_left _ member, rest⟩
        · exact ⟨entry.2, List.mem_append_right _ List.mem_cons_self, rest⟩
    rcases groupTurn_eq_ok turned with ⟨location, input, found, rfl⟩ | ⟨other, rfl⟩
    · refine ⟨fun location' id => ?_, fun location' ids found => ?_, fun distinct location' => ?_⟩
      · rw [later, ← old.mem_iff location' id, getElem?_insert_eq]
        by_cases here : location = location'
        · rw [if_pos here, here, Option.getD_some, List.mem_append, List.mem_singleton]
          refine or_congr_right ⟨fun same => ⟨same, same ▸ input, here ▸ found⟩, And.left⟩
        · rw [if_neg here]
          refine ⟨.inl, fun h => h.resolve_right fun mine => here ?_⟩
          exact Option.some.inj (found.symm.trans mine.2.2)
      · rw [getElem?_insert_eq] at found
        split at found
        · obtain rfl := Option.some.inj found
          exact List.append_ne_nil_of_right_ne_nil _ (List.cons_ne_nil _ _)
        · exact old.nonempty location' ids found
      · rw [List.map_append, List.nodup_append] at distinct
        obtain ⟨before, _, apart⟩ := distinct
        rw [getElem?_insert_eq]
        split
        · rw [Option.getD_some, List.nodup_append]
          refine ⟨old.nodup before _, List.pairwise_singleton _ _, ?_⟩
          rintro id member id' last rfl
          obtain ⟨decor, member, _⟩ := (old.mem_iff _ id).mp member
          exact apart id (List.mem_map_of_mem member) id last rfl
        · exact old.nodup before location'
    · refine ⟨fun location' id => ?_, old.nonempty, fun distinct => ?_⟩
      · rw [later, ← old.mem_iff location' id]
        refine ⟨.inl, fun h => h.resolve_right ?_⟩
        rintro ⟨rfl, input, found⟩
        exact other ⟨input, Option.isSome_iff_exists.mpr ⟨_, found⟩⟩
      · rw [List.map_append, List.nodup_append] at distinct
        exact old.nodup distinct.1

/-- The groups are of packed inputs, each of which is in a group. -/
structure PackedGroups (code : List (List UInt32)) (groups : List (UInt32 × List UInt32)) :
    Prop where
  nonempty : ∀ group ∈ groups, group.2 ≠ []
  located : ∀ group ∈ groups, ∀ id ∈ group.2, Located code id group.1
  packed : ∀ group ∈ groups, ∀ id ∈ group.2, PackedInput code id
  exists_group : ∀ id, PackedInput code id → ∃ group ∈ groups, id ∈ group.2

theorem inputGroups_spec {retained : List (UInt32 × List UInt32)} (tables_of : TablesOf code tables)
    (numbered : g.Numbered bound code) (h : inputGroups tables = .ok retained) :
    PackedGroups code retained := by
  obtain ⟨groups, found, h⟩ := except_bind_eq_ok.mp h
  cases h
  have spec := groups_of found
  have distinct : (tables.decorations.toList.map Prod.fst).Nodup := by
    refine List.pairwise_map.mpr (Std.TreeMap.distinct_keys_toList.imp ?_)
    intro a b differ same
    exact differ (Std.LawfulEqOrd.compare_eq_iff_eq.mpr same)
  have entries : ∀ id decor, (id, decor) ∈ tables.decorations.toList ↔
      tables.decorations[id]? = some decor := fun id decor =>
    Std.TreeMap.mem_toList_iff_getElem?_eq_some
  -- A group holds the inputs with its location.
  have located : ∀ location id : UInt32, id ∈ (groups[location]?).getD [] ↔ Located code id location := by
    intro location id
    rw [spec.mem_iff]
    constructor
    · rintro ⟨decor, member, input, placed⟩
      have same : tables.decorationsOf id = decor := by
        unfold Tables.decorationsOf
        rw [(entries id decor).mp member]
        rfl
      exact ⟨(tables_of.isInput_iff numbered).mp input,
        tables_of.location_iff.mp (same ▸ placed)⟩
    · rintro ⟨input, placed⟩
      have placed := tables_of.location_iff.mpr placed
      cases entry : tables.decorations[id]? with
      | none =>
        unfold Tables.decorationsOf at placed
        rw [entry] at placed
        cases placed
      | some decor =>
        refine ⟨decor, (entries id decor).mpr entry, (tables_of.isInput_iff numbered).mpr input, ?_⟩
        unfold Tables.decorationsOf at placed
        rwa [entry] at placed
  have group_mem : ∀ group, group ∈ groups.toList.filter (isRetained tables) ↔
      groups[group.1]? = some group.2 ∧ isRetained tables group = true := by
    intro group
    rw [List.mem_filter, ← Std.TreeMap.mem_toList_iff_getElem?_eq_some]
  have inside : ∀ group ∈ groups.toList.filter (isRetained tables), ∀ id ∈ group.2,
      Located code id group.1 := by
    intro group member id there
    refine (located group.1 id).mp ?_
    rwa [((group_mem group).mp member).1]
  refine ⟨?_, inside, ?_, ?_⟩
  · intro group member
    exact spec.nonempty _ _ ((group_mem group).mp member).1
  · intro group member id there
    obtain ⟨entry, retained⟩ := (group_mem group).mp member
    refine ⟨group.1, inside group member id there, ?_⟩
    have nodup := spec.nodup distinct group.1
    rw [entry, Option.getD_some] at nodup
    rcases shape : group.2 with _ | ⟨a, _ | ⟨b, rest⟩⟩
    · rw [shape] at there
      cases there
    · -- An input alone has a component.
      rw [shape] at there
      obtain rfl := List.mem_singleton.mp there
      unfold isRetained at retained
      rw [shape, Bool.or_eq_true, decide_eq_true_eq] at retained
      have shifted := retained.resolve_left (Nat.lt_irrefl 1)
      exact .inl (tables_of.isShifted_iff.mp shifted)
    · rw [shape] at nodup
      have first : a ∈ group.2 := shape ▸ List.mem_cons_self
      have second : b ∈ group.2 := shape ▸ List.mem_cons_of_mem _ List.mem_cons_self
      have differ : a ≠ b := fun same =>
        (List.nodup_cons.mp nodup).1 (same ▸ List.mem_cons_self)
      by_cases here : id = a
      · exact .inr ⟨b, fun same => differ (here ▸ same.symm), inside group member b second⟩
      · exact .inr ⟨a, fun same => here same.symm, inside group member a first⟩
  · rintro id ⟨location, here, several⟩
    have member := (located location id).mpr here
    cases entry : groups[location]? with
    | none =>
      rw [entry] at member
      cases member
    | some ids =>
      rw [entry, Option.getD_some] at member
      refine ⟨(location, ids), (group_mem _).mpr ⟨entry, ?_⟩, member⟩
      unfold isRetained
      rw [Bool.or_eq_true, decide_eq_true_eq]
      match ids, entry, member with
      | [only], entry, member =>
        obtain rfl := List.mem_singleton.mp member
        rcases several with shifted | ⟨other, differ, there⟩
        · exact .inr (tables_of.isShifted_iff.mpr shifted)
        · have there := (located location other).mpr there
          rw [entry, Option.getD_some] at there
          exact absurd (List.mem_singleton.mp there) differ
      | a :: b :: rest, _, _ => exact .inl (Nat.succ_lt_succ (Nat.succ_pos _))

end Groups

end Sgfx.Vulkan.StageInputs
