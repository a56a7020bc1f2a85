import Sgfx.Vulkan.TexelBufferRewriting

/-!
# Tables of texel buffers

The tables of `lower` hold the images of buffers, what wraps and points to them, the variables, and
what was loaded from these.

## Main Results

* `tables_wrappers`, `tables_pointers`, `tables_buffers`, `tables_aliases`
* `removed_iff` — the ids that go
* `WellFormed.number_kept`, `WellFormed.coordinate_kept` — what a fetch refers to stays
-/

namespace Sgfx.Vulkan.TexelBuffers

open Spirv

section Tables

variable {g : Dialect} {words : List UInt32} {code done rest : List (List UInt32)}
  {i j : List UInt32} {id scalar other buffer type : UInt32}

/-! ## Results -/

/-- The instructions of values that `lower` looks at. -/
theorem WellFormed.value_result (wf : WellFormed g words code) (member : i ∈ code)
    (op : opcode i ∈ [59, 61, 65, 83, 95, 100]) :
    4 ≤ i.length ∧ g.resultOf i = some (i.getD 2 0) ∧ g.typeOf i = some (i.getD 1 0) := by
  obtain ⟨exact, _, _, _, _, declared, access, fetch, _, _⟩ := wf.lengths i member
  have long : 4 ≤ i.length := by
    simp only [List.mem_cons, List.not_mem_nil, or_false] at op
    rcases op with op | op | op | op | op | op
    · exact declared (.inl op)
    · exact declared (.inr op)
    · exact access op
    · exact Nat.le_of_eq (exact (by rw [op]; decide)).symm
    · exact Nat.le_of_succ_le (fetch op)
    · exact Nat.le_of_eq (exact (by rw [op]; decide)).symm
  have value : opcode i ∈ valueOpcodes := by
    simp only [List.mem_cons, List.not_mem_nil, or_false] at op
    rcases op with op | op | op | op | op | op <;> rw [op] <;> decide
  exact ⟨long, Dialect.result_value value (Nat.le_of_succ_le long)⟩

theorem WellFormed.type_result (wf : WellFormed g words code) (member : i ∈ code)
    (low : 19 ≤ opcode i) (high : opcode i ≤ 38) :
    g.resultOf i = some (i.getD 1 0) ∧ g.typeOf i = none := by
  obtain ⟨_, _, _, _, _, _, _, _, _, long⟩ := wf.lengths i member
  have high' : opcode i ≤ 39 := by
    rw [UInt32.le_iff_toNat_le] at high ⊢
    exact Nat.le_trans high (by decide)
  exact Dialect.result_type low high (long ⟨low, high'⟩)

/-! ## Types and variables -/

theorem imageOf_eq_some (wf : WellFormed g words code) (member : i ∈ code) :
    imageOf i = some (id, scalar) ↔
      opcode i = 25 ∧ i.getD 3 0 = 5 ∧ i.getD 1 0 = id ∧ i.getD 2 0 = scalar := by
  obtain ⟨_, _, _, length, _⟩ := wf.lengths i member
  unfold imageOf
  split
  · rename_i image
    rw [Option.some.injEq, Prod.mk.injEq]
    exact ⟨fun same => ⟨image.1, image.2.2, same.1, same.2⟩, fun h => h.2.2⟩
  · rename_i other
    exact ⟨fun none => (nomatch none), fun h => absurd ⟨h.1, length h.1, h.2.1⟩ other⟩

theorem tables_images (wf : WellFormed g words code) :
    gather imageOf code id = some scalar ↔ BufferImage code id scalar := by
  rw [gather_results wf.numbered]
  · exact exists_congr fun i => and_congr_right fun member => imageOf_eq_some wf member
  · intro i member id scalar selected
    obtain ⟨op, _, rfl, _⟩ := (imageOf_eq_some wf member).mp selected
    exact (wf.type_result member (by rw [op]; decide) (by rw [op]; decide)).1

theorem BufferImage.unique (wf : WellFormed g words code) (h : BufferImage code id scalar)
    (again : BufferImage code id other) : scalar = other :=
  Option.some.inj (((tables_images wf).mpr h).symm.trans ((tables_images wf).mpr again))

/-- A wrapper is declared as an image or a sampled image. -/
theorem Wrapper.declared (wf : WellFormed g words code) (h : Wrapper code id scalar) :
    ∃ i ∈ code, (opcode i = 25 ∨ opcode i = 27) ∧ i.getD 1 0 = id ∧ g.resultOf i = some id ∧
      g.typeOf i = none := by
  rcases h with ⟨i, member, op, _, rfl, _⟩ | ⟨i, member, op, rfl, _⟩
  · exact ⟨i, member, .inl op, rfl, wf.type_result member (by rw [op]; decide) (by rw [op]; decide)⟩
  · exact ⟨i, member, .inr op, rfl, wf.type_result member (by rw [op]; decide) (by rw [op]; decide)⟩

theorem Wrapper.unique (wf : WellFormed g words code) (h : Wrapper code id scalar)
    (again : Wrapper code id other) : scalar = other := by
  have apart : ∀ scalar, BufferImage code id scalar → ∀ j ∈ code, opcode j = 27 →
      j.getD 1 0 ≠ id := by
    rintro _ ⟨i, member, op, _, same, _⟩ j there op' same'
    have result := (wf.type_result member (by rw [op]; decide) (by rw [op]; decide)).1
    have result' := (wf.type_result there (by rw [op']; decide) (by rw [op']; decide)).1
    rw [same] at result
    rw [same'] at result'
    obtain rfl := wf.numbered.eq_of_result member there result result'
    rw [op] at op'
    exact absurd op' (by decide)
  rcases h with image | ⟨i, member, op, same, inner⟩
  · rcases again with image' | ⟨j, there, op', same', _⟩
    · exact image.unique wf image'
    · exact absurd same' (apart _ image j there op')
  · rcases again with image' | ⟨j, there, op', same', inner'⟩
    · exact absurd same (apart _ image' i member op)
    · have result := (wf.type_result member (by rw [op]; decide) (by rw [op]; decide)).1
      have result' := (wf.type_result there (by rw [op']; decide) (by rw [op']; decide)).1
      rw [same] at result
      rw [same'] at result'
      obtain rfl := wf.numbered.eq_of_result member there result result'
      exact inner.unique wf inner'

theorem sampledOf_eq_some (wf : WellFormed g words code) (member : i ∈ code) :
    sampledOf (gather imageOf code) i = some (id, scalar) ↔
      opcode i = 27 ∧ i.getD 1 0 = id ∧ BufferImage code (i.getD 2 0) scalar := by
  obtain ⟨_, _, _, _, length, _⟩ := wf.lengths i member
  unfold sampledOf
  split
  · rename_i sampled
    rw [Option.map_eq_some_iff]
    constructor
    · rintro ⟨_, found, same⟩
      obtain ⟨rfl, rfl⟩ := Prod.mk.inj same
      exact ⟨sampled.1, rfl, (tables_images wf).mp found⟩
    · rintro ⟨_, rfl, image⟩
      exact ⟨scalar, (tables_images wf).mpr image, rfl⟩
  · rename_i other
    exact ⟨fun none => (nomatch none), fun h => absurd ⟨h.1, length h.1⟩ other⟩

theorem tables_wrappers (wf : WellFormed g words code) :
    (tablesOf code).wrappers id = some scalar ↔ Wrapper code id scalar := by
  have sound : ∀ scalar, (tablesOf code).wrappers id = some scalar → Wrapper code id scalar := by
    intro scalar found
    rcases recordAll_eq_some found with image | ⟨i, member, selected⟩
    · exact .inl ((tables_images wf).mp image)
    · exact .inr ⟨i, member, (sampledOf_eq_some wf member).mp selected⟩
  refine ⟨sound scalar, fun wrapper => ?_⟩
  have found : ((tablesOf code).wrappers id).isSome = true := by
    refine recordAll_isSome ?_
    rcases wrapper with image | ⟨i, member, sampled⟩
    · refine .inr ?_
      rw [(tables_images wf).mpr image]
      rfl
    · exact .inl ⟨i, member, scalar, (sampledOf_eq_some wf member).mpr sampled⟩
  obtain ⟨other, found⟩ := Option.isSome_iff_exists.mp found
  rw [found, (sound other found).unique wf wrapper]

theorem pointerOf_eq_some (wf : WellFormed g words code) (member : i ∈ code) :
    pointerOf (tablesOf code).wrappers i = some (id, scalar) ↔
      opcode i = 32 ∧ i.getD 2 0 = 0 ∧ i.getD 1 0 = id ∧ Wrapper code (i.getD 3 0) scalar := by
  obtain ⟨length, _⟩ := wf.lengths i member
  unfold pointerOf
  split
  · rename_i pointer
    rw [Option.map_eq_some_iff]
    constructor
    · rintro ⟨_, found, same⟩
      obtain ⟨rfl, rfl⟩ := Prod.mk.inj same
      exact ⟨pointer.1, pointer.2.2, rfl, (tables_wrappers wf).mp found⟩
    · rintro ⟨_, _, rfl, wrapper⟩
      exact ⟨scalar, (tables_wrappers wf).mpr wrapper, rfl⟩
  · rename_i other
    refine ⟨fun none => (nomatch none), fun h => absurd ⟨h.1, length ?_, h.2.1⟩ other⟩
    rw [h.1]
    decide

theorem tables_pointers (wf : WellFormed g words code) :
    (tablesOf code).pointers id = some scalar ↔ BufferPointer code id scalar := by
  show gather (pointerOf (tablesOf code).wrappers) code id = some scalar ↔ _
  rw [gather_results wf.numbered]
  · exact exists_congr fun i => and_congr_right fun member => pointerOf_eq_some wf member
  · intro i member id scalar selected
    obtain ⟨op, _, rfl, _⟩ := (pointerOf_eq_some wf member).mp selected
    exact (wf.type_result member (by rw [op]; decide) (by rw [op]; decide)).1

theorem variableOf_eq_some (wf : WellFormed g words code) :
    variableOf (tablesOf code).pointers i = some (id, scalar) ↔
      opcode i = 59 ∧ i.length = 4 ∧ i.getD 2 0 = id ∧ BufferPointer code (i.getD 1 0) scalar := by
  unfold variableOf
  split
  · rename_i declares
    rw [Option.map_eq_some_iff]
    constructor
    · rintro ⟨_, found, same⟩
      obtain ⟨rfl, rfl⟩ := Prod.mk.inj same
      exact ⟨declares.1, declares.2, rfl, (tables_pointers wf).mp found⟩
    · rintro ⟨_, _, rfl, pointer⟩
      exact ⟨scalar, (tables_pointers wf).mpr pointer, rfl⟩
  · rename_i other
    exact ⟨fun none => (nomatch none), fun h => absurd ⟨h.1, h.2.1⟩ other⟩

theorem tables_buffers (wf : WellFormed g words code) :
    (tablesOf code).buffers id = some scalar ↔ BufferVariable code id scalar := by
  show gather (variableOf (tablesOf code).pointers) code id = some scalar ↔ _
  rw [gather_results wf.numbered]
  · exact exists_congr fun i => and_congr_right fun member => variableOf_eq_some wf
  · intro i member id scalar selected
    obtain ⟨op, _, rfl, _⟩ := (variableOf_eq_some wf).mp selected
    exact (wf.value_result member (by rw [op]; decide)).2.1

theorem BufferVariable.unique (wf : WellFormed g words code) (h : BufferVariable code id scalar)
    (again : BufferVariable code id other) : scalar = other :=
  Option.some.inj (((tables_buffers wf).mpr h).symm.trans ((tables_buffers wf).mpr again))

/-! ## Aliases -/

/-- The definition of an alias. -/
theorem Alias.defined (wf : WellFormed g words code) (h : Alias code id buffer) :
    ∃ i ∈ code, (opcode i = 61 ∨ opcode i = 100 ∨ opcode i = 83) ∧ i.getD 2 0 = id ∧
      g.resultOf i = some id := by
  cases h with
  | load i scalar member op _ =>
    exact ⟨i, member, .inl op, rfl, (wf.value_result member (by rw [op]; decide)).2.1⟩
  | copy i buffer member op _ =>
    refine ⟨i, member, .inr op, rfl, (wf.value_result member ?_).2.1⟩
    rcases op with op | op <;> rw [op] <;> decide

/-- A copy is defined by what it copies, and a load by its variable. -/
theorem Alias.of_result (wf : WellFormed g words code) (member : i ∈ code)
    (result : g.resultOf i = some id) (h : Alias code id buffer) :
    (opcode i = 61 ∧ i.getD 2 0 = id ∧ i.getD 3 0 = buffer ∧
      ∃ scalar, BufferVariable code buffer scalar) ∨
    ((opcode i = 100 ∨ opcode i = 83) ∧ i.getD 2 0 = id ∧ Alias code (i.getD 3 0) buffer) := by
  cases h with
  | load j scalar there op variable_ =>
    obtain rfl := wf.numbered.eq_of_result member there result
      (wf.value_result there (by rw [op]; decide)).2.1
    exact .inl ⟨op, rfl, rfl, scalar, variable_⟩
  | copy j buffer there op of =>
    have copies : opcode j ∈ [59, 61, 65, 83, 95, 100] := by
      rcases op with op | op <;> rw [op] <;> decide
    obtain rfl := wf.numbered.eq_of_result member there result (wf.value_result there copies).2.1
    exact .inr ⟨op, rfl, of⟩

theorem Alias.unique (wf : WellFormed g words code) (h : Alias code id buffer)
    (again : Alias code id other) : buffer = other := by
  induction h with
  | load i scalar member op _ =>
    have result := (wf.value_result member (by rw [op]; decide)).2.1
    rcases again.of_result wf member result with ⟨_, _, same, _⟩ | ⟨copy, _⟩
    · exact same
    · rw [op] at copy
      exact absurd copy (by decide)
  | copy i buffer member op _ ih =>
    have value : opcode i ∈ [59, 61, 65, 83, 95, 100] := by
      rcases op with op | op <;> rw [op] <;> decide
    rcases again.of_result wf member (wf.value_result member value).2.1 with ⟨load, _⟩ | ⟨_, _, of⟩
    · rw [load] at op
      exact absurd op (by decide)
    · exact ih of

/-- What `aliases` holds after some instructions. -/
theorem aliases_iff (wf : WellFormed g words code) (whole : code = done ++ rest) (id buffer : UInt32) :
    done.foldl (aliasTurn (tablesOf code).buffers) .empty id = some buffer ↔
      Alias code id buffer ∧ ∃ j ∈ done, g.resultOf j = some id := by
  induction done using List.reverseRecOn generalizing rest id buffer with
  | nil =>
    refine ⟨fun none => (nomatch none), ?_⟩
    rintro ⟨_, j, none, _⟩
    cases none
  | append_singleton done i ih =>
    have split : code = done ++ i :: rest := by
      rw [whole, List.append_assoc, List.singleton_append]
    have member : i ∈ code := split ▸ List.mem_append_right _ List.mem_cons_self
    have ih := ih split
    rw [List.foldl_append]
    show aliasTurn (tablesOf code).buffers (done.foldl _ _) i id = _ ↔ _
    generalize done.foldl (aliasTurn (tablesOf code).buffers) .empty = aliases at ih ⊢
    -- What the turn inserts is the alias that the instruction defines.
    have turn : ∀ id buffer, aliasOf (tablesOf code).buffers aliases i = some (id, buffer) ↔
        Alias code id buffer ∧ g.resultOf i = some id := by
      intro id buffer
      unfold aliasOf
      constructor
      · intro found
        split at found
        · rename_i load
          split at found
          · rename_i variable_
            obtain ⟨rfl, rfl⟩ := Prod.mk.inj (Option.some.inj found)
            obtain ⟨scalar, known⟩ := Option.isSome_iff_exists.mp variable_.2
            exact ⟨.load i scalar member load ((tables_buffers wf).mp known),
              (wf.value_result member (by rw [load]; decide)).2.1⟩
          · cases found
        · split at found
          · rename_i copy
            obtain ⟨_, known, same⟩ := Option.map_eq_some_iff.mp found
            obtain ⟨rfl, rfl⟩ := Prod.mk.inj same
            refine ⟨.copy i _ member copy.1 ((ih _ _).mp known).1, (wf.value_result member ?_).2.1⟩
            rcases copy.1 with op | op <;> rw [op] <;> decide
          · cases found
      · rintro ⟨handle, result⟩
        rcases handle.of_result wf member result with ⟨op, rfl, rfl, scalar, known⟩ | ⟨op, rfl, of⟩
        · rw [if_pos op, if_pos]
          refine ⟨(wf.value_result member (by rw [op]; decide)).1, ?_⟩
          rw [(tables_buffers wf).mpr known]
          rfl
        · have load : opcode i ≠ 61 := by rcases op with op | op <;> rw [op] <;> decide
          obtain ⟨length, _⟩ := wf.lengths i member
          have length := length (by rcases op with op | op <;> rw [op] <;> decide)
          obtain ⟨j, there, _, _, result⟩ := of.defined wf
          have before := wf.ordered done i rest split op j there result
          rw [if_neg load, if_pos ⟨op, length⟩, (ih _ _).mpr ⟨of, j, before, result⟩]
          rfl
    have same : aliasTurn (tablesOf code).buffers aliases i =
        recordOne (aliasOf (tablesOf code).buffers aliases) aliases i := by
      unfold aliasTurn recordOne
      cases aliasOf (tablesOf code).buffers aliases i <;> rfl
    rw [same]
    have sound : ∀ buffer, recordOne (aliasOf (tablesOf code).buffers aliases) aliases i id =
        some buffer → Alias code id buffer ∧ ∃ j ∈ done ++ [i], g.resultOf j = some id := by
      intro buffer found
      rcases recordOne_eq_some found with inserted | old
      · obtain ⟨handle, result⟩ := (turn _ _).mp inserted
        exact ⟨handle, i, List.mem_append_right _ List.mem_cons_self, result⟩
      · obtain ⟨handle, j, before, result⟩ := (ih id buffer).mp old
        exact ⟨handle, j, List.mem_append_left _ before, result⟩
    refine ⟨sound buffer, ?_⟩
    rintro ⟨handle, j, there, result⟩
    have found : (recordOne (aliasOf (tablesOf code).buffers aliases) aliases i id).isSome := by
      refine recordOne_isSome ?_
      rcases List.mem_append.mp there with before | last
      · refine .inr ?_
        rw [(ih id buffer).mpr ⟨handle, j, before, result⟩]
        rfl
      · obtain rfl := List.mem_singleton.mp last
        exact .inl ⟨buffer, (turn id buffer).mpr ⟨handle, result⟩⟩
    obtain ⟨other, found⟩ := Option.isSome_iff_exists.mp found
    rw [(sound other found).1.unique wf handle] at found
    exact found

theorem tables_aliases (wf : WellFormed g words code) :
    (tablesOf code).aliases id = some buffer ↔ Alias code id buffer := by
  have all := aliases_iff wf (List.append_nil code).symm id buffer
  refine all.trans ⟨And.left, fun handle => ⟨handle, ?_⟩⟩
  obtain ⟨i, member, _, _, result⟩ := handle.defined wf
  exact ⟨i, member, result⟩

theorem Alias.typed (h : Alias code id buffer) :
    ∃ scalar, BufferVariable code buffer scalar := by
  induction h with
  | load i scalar _ _ known => exact ⟨scalar, known⟩
  | copy _ _ _ _ _ ih => exact ih

/-! ## Removed ids -/

theorem removed_iff (wf : WellFormed g words code) :
    (tablesOf code).removed id = true ↔ Removed code id := by
  unfold Tables.removed Removed
  rw [Bool.or_eq_true, Bool.or_eq_true, Option.isSome_iff_exists, Option.isSome_iff_exists,
    Option.isSome_iff_exists, or_assoc]
  exact or_congr (exists_congr fun _ => tables_wrappers wf)
    (or_congr (exists_congr fun _ => tables_pointers wf)
      (exists_congr fun _ => tables_aliases wf))

/-- The definition of what goes: a type of images or of pointers, or a value with a type of
images. -/
theorem Removed.defined (wf : WellFormed g words code) (h : Removed code id) :
    ∃ i ∈ code, g.resultOf i = some id ∧
      ((opcode i ∈ [25, 27, 32] ∧ g.typeOf i = none) ∨
        ∃ type, g.typeOf i = some type ∧ ∃ t ∈ code, opcode t ∈ [25, 27] ∧ t.getD 1 0 = type) := by
  rcases h with ⟨scalar, wrapper⟩ | ⟨scalar, i, member, op, _, rfl, _⟩ | ⟨buffer, handle⟩
  · obtain ⟨i, member, op, _, result, type⟩ := wrapper.declared wf
    refine ⟨i, member, result, .inl ⟨?_, type⟩⟩
    rcases op with op | op <;> rw [op] <;> decide
  · obtain ⟨result, type⟩ := wf.type_result member (by rw [op]; decide) (by rw [op]; decide)
    refine ⟨i, member, result, .inl ⟨?_, type⟩⟩
    rw [op]
    decide
  · induction handle with
    | load i scalar member op known =>
      obtain ⟨v, there, opv, _, same, p, declared, opp, _, samep, wrapper⟩ := known
      have typed := wf.loads i member op v there opv same p declared opp samep
      obtain ⟨t, type, opt, samet, _⟩ := wrapper.declared wf
      obtain ⟨_, result, typeOf⟩ := wf.value_result member (by rw [op]; decide)
      refine ⟨i, member, result, .inr ⟨_, typeOf, t, type, ?_, samet.trans typed.symm⟩⟩
      rcases opt with opt | opt <;> rw [opt] <;> decide
    | copy i buffer member op of ih =>
      have value : opcode i ∈ [59, 61, 65, 83, 95, 100] := by
        rcases op with op | op <;> rw [op] <;> decide
      obtain ⟨_, result, typeOf⟩ := wf.value_result member value
      refine ⟨i, member, result, .inr ⟨_, typeOf, ?_⟩⟩
      rcases op with image | copy
      · obtain ⟨t, there, opt, same⟩ := wf.images i member image
        refine ⟨t, there, ?_, same⟩
        rw [opt]
        decide
      · obtain ⟨j, there, resultj, types⟩ := ih
        have copied := wf.copies i member copy j there resultj
        rcases types with ⟨_, none⟩ | ⟨type, typed, t, rest⟩
        · rw [none] at copied
          cases copied
        · obtain rfl := Option.some.inj (typed.symm.trans copied)
          exact ⟨t, rest⟩

/-- Types of numbers stay. -/
theorem WellFormed.number_kept (wf : WellFormed g words code) (h : NumberType code type) :
    ¬ Removed code type := by
  intro removed
  obtain ⟨t, member, op, rfl⟩ := h
  have low : 19 ≤ opcode t ∧ opcode t ≤ 38 := by
    simp only [List.mem_cons, List.not_mem_nil, or_false] at op
    rcases op with op | op | op <;> rw [op] <;> decide
  obtain ⟨result, typeOf⟩ := wf.type_result member low.1 low.2
  obtain ⟨i, there, resulti, types⟩ := removed.defined wf
  obtain rfl := wf.numbered.eq_of_result member there result resulti
  rcases types with ⟨op', _⟩ | ⟨_, typed, _⟩
  · simp only [List.mem_cons, List.not_mem_nil, or_false] at op op'
    rcases op with op | op | op <;> rw [op] at op' <;> revert op' <;> decide
  · rw [typeOf] at typed
    cases typed

/-- Values that are numbers stay. -/
theorem WellFormed.coordinate_kept (wf : WellFormed g words code) (member : j ∈ code)
    (result : g.resultOf j = some id) (typed : g.typeOf j = some type)
    (number : NumberType code type) : ¬ Removed code id := by
  intro removed
  obtain ⟨i, there, resulti, types⟩ := removed.defined wf
  obtain rfl := wf.numbered.eq_of_result member there result resulti
  rcases types with ⟨_, none⟩ | ⟨_, typed', t, declared, op, rfl⟩
  · rw [none] at typed
    cases typed
  · obtain rfl := Option.some.inj (typed.symm.trans typed')
    obtain ⟨n, there, opn, same⟩ := number
    have range : ∀ i : List UInt32, opcode i ∈ [21, 22, 23] ∨ opcode i ∈ [25, 27] →
        19 ≤ opcode i ∧ opcode i ≤ 38 := by
      intro i op
      simp only [List.mem_cons, List.not_mem_nil, or_false] at op
      rcases op with (op | op | op) | (op | op) <;> rw [op] <;> decide
    have result := (wf.type_result declared (range t (.inr op)).1 (range t (.inr op)).2).1
    have resultn := (wf.type_result there (range n (.inl opn)).1 (range n (.inl opn)).2).1
    rw [same] at resultn
    obtain rfl := wf.numbered.eq_of_result there declared resultn result
    simp only [List.mem_cons, List.not_mem_nil, or_false] at op opn
    rcases op with op | op <;> rw [op] at opn <;> revert opn <;> decide

/-- An instruction that defines neither an image, a pointer nor an alias defines what stays. -/
theorem WellFormed.result_kept (wf : WellFormed g words code) (member : i ∈ code)
    (result : g.resultOf i = some id) (op : opcode i ∉ [25, 27, 32, 61, 83, 100]) :
    ¬ Removed code id := by
  have same : ∀ j ∈ code, opcode j ∈ [25, 27, 32, 61, 83, 100] → g.resultOf j ≠ some id := by
    intro j there opj resultj
    obtain rfl := wf.numbered.eq_of_result member there result resultj
    exact op opj
  rintro (⟨scalar, wrapper⟩ | ⟨scalar, i, member, op, _, rfl, _⟩ | ⟨buffer, handle⟩)
  · obtain ⟨j, there, opj, _, resultj, _⟩ := wrapper.declared wf
    refine same j there ?_ resultj
    rcases opj with op | op <;> rw [op] <;> decide
  · refine same i member ?_ (wf.type_result member (by rw [op]; decide) (by rw [op]; decide)).1
    rw [op]
    decide
  · obtain ⟨j, there, opj, _, resultj⟩ := handle.defined wf
    refine same j there ?_ resultj
    rcases opj with op | op | op <;> rw [op] <;> decide

end Tables

end Sgfx.Vulkan.TexelBuffers
