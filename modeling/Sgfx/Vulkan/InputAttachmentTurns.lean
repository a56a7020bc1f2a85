import Sgfx.Vulkan.InputAttachmentHandles

/-!
# Turns of the lowering of input attachments

What the last loop writes for one instruction, by cases, with the ids that it takes.

## Main Definitions

* `Turn` — an instruction and what replaces it
* `Run` — a run of `lower` on a module with subpass data

## Main Results

* `Run.turns` — every piece is one of a turn
* `Run.next` — the ids that are taken
-/

namespace Sgfx.Vulkan.InputAttachments

open Spirv

/-- What the loop writes for an instruction. -/
inductive Turn (code : List (List UInt32)) (inputs : List (Option Bool)) (plan : Plan)
    (next : UInt32) (i : List UInt32) : List (List UInt32) → UInt32 → Prop
  | capability (op : opcode i = 17) (capability : i.getD 1 0 = 40) :
      Turn code inputs plan next i [] next
  | index (index : isIndex i = true) : Turn code inputs plan next i [] next
  | entryPoint (entry : FragmentEntry i) (other : fragCoord code = none) :
      Turn code inputs plan next i [emit 15 (i.drop 1 ++ [plan.coordinate.coordVar])] next
  | type (op : opcode i = 25) (subpass : SubpassType code (i.getD 1 0)) :
      Turn code inputs plan next i (emit 25 (sampledType i) ::
        (plan.handles.depthTypes (i.getD 1 0)).toList.map fun ty => emit 25 (depthType ty i)) next
  | pointer (copy ty : UInt32) (op : opcode i = 32)
      (found : plan.handles.depthPointers (i.getD 1 0) = some copy)
      (type : plan.handles.depthTypes (i.getD 3 0) = some ty) :
      Turn code inputs plan next i [i, emit 32 [copy, i.getD 2 0, ty]] next
  | declaration (pointer : UInt32) (op : opcode i = 59)
      (depth : Attached code inputs (i.getD 2 0) true)
      (found : plan.handles.depthPointers (i.getD 1 0) = some pointer) :
      Turn code inputs plan next i [emit 59 ((i.drop 1).set 0 pointer)] next
  | load (ty type : UInt32) (depth : Bool) (op : opcode i = 61)
      (subpass : SubpassType code (i.getD 1 0))
      (found : plan.handles.imageVariables (i.getD 3 0) = some (ty, depth))
      (retyped : if depth then plan.handles.depthTypes ty = some type else type = i.getD 1 0) :
      Turn code inputs plan next i [emit 61 ((i.drop 1).set 0 type)] next
  | read (l : List UInt32) (depth : Bool) (op : opcode i = 98) (length : i.length = 5)
      (loaded : LoadOf code (i.getD 3 0) l) (subpass : SubpassType code (l.getD 1 0))
      (attached : Attached code inputs (l.getD 3 0) depth) (zero : Zero code (i.getD 4 0))
      (type : i.getD 1 0 = plan.coordinate.vec4) :
      Turn code inputs plan next i (fetchTexel plan.coordinate depth next i).1
        (fetchTexel plan.coordinate depth next i).2
  | kept (capability : ¬ (opcode i = 17 ∧ i.getD 1 0 = 40)) (index : ¬ isIndex i = true)
      (entryPoint : ¬ (FragmentEntry i ∧ fragCoord code = none))
      (type : ¬ (opcode i = 25 ∧ SubpassType code (i.getD 1 0)))
      (pointer : ¬ (opcode i = 32 ∧ (plan.handles.depthPointers (i.getD 1 0)).isSome = true))
      (declaration : ¬ (opcode i = 59 ∧ Attached code inputs (i.getD 2 0) true))
      (load : ¬ (opcode i = 61 ∧ SubpassType code (i.getD 1 0)))
      (read : opcode i = 98 → ∀ l, LoadOf code (i.getD 3 0) l → ¬ SubpassType code (l.getD 1 0)) :
      Turn code inputs plan next i [i] next

/-- What the last loop is given. -/
structure PlanOf (code : List (List UInt32)) (inputs : List (Option Bool)) (base : UInt32)
    (keys : List (Bool × UInt32)) (plan : Plan) (middle : UInt32) : Prop where
  own : plan.own = fragCoord code
  subpassTypes : plan.subpassTypes = subpassTypes code
  handled : Handled code inputs base keys plan.handles
  float : floatType code = some plan.coordinate.float
  vec4 : vec4Type code plan.coordinate.float = some plan.coordinate.vec4
  coordinate : coordinate (fragCoord code) plan.coordinate.float plan.coordinate.vec4
    plan.handles.next = (plan.coordinate, middle)
  variableOf : ∀ id, fragCoord code = some id → ∃ pointer, variableTypes code id = some pointer ∧
    pointers code pointer = some (1, plan.coordinate.vec4)

/-- A run on a module with subpass data. -/
structure Run (g : Dialect) (inputs : List (Option Bool)) (words : List UInt32)
    (code : List (List UInt32)) (keys : List (Bool × UInt32)) (plan : Plan) (middle : UInt32)
    (pieces : List Patch) (s : State) : Prop where
  wf : WellFormed g words code
  subpass : HasSubpass code
  long : ∀ i ∈ code, minimum (opcode i) ≤ i.length
  planned : PlanOf code inputs (words.getD 3 0) keys plan middle
  run : transduce (lowerTurn plan) ⟨middle, plan.own.isSome, false, .empty, .empty⟩ code =
    .ok (pieces, s)

/-- A module without subpass data is returned as it is. -/
theorem lower_eq_ok {g : Dialect} {words out : List UInt32} {code : List (List UInt32)}
    {inputs : List (Option Bool)} {order : List (UInt32 × UInt32) → List (UInt32 × UInt32)}
    (wf : WellFormed g words code) (perm : ∀ entries, (order entries).Perm entries)
    (h : lower order words inputs = .ok out) :
    (¬ HasSubpass code ∧ out = words) ∨
    ∃ keys plan middle pieces s, Run g inputs words code keys plan middle pieces s ∧
      out = (words.take 5).set 3 s.next ++ (pieces.flatMap Patch.all).flatten := by
  obtain ⟨code', parsed, h⟩ := except_bind_eq_ok.mp h
  obtain rfl := Except.ok.inj (wf.framed.symm.trans parsed)
  obtain ⟨_, long, h⟩ := except_bind_eq_ok.mp h
  rw [failIf_eq_ok, List.any_eq_true] at long
  have long : ∀ i ∈ code, minimum (opcode i) ≤ i.length := fun i member =>
    Nat.le_of_not_lt fun short => long ⟨i, member, decide_eq_true short⟩
  split at h
  · rename_i subpass
    obtain ⟨⟨plan, middle⟩, planned, h⟩ := except_bind_eq_ok.mp h
    obtain ⟨⟨pieces, s⟩, run, h⟩ := except_bind_eq_ok.mp h
    cases h
    obtain ⟨handles, handled, planned⟩ := except_bind_eq_ok.mp planned
    obtain ⟨float, findFloat, planned⟩ := except_bind_eq_ok.mp planned
    obtain ⟨vec4, findVec4, planned⟩ := except_bind_eq_ok.mp planned
    obtain ⟨_, own, planned⟩ := except_bind_eq_ok.mp planned
    cases planned
    rw [okOr_eq_ok] at findFloat findVec4
    obtain ⟨keys, handled⟩ := handles_spec perm wf.once handled
    refine .inr ⟨keys, _, _, pieces, s, ⟨wf, subpass, long, ⟨rfl, rfl, handled, findFloat,
      findVec4, rfl, fun id found => ?_⟩, run⟩, rfl⟩
    unfold checkFragCoord at own
    rw [found] at own
    obtain ⟨pointer, typed, points⟩ := except_bind_eq_ok.mp own
    rw [okOr_eq_ok] at typed
    rw [failIf_eq_ok, not_not] at points
    exact ⟨pointer, typed, points⟩
  · rename_i subpass
    cases h
    exact .inl ⟨subpass, rfl⟩

/-! ## The state of the loop -/

/-- The constants that are zero, the loads that are done, and the next id. -/
structure Seen (code : List (List UInt32)) (inputs : List (Option Bool)) (middle : UInt32)
    (done : List (List UInt32)) (s : State) : Prop where
  zeros : ∀ id, (s.zeros id).isSome = true → Zero code id
  loads : ∀ id depth, s.loads id = some depth → ∃ l ∈ done, opcode l = 61 ∧ l.getD 2 0 = id ∧
    SubpassType code (l.getD 1 0) ∧ Attached code inputs (l.getD 3 0) depth
  loaded : ∀ l ∈ done, opcode l = 61 → SubpassType code (l.getD 1 0) →
    (s.loads (l.getD 2 0)).isSome = true
  next : s.next = middle + UInt32.ofNat (done.map (readIds code inputs)).sum

section Turns

variable {g : Dialect} {inputs : List (Option Bool)} {words i l : List UInt32}
  {code done rest : List (List UInt32)} {keys : List (Bool × UInt32)} {plan : Plan}
  {base middle v : UInt32} {s s' : State} {body : List (List UInt32)} {depth other : Bool}

theorem Attached.unique (wf : WellFormed g words code) (h : Attached code inputs v depth)
    (again : Attached code inputs v other) : depth = other := by
  obtain ⟨d, member, index, rfl, known⟩ := h
  obtain ⟨e, there, index', same, known'⟩ := again
  rw [wf.once e there d member index' index same, known] at known'
  exact Option.some.inj (Option.some.inj known')

theorem readIds_of_ne (op : opcode i ≠ 98) : readIds code inputs i = 0 := by
  unfold readIds
  rw [decide_eq_false op]

/-- The condition for loads. -/
theorem find_load {image : UInt32} : (opcode l == 61 && l.getD 2 0 == image &&
    (subpassTypes code (l.getD 1 0)).isSome) = true ↔
      opcode l = 61 ∧ l.getD 2 0 = image ∧ SubpassType code (l.getD 1 0) := by
  rw [Bool.and_eq_true, Bool.and_eq_true, beq_iff_eq, beq_iff_eq, subpassTypes_isSome, and_assoc]

/-- The ids for a read of what was loaded. -/
theorem readIds_loaded (wf : WellFormed g words code) (long : ∀ i ∈ code, minimum (opcode i) ≤ i.length)
    (op : opcode i = 98) (load : LoadOf code (i.getD 3 0) l)
    (subpass : SubpassType code (l.getD 1 0)) (attached : Attached code inputs (l.getD 3 0) depth) :
    readIds code inputs i = if depth then 5 else 3 := by
  have results : ∀ j ∈ code, opcode j = 61 → g.resultOf j = some (j.getD 2 0) := by
    intro j member op
    have length := long j member
    rw [op] at length
    exact (Dialect.result_value (by rw [op]; decide) (Nat.le_trans (by decide) length)).1
  unfold readIds
  rw [decide_eq_true op]
  cases found : code.find? fun l => opcode l == 61 && l.getD 2 0 == i.getD 3 0 &&
      (subpassTypes code (l.getD 1 0)).isSome with
  | none =>
    have fails := List.find?_eq_none.mp found l load.1
    exact absurd (find_load.mpr ⟨load.2.1, load.2.2, subpass⟩) fails
  | some j =>
    have first := List.find?_some found
    obtain ⟨opj, same, _⟩ := find_load.mp first
    have member := List.mem_of_find?_eq_some found
    have result : g.resultOf j = some (l.getD 2 0) :=
      (results j member opj).trans (congrArg some (same.trans load.2.2.symm))
    obtain rfl := wf.numbered.eq_of_result member load.1 result (results l load.1 load.2.1)
    dsimp only
    cases depth with
    | true => rw [if_pos (mem_depthVariables.mpr attached), if_pos rfl]
    | false =>
      rw [if_neg fun deep => Bool.false_ne_true (attached.unique wf (mem_depthVariables.mp deep)),
        if_neg Bool.false_ne_true]

/-- A read of what is not loaded takes no ids. -/
theorem readIds_unloaded (none : ∀ l, LoadOf code (i.getD 3 0) l → ¬ SubpassType code (l.getD 1 0)) :
    readIds code inputs i = 0 := by
  unfold readIds
  split
  · rename_i found
    have first := List.find?_some found
    obtain ⟨op, same, subpass⟩ := find_load.mp first
    exact absurd subpass (none _ ⟨List.mem_of_find?_eq_some found, op, same⟩)
  · rfl

/-- The next id after a turn. -/
theorem Seen.next_append (seen : Seen code inputs middle done s) (i : List UInt32) :
    s.next + UInt32.ofNat (readIds code inputs i) =
      middle + UInt32.ofNat ((done ++ [i]).map (readIds code inputs)).sum := by
  rw [seen.next, List.map_append, List.sum_append, List.map_singleton, List.sum_singleton,
    UInt32.ofNat_add, UInt32.add_assoc]

/-- A turn that loads nothing. -/
theorem Seen.step (seen : Seen code inputs middle done s)
    (zeros : ∀ id, (s'.zeros id).isSome = true → (s.zeros id).isSome = true ∨ Zero code id)
    (loads : s'.loads = s.loads) (other : ¬ (opcode i = 61 ∧ SubpassType code (i.getD 1 0)))
    (next : s'.next = s.next + UInt32.ofNat (readIds code inputs i)) :
    Seen code inputs middle (done ++ [i]) s' := by
  refine ⟨fun id zero => (zeros id zero).elim (seen.zeros id) fun h => h, fun id depth found => ?_,
    fun l member op subpass => ?_, ?_⟩
  · rw [loads] at found
    obtain ⟨l, member, rest⟩ := seen.loads id depth found
    exact ⟨l, List.mem_append_left _ member, rest⟩
  · rw [loads]
    rcases List.mem_append.mp member with old | last
    · exact seen.loaded l old op subpass
    · obtain rfl := List.mem_singleton.mp last
      exact absurd ⟨op, subpass⟩ other
  · rw [next, seen.next_append]

/-- A turn that takes no id. -/
theorem Seen.same (seen : Seen code inputs middle done s)
    (other : ¬ (opcode i = 61 ∧ SubpassType code (i.getD 1 0)))
    (none : readIds code inputs i = 0) : Seen code inputs middle (done ++ [i]) s :=
  seen.step (fun _ => .inl) rfl other (by rw [none]; exact (UInt32.add_zero _).symm)

/-- A constant that is recorded is zero. -/
theorem isZero_spec (seen : Seen code inputs middle done s) (member : i ∈ code)
    (h : isZero s.zeros i = true) : Zero code (i.getD 2 0) ∧ opcode i ∈ [43, 44, 46] := by
  unfold isZero at h
  rw [Bool.or_eq_true, Bool.or_eq_true, Bool.and_eq_true, Bool.and_eq_true, Bool.and_eq_true,
    Bool.and_eq_true, Bool.and_eq_true, beq_iff_eq, beq_iff_eq, beq_iff_eq, List.all_eq_true,
    List.all_eq_true] at h
  rcases h with (⟨⟨op, _⟩, all⟩ | ⟨⟨op, _⟩, all⟩) | ⟨op, _⟩
  · refine ⟨.number i member op fun word listed => beq_iff_eq.mp (all word listed), ?_⟩
    rw [op]
    decide
  · refine ⟨.composite i member op fun part listed => seen.zeros part (all part listed), ?_⟩
    rw [op]
    decide
  · refine ⟨.null i member op, ?_⟩
    rw [op]
    decide

theorem fetchTexel_next (c : Coordinate) (depth : Bool) (next : UInt32) (i : List UInt32) :
    (fetchTexel c depth next i).2 = next + UInt32.ofNat (if depth then 5 else 3) := by
  cases depth <;> rfl

/-- Each branch of `rewriteInstruction` is a turn. -/
theorem rewriteInstruction_spec (wf : WellFormed g words code)
    (long : ∀ i ∈ code, minimum (opcode i) ≤ i.length)
    (planned : PlanOf code inputs base keys plan middle) (whole : code = done ++ i :: rest)
    (seen : Seen code inputs middle done s) (h : rewriteInstruction plan s i = .ok (body, s')) :
    Turn code inputs plan s.next i body s'.next ∧ Seen code inputs middle (done ++ [i]) s' := by
  have member : i ∈ code := whole ▸ List.mem_append_right _ List.mem_cons_self
  have subpassOf : ∀ type, (plan.subpassTypes type).isSome = true ↔ SubpassType code type := by
    intro type
    rw [planned.subpassTypes, subpassTypes_isSome]
  -- All opcodes but two leave the tables and the next id.
  have skip : opcode i ≠ 61 → opcode i ≠ 98 → Seen code inputs middle (done ++ [i]) s :=
    fun load read => seen.same (fun h => load h.1) (readIds_of_ne read)
  unfold rewriteInstruction at h
  split at h
  · rename_i capability
    cases h
    exact ⟨.capability capability.1 capability.2.2, skip (by rw [capability.1]; decide)
      (by rw [capability.1]; decide)⟩
  rename_i capability
  have capability : ¬ (opcode i = 17 ∧ i.getD 1 0 = 40) := fun h =>
    capability ⟨h.1, wf.capabilities i member h.1, h.2⟩
  split at h
  · rename_i index
    cases h
    have op := (isIndex_iff.mp index).1
    exact ⟨.index index, skip (by rw [op]; decide) (by rw [op]; decide)⟩
  rename_i index
  split at h
  · rename_i entry
    cases h
    exact ⟨.entryPoint ⟨entry.1, entry.2.2.1⟩ (planned.own ▸ entry.2.2.2),
      skip (by rw [entry.1]; decide) (by rw [entry.1]; decide)⟩
  rename_i entryPoint
  have entryPoint : ¬ (FragmentEntry i ∧ fragCoord code = none) := fun h =>
    entryPoint ⟨h.1.op, (wf.named i member h.1.op).1, h.1.model, planned.own.trans h.2⟩
  split at h
  · rename_i type
    cases h
    exact ⟨.type type.1 ((subpassOf _).mp type.2), skip (by rw [type.1]; decide)
      (by rw [type.1]; decide)⟩
  rename_i type
  have type : ¬ (opcode i = 25 ∧ SubpassType code (i.getD 1 0)) := fun h =>
    type ⟨h.1, (subpassOf _).mpr h.2⟩
  split at h
  · rename_i pointer
    obtain ⟨copy, found, h⟩ := except_bind_eq_ok.mp h
    obtain ⟨ty, typed, h⟩ := except_bind_eq_ok.mp h
    cases h
    rw [okOr_eq_ok] at found typed
    exact ⟨.pointer copy ty pointer.1 found typed, skip (by rw [pointer.1]; decide)
      (by rw [pointer.1]; decide)⟩
  rename_i pointer
  split at h
  · rename_i declaration
    obtain ⟨pointer, found, h⟩ := except_bind_eq_ok.mp h
    cases h
    rw [okOr_eq_ok] at found
    obtain ⟨⟨ty, depth⟩, image, deep⟩ := (Option.any_eq_true _ _).mp declaration.2
    obtain rfl : depth = true := deep
    exact ⟨.declaration pointer declaration.1 (planned.handled.images _ _ _ image) found,
      skip (by rw [declaration.1]; decide) (by rw [declaration.1]; decide)⟩
  rename_i declaration
  have declaration : ¬ (opcode i = 59 ∧ Attached code inputs (i.getD 2 0) true) := by
    rintro ⟨op, attached⟩
    obtain ⟨pointer, ty, _, image, _⟩ := planned.handled.attached _ _ attached
    refine declaration ⟨op, ?_⟩
    rw [image]
    rfl
  split at h
  · rename_i load
    obtain ⟨⟨ty, depth⟩, image, h⟩ := except_bind_eq_ok.mp h
    rw [okOr_eq_ok] at image
    have subpass := (subpassOf _).mp load.2.2
    have attached := planned.handled.images _ _ _ image
    have later : Seen code inputs middle (done ++ [i])
        { s with loads := s.loads.insert (i.getD 2 0) depth } := by
      refine ⟨seen.zeros, fun id depth' found => ?_, fun l member op subpass => ?_, ?_⟩
      · rcases IdMap.insert_eq_some found with ⟨rfl, rfl⟩ | old
        · exact ⟨i, List.mem_append_right _ List.mem_cons_self, load.1, rfl, subpass, attached⟩
        · obtain ⟨l, member, rest⟩ := seen.loads id depth' old
          exact ⟨l, List.mem_append_left _ member, rest⟩
      · refine IdMap.insert_isSome ?_
        rcases List.mem_append.mp member with old | last
        · exact .inr (seen.loaded l old op subpass)
        · exact .inl (congrArg (fun l : List UInt32 => l.getD 2 0) (List.mem_singleton.mp last))
      · rw [← seen.next_append, readIds_of_ne (by rw [load.1]; decide)]
        exact (UInt32.add_zero _).symm
    dsimp only at h
    split at h
    · rename_i deep
      obtain ⟨type, typed, h⟩ := except_bind_eq_ok.mp h
      cases h
      rw [okOr_eq_ok] at typed
      exact ⟨.load ty type depth load.1 subpass image (by rw [if_pos deep]; exact typed), later⟩
    · rename_i flat
      cases h
      have same : i.drop 1 = (i.drop 1).set 0 (i.getD 1 0) := by
        match i, load.2.1 with
        | first :: type :: rest, _ => rfl
      rw [same]
      exact ⟨.load ty _ depth load.1 subpass image (by rw [if_neg flat]), later⟩
  rename_i load
  have load : ¬ (opcode i = 61 ∧ SubpassType code (i.getD 1 0)) := by
    rintro ⟨op, subpass⟩
    have length := long i member
    rw [op] at length
    exact load ⟨op, length, (subpassOf _).mpr subpass⟩
  split at h
  · rename_i depth loaded read
    have op := (of_decide_eq_true read).1
    obtain ⟨l, there, opl, same, subpass, attached⟩ := seen.loads _ _ loaded
    have loadOf : LoadOf code (i.getD 3 0) l :=
      ⟨whole ▸ List.mem_append_left _ there, opl, same⟩
    obtain ⟨_, checked, h⟩ := except_bind_eq_ok.mp h
    rw [failIf_eq_ok, not_or, not_or, not_not, not_not] at checked
    obtain ⟨length, zero, type⟩ := checked
    cases h
    have zero : Zero code (i.getD 4 0) := seen.zeros _ (Option.isSome_iff_ne_none.mpr zero)
    refine ⟨.read l depth op length loadOf subpass attached zero type, ?_⟩
    refine seen.step (fun _ => .inl) rfl load ?_
    rw [readIds_loaded wf long op loadOf subpass attached]
    exact fetchTexel_next _ _ _ _
  · rename_i unloaded
    have read : opcode i = 98 → ∀ l, LoadOf code (i.getD 3 0) l →
        ¬ SubpassType code (l.getD 1 0) := by
      intro op l loadOf subpass
      have length := long i member
      rw [op] at length
      have lengthl := long l loadOf.1
      rw [loadOf.2.1] at lengthl
      have result : g.resultOf l = some (i.getD 3 0) :=
        (Dialect.result_value (by rw [loadOf.2.1]; decide)
          (Nat.le_trans (by decide) lengthl)).1.trans (congrArg some loadOf.2.2)
      have before := wf.ordered done i rest whole op l loadOf.1 result
      obtain ⟨depth, found⟩ :=
        Option.isSome_iff_exists.mp (seen.loaded l before loadOf.2.1 subpass)
      rw [loadOf.2.2] at found
      exact unloaded depth found (decide_eq_true ⟨op, length⟩)
    have none : readIds code inputs i = 0 := by
      by_cases op : opcode i = 98
      · exact readIds_unloaded (read op)
      · exact readIds_of_ne op
    have kept : Turn code inputs plan s.next i [i] s.next :=
      .kept capability index entryPoint type pointer declaration load read
    split at h
    · rename_i zero
      cases h
      refine ⟨kept, seen.step (fun id found => ?_) rfl load ?_⟩
      · by_cases same : id = i.getD 2 0
        · exact .inr (same ▸ (isZero_spec seen member zero).1)
        · refine .inl ?_
          have found : (s.zeros.insert (i.getD 2 0) () id).isSome = true := found
          rwa [IdMap.insert_of_ne same] at found
      · rw [none]
        exact (UInt32.add_zero _).symm
    · cases h
      exact ⟨kept, seen.same load none⟩

end Turns

/-! ## Runs -/

section Runs

variable {g : Dialect} {inputs : List (Option Bool)} {words i : List UInt32}
  {code : List (List UInt32)} {keys : List (Bool × UInt32)} {plan : Plan} {middle : UInt32}
  {pieces : List Patch} {s : State}

theorem lowerTurn_eq_ok {s s' : State} {piece : Patch} (h : lowerTurn plan s i = .ok (piece, s')) :
    piece.inserted = (sections plan s i).1 ∧ s'.annotated = (sections plan s i).2.annotated ∧
      s'.declared = (sections plan s i).2.declared ∧
      rewriteInstruction plan (sections plan s i).2 i = .ok (piece.body, s') := by
  have kept : ∀ s s' body, rewriteInstruction plan s i = .ok (body, s') →
      s'.annotated = s.annotated ∧ s'.declared = s.declared := by
    intro s s' body h
    unfold rewriteInstruction at h
    split at h
    · cases h
      exact ⟨rfl, rfl⟩
    split at h
    · cases h
      exact ⟨rfl, rfl⟩
    split at h
    · cases h
      exact ⟨rfl, rfl⟩
    split at h
    · cases h
      exact ⟨rfl, rfl⟩
    split at h
    · obtain ⟨_, _, h⟩ := except_bind_eq_ok.mp h
      obtain ⟨_, _, h⟩ := except_bind_eq_ok.mp h
      cases h
      exact ⟨rfl, rfl⟩
    split at h
    · obtain ⟨_, _, h⟩ := except_bind_eq_ok.mp h
      cases h
      exact ⟨rfl, rfl⟩
    split at h
    · obtain ⟨_, _, h⟩ := except_bind_eq_ok.mp h
      dsimp only at h
      split at h
      · obtain ⟨_, _, h⟩ := except_bind_eq_ok.mp h
        cases h
        exact ⟨rfl, rfl⟩
      · cases h
        exact ⟨rfl, rfl⟩
    split at h
    · obtain ⟨_, _, h⟩ := except_bind_eq_ok.mp h
      cases h
      exact ⟨rfl, rfl⟩
    · split at h
      · cases h
        exact ⟨rfl, rfl⟩
      · cases h
        exact ⟨rfl, rfl⟩
  obtain ⟨⟨body, t⟩, rewritten, h⟩ := except_bind_eq_ok.mp h
  cases h
  obtain ⟨annotated, declared⟩ := kept _ _ _ rewritten
  exact ⟨rfl, annotated, declared, rewritten⟩

/-- All reads together take the ids from the middle on; each piece is a turn with its share. -/
theorem Run.turns (run : Run g inputs words code keys plan middle pieces s) :
    List.Forall₂ (fun i piece => ∃ k,
      k + readIds code inputs i ≤ (code.map (readIds code inputs)).sum ∧
      Turn code inputs plan (middle + UInt32.ofNat k) i piece.body
        (middle + UInt32.ofNat (k + readIds code inputs i))) code pieces ∧
      s.next = middle + UInt32.ofNat (code.map (readIds code inputs)).sum := by
  have whole := transduce_forall₂ run.run (fun done s => Seen code inputs middle done s)
    (fun i piece => ∃ k, k + readIds code inputs i ≤ (code.map (readIds code inputs)).sum ∧
      Turn code inputs plan (middle + UInt32.ofNat k) i piece.body
        (middle + UInt32.ofNat (k + readIds code inputs i))) ?_ ?_
  · exact ⟨whole.1, whole.2.next⟩
  · refine ⟨fun id none => absurd none Bool.false_ne_true,
      fun id depth none => absurd none (Option.some_ne_none _).symm,
      fun l none => absurd none List.not_mem_nil, (UInt32.add_zero middle).symm⟩
  · intro done i rest s₁ piece s₂ split seen turned
    obtain ⟨_, _, _, rewritten⟩ := lowerTurn_eq_ok turned
    have seen : Seen code inputs middle done (sections plan s₁ i).2 :=
      ⟨seen.zeros, seen.loads, seen.loaded, seen.next⟩
    obtain ⟨turn, after⟩ :=
      rewriteInstruction_spec run.wf run.long run.planned split seen rewritten
    have next := after.next
    rw [List.map_append, List.sum_append, List.map_singleton, List.sum_singleton] at next
    rw [seen.next, next] at turn
    refine ⟨after, _, ?_, turn⟩
    rw [split, List.map_append, List.sum_append, List.map_cons, List.sum_cons]
    omega

/-- The sections are written once. -/
theorem Run.inserted (run : Run g inputs words code keys plan middle pieces s) :
    (pieces.flatMap Patch.inserted).Perm (plan.coordinate.sections (fragCoord code)) := by
  have own := run.planned.own
  have both := transduce_invariant run.run (fun done pieces s =>
    (pieces.flatMap Patch.inserted).Perm
      ((if plan.own.isSome = false ∧ s.annotated = true then
        [emit 71 [plan.coordinate.coordVar, 11, 15]] else []) ++
      if s.declared then plan.coordinate.declarations plan.own else []) ∧
    (plan.own.isSome = true → s.annotated = true) ∧
    (∀ i ∈ done, 19 ≤ opcode i → opcode i ≤ 39 → s.annotated = true) ∧
    (∀ i ∈ done, opcode i = 54 → s.declared = true)) ?_ ?_
  · obtain ⟨written, _, annotated, declared⟩ := both
    have annotated : s.annotated = true := by
      obtain ⟨i, member, subpass⟩ := List.any_eq_true.mp run.subpass
      have op := (isSubpassType_iff.mp subpass).1
      exact annotated i member (by rw [op]; decide) (by rw [op]; decide)
    have declared : s.declared = true := by
      obtain ⟨f, member, op⟩ := run.wf.function
      exact declared f member op
    rw [annotated, declared, own] at written
    unfold Coordinate.sections
    cases frag : fragCoord code with
    | none =>
      rw [frag] at written
      exact written
    | some id =>
      rw [frag] at written
      exact written
  · refine ⟨?_, fun own => own, fun i none => absurd none List.not_mem_nil,
      fun i none => absurd none List.not_mem_nil⟩
    cases plan.own.isSome <;> exact List.Perm.refl _
  · rintro done i rest pieces ⟨next, annotated, declared, zeros, loads⟩ piece s' _
      ⟨before, owned, types, functions⟩ turned
    obtain ⟨inserted, now_annotated, now_declared, _⟩ := lowerTurn_eq_ok turned
    rw [List.flatMap_append, List.flatMap_singleton, inserted, now_annotated, now_declared]
    dsimp only at owned types functions before ⊢
    have type : ∀ i, (decide (19 ≤ opcode i) && decide (opcode i ≤ 39)) = true ↔
        19 ≤ opcode i ∧ opcode i ≤ 39 := by
      intro i
      rw [Bool.and_eq_true, decide_eq_true_eq, decide_eq_true_eq]
    refine ⟨(before.append_right _).trans ?_, ?_, ?_, ?_⟩
    · unfold sections
      dsimp only
      generalize plan.coordinate.declarations plan.own = declarations
      generalize emit 71 [plan.coordinate.coordVar, 11, 15] = decoration
      generalize (decide (19 ≤ opcode i) && decide (opcode i ≤ 39)) = type
      generalize (opcode i == 54) = function
      have swap : (declarations ++ [decoration]).Perm (decoration :: declarations) :=
        List.perm_append_comm
      cases own : plan.own.isSome <;> cases annotated <;> cases declared <;> cases type <;>
        cases function <;> simp_all
    · intro h
      show (annotated || _) = true
      rw [owned h]
      rfl
    · intro j member low high
      show (annotated || (!annotated && _)) = true
      rcases List.mem_append.mp member with old | last
      · rw [types j old low high]
        rfl
      · obtain rfl := List.mem_singleton.mp last
        rw [(type j).mpr ⟨low, high⟩]
        cases annotated <;> rfl
    · intro j member op
      show (declared || (!declared && _)) = true
      rcases List.mem_append.mp member with old | last
      · rw [functions j old op]
        rfl
      · obtain rfl := List.mem_singleton.mp last
        rw [op]
        cases declared <;> rfl

end Runs

end Sgfx.Vulkan.InputAttachments
