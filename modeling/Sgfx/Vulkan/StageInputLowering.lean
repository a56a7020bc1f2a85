import Sgfx.Vulkan.StageInputRewriting

/-!
# Lowering of packed stage inputs

A module is lowered as promised exactly if its packed inputs are used only where `lower` looks.

## Main Definitions

* `Run` — a run of `lower` on a module with packed inputs

## Main Results

* `rewrite_mentions` — the ids of what is written
* `lowers_iff`
-/

namespace Sgfx.Vulkan.StageInputs

open Spirv

/-- A run of the loops after the groups are known. -/
structure Run (g : Dialect) (words : List UInt32) (code : List (List UInt32)) (packs : List Pack)
    (middle : UInt32) (pieces : List Patch) (s : State) : Prop where
  wf : WellFormed g words code
  packed_iff : ∀ id, isPacked (packedInputs packs) id = true ↔ PackedInput code id
  members : ∀ pack ∈ packs, ∀ input ∈ pack.members, MemberOf code input ∧
    Located code input.id pack.combined.location ∧ input.scalar = pack.combined.scalar
  nonempty : ∀ pack ∈ packs, pack.members ≠ []
  qualifiers : ∀ pack ∈ packs, ∀ words ∈ pack.combined.qualifiers, words.length = 1
  some_packed : ∃ id, PackedInput code id
  supplied : ∃ groups : List (UInt32 × List UInt32), Supplied UInt32.toNat (fun _ => []) Pack.ids
    (words.getD 3 0).toNat groups packs middle.toNat
  checked : ∀ i ∈ functionScope code, checkOperands (packedInputs packs) i = .ok ()
  run : transduce (lowerTurn packs) ⟨middle, false, false⟩ code = .ok (pieces, s)
  annotated : s.annotated = true
  declared : s.declared = true

/-- A module without packed inputs is returned as it is. -/
theorem lower_eq_ok {g : Dialect} {words out : List UInt32} {code : List (List UInt32)}
    (wf : WellFormed g words code) (h : lower words = .ok out) :
    ((∀ id, ¬ PackedInput code id) ∧ 5 ≤ words.length ∧ out = words) ∨
    ∃ packs middle pieces s, Run g words code packs middle pieces s ∧ 5 ≤ words.length ∧
      out = (words.take 5).set 3 s.next ++ (pieces.flatMap Patch.all).flatten := by
  obtain ⟨_, header, h⟩ := except_bind_eq_ok.mp h
  rw [failIf_eq_ok, not_or, Nat.not_lt] at header
  obtain ⟨code', parsed, h⟩ := except_bind_eq_ok.mp h
  obtain rfl := Except.ok.inj (wf.framed.symm.trans parsed)
  obtain ⟨tables, recorded, h⟩ := except_bind_eq_ok.mp h
  obtain ⟨groups, grouped, h⟩ := except_bind_eq_ok.mp h
  have tables_of := tables_of recorded
  have spec := inputGroups_spec tables_of wf.numbered grouped
  split at h
  · rename_i none
    cases h
    refine .inl ⟨fun id packed => ?_, header.1, rfl⟩
    obtain ⟨group, member, _⟩ := spec.exists_group id packed
    exact absurd (none ▸ member) List.not_mem_nil
  · rename_i some
    obtain ⟨⟨packs, middle⟩, packed, h⟩ := except_bind_eq_ok.mp h
    obtain ⟨⟨inFunction, seen⟩, checked, h⟩ := except_bind_eq_ok.mp h
    obtain ⟨_, _, h⟩ := except_bind_eq_ok.mp h
    obtain ⟨⟨pieces, s⟩, run, h⟩ := except_bind_eq_ok.mp h
    obtain ⟨_, ended, h⟩ := except_bind_eq_ok.mp h
    cases h
    rw [failIf_eq_ok, not_or, Bool.not_eq_false, Bool.not_eq_false] at ended
    have related := packGroups_forall₂ tables_of packed
    refine .inr ⟨packs, middle, pieces, s, ⟨wf, fun id => isPacked_iff spec related, ?_, ?_, ?_,
      ?_, ⟨groups, packGroups_supplied tables_of packed⟩, checkUses_eq_ok checked, run, ended.1,
      ended.2⟩, header.1, rfl⟩
    · intro pack member input inside
      obtain ⟨group, there, pack_of⟩ := forall₂_mem_right related member
      obtain ⟨member_of, scalar⟩ := pack_of.members input inside
      refine ⟨member_of, ?_, scalar⟩
      rw [pack_of.location]
      exact spec.located group there _ (pack_of.ids.mem_iff.mp (List.mem_map_of_mem inside))
    · intro pack member empty
      obtain ⟨group, there, pack_of⟩ := forall₂_mem_right related member
      have ids := pack_of.ids
      rw [empty] at ids
      exact spec.nonempty group there ids.nil_eq.symm
    · intro pack member
      obtain ⟨group, there, pack_of⟩ := forall₂_mem_right related member
      exact pack_of.qualifiers
    · obtain ⟨group, rest, shape⟩ := List.exists_cons_of_ne_nil some
      have member : group ∈ groups := shape ▸ List.mem_cons_self
      obtain ⟨id, ids, shape⟩ := List.exists_cons_of_ne_nil (spec.nonempty group member)
      exact ⟨id, spec.packed group member id (shape ▸ List.mem_cons_self)⟩

/-! ## What is written -/

section Written

variable {g : Dialect} {words out i j : List UInt32} {code : List (List UInt32)}
  {packs : List Pack} {middle next next' id : UInt32} {pieces : List Patch} {s : State}
  {body : List (List UInt32)}

theorem lowerTurn_eq_ok {s s' : State} {piece : Patch} (h : lowerTurn packs s i = .ok (piece, s')) :
    piece.inserted = (sections packs s i).1 ∧ s'.annotated = (sections packs s i).2.annotated ∧
      s'.declared = (sections packs s i).2.declared ∧
      rewriteInstruction (packedInputs packs) s.next i = .ok (piece.body, s'.next) := by
  obtain ⟨⟨body, next⟩, rewritten, h⟩ := except_bind_eq_ok.mp h
  cases h
  exact ⟨rfl, rfl, rfl, rewritten⟩

/-- The ids of the vectors are new. -/
theorem Run.ids_new (run : Run g words code packs middle pieces s) {pack : Pack}
    (member : pack ∈ packs) (listed : id ∈ pack.ids) :
    (words.getD 3 0).toNat ≤ id.toNat ∧ id.toNat < middle.toNat := by
  obtain ⟨groups, supplied⟩ := run.supplied
  rcases supplied.mem id (List.mem_flatMap.mpr ⟨pack, member, listed⟩) with old | new
  · obtain ⟨_, _, none⟩ := List.mem_flatMap.mp old
    cases none
  · exact new

theorem Run.middle_le (run : Run g words code packs middle pieces s) :
    (words.getD 3 0).toNat ≤ middle.toNat := by
  obtain ⟨groups, supplied⟩ := run.supplied
  exact supplied.le

/-- The decorations and the declarations of the vectors are written once. -/
theorem Run.inserted (run : Run g words code packs middle pieces s) :
    (pieces.flatMap Patch.inserted).Perm
      (packs.flatMap fun pack => pack.combined.annotations ++ pack.combined.declarations) := by
  have sections_perm : (pieces.flatMap Patch.inserted).Perm
      ((if s.annotated then packs.flatMap fun pack => pack.combined.annotations else []) ++
        if s.declared then packs.flatMap fun pack => pack.combined.declarations else []) := by
    refine transduce_invariant run.run (fun _ pieces s => (pieces.flatMap Patch.inserted).Perm
      ((if s.annotated then packs.flatMap fun pack => pack.combined.annotations else []) ++
        if s.declared then packs.flatMap fun pack => pack.combined.declarations else []))
      (List.Perm.refl _) ?_
    rintro done i rest pieces ⟨next, annotated, declared⟩ piece s' _ before turned
    obtain ⟨inserted, now_annotated, now_declared, _⟩ := lowerTurn_eq_ok turned
    rw [List.flatMap_append, List.flatMap_singleton, inserted, now_annotated, now_declared]
    refine (before.append_right _).trans ?_
    unfold sections
    dsimp only
    generalize packs.flatMap (fun pack => pack.combined.annotations) = annotations
    generalize packs.flatMap (fun pack => pack.combined.declarations) = declarations
    generalize (decide (19 ≤ opcode i) && decide (opcode i ≤ 39)) = type
    generalize (opcode i == 54) = function
    have swap : (annotations ++ declarations).Perm (declarations ++ annotations) :=
      List.perm_append_comm
    cases annotated <;> cases declared <;> cases type <;> cases function <;>
      simp [swap.symm]
  rw [run.annotated, run.declared] at sections_perm
  exact sections_perm.trans (List.flatMap_append_perm _ _ _)

theorem renamed_cases (packs : List Pack) (old : UInt32) :
    (∃ pack ∈ packs, renamed (packedInputs packs) old = pack.combined.variableId) ∨
      (renamed (packedInputs packs) old = old ∧ ¬ isPacked (packedInputs packs) old = true) := by
  unfold renamed isPacked
  cases found : packedInputs packs old with
  | none => exact .inr ⟨rfl, Bool.false_ne_true⟩
  | some entry =>
    obtain ⟨pack, member, same, _⟩ := packedInputs_eq_some found
    exact .inl ⟨pack, member, congrArg Combined.variableId same.symm⟩

theorem variableId_mem (pack : Pack) : pack.combined.variableId ∈ pack.ids :=
  List.mem_cons_of_mem _ (List.mem_cons_of_mem _ List.mem_cons_self)

/-- The words of an instruction with lanes. -/
theorem TakesLanes.uses {type result vector : UInt32} {component width : Nat}
    (takes : TakesLanes i type result vector component width) (long : 5 ≤ i.length) :
    (∀ id ∈ g.usesOf i, id = type ∨ id = vector) ∧ g.resultOf i = some result := by
  match i, long with
  | first :: a :: b :: c :: d :: rest, _ =>
    obtain rfl : a = type := takes.type
    obtain rfl : b = result := takes.result
    rcases takes.vector with ⟨op, same⟩ | ⟨op, same, again⟩
    · obtain rfl : c = vector := same
      refine ⟨fun id use => ?_, ?_⟩
      · rw [Dialect.usesOf, op] at use
        have use : id ∈ g.uses 81 (a :: b :: c :: d :: rest) := use
        rw [g.oneOperand 81 (by decide)] at use
        simpa using use
      · exact (Dialect.result_value (by rw [op]; decide) (by simp)).1
    · obtain rfl : c = vector := same
      obtain rfl : d = c := again
      refine ⟨fun id use => ?_, ?_⟩
      · rw [Dialect.usesOf, op] at use
        have use : id ∈ g.uses 79 (a :: b :: d :: d :: rest) := use
        rw [g.twoOperands 79 (by decide)] at use
        simpa using use
      · exact (Dialect.result_value (by rw [op]; decide) (by simp)).1

theorem extractLanes_length (input : Input) (result loaded : UInt32) :
    5 ≤ (extractLanes input result loaded).length := by
  unfold extractLanes
  split
  · exact Nat.le_refl 5
  · exact Nat.succ_le_succ (Nat.succ_le_succ (Nat.succ_le_succ (Nat.succ_le_succ
      (Nat.succ_le_succ (Nat.zero_le _)))))

/-- An instruction that is written as it is. -/
structure Kept (inputs : IdMap (Input × Combined)) (i : List UInt32) : Prop where
  annotation : ¬ ((opcode i = 5 ∨ opcode i = 71) ∧ 2 ≤ i.length ∧
    isPacked inputs (i.getD 1 0) = true)
  declaration : ¬ (opcode i = 59 ∧ 3 ≤ i.length ∧ isPacked inputs (i.getD 2 0) = true)
  entryPoint : opcode i ≠ 15
  load : ¬ (opcode i = 61 ∧ 4 ≤ i.length ∧ isPacked inputs (i.getD 3 0) = true)

/-- An entry point with another interface. -/
theorem entryPoint_words {start : Nat} (interface : interfaceStart i = .ok start)
    (ids : List UInt32) : ∃ rest, (i.take start).drop 1 ++ ids = i.getD 1 0 :: i.getD 2 0 :: rest ∧
      afterString rest = ids := by
  obtain ⟨low, high, _, again⟩ := interfaceStart_eq_ok interface
  obtain ⟨first, model, function, word, rest, rfl⟩ := exists_words (Nat.le_trans low high)
  obtain ⟨start, rfl⟩ := Nat.exists_eq_add_of_le low
  refine ⟨((first :: model :: function :: word :: rest).take (4 + start)).drop 3 ++ ids, ?_,
    again ids⟩
  have shift : 4 + start = start + 1 + 1 + 1 + 1 := by omega
  rw [shift]
  rfl

theorem uses_entryPoint {start : Nat} (op : opcode i = 15)
    (interface : interfaceStart i = .ok start) :
    g.usesOf i = i.getD 2 0 :: i.drop start ∧ g.resultOf i = none := by
  obtain ⟨low, high, same, _⟩ := interfaceStart_eq_ok interface
  rw [← same]
  obtain ⟨first, model, function, word, rest, rfl⟩ := exists_words (Nat.le_trans low high)
  have law := g.entryPoint model function (word :: rest)
  rw [Dialect.usesOf, Dialect.resultOf, op]
  exact ⟨law.2, law.1⟩

theorem mentions_entryPoint {model function : UInt32} {rest : List UInt32}
    (short : rest.length + 3 < 65536) :
    g.mentions (emit 15 (model :: function :: rest)) = function :: afterString rest := by
  have law := g.entryPoint model function rest
  have length : (model :: function :: rest).length + 1 < 65536 := short
  rw [Dialect.mentions, Dialect.resultOf_emit (by decide) length,
    Dialect.usesOf_emit (by decide) length, law.1, law.2]
  rfl

/-- The length of an entry point with another interface. -/
theorem entryPoint_length {start : Nat} (framed : Framed i)
    (interface : interfaceStart i = .ok start) {ids : List UInt32}
    (fewer : ids.length ≤ (i.drop start).length) :
    ((i.take start).drop 1 ++ ids).length + 1 < 65536 := by
  obtain ⟨low, high, _, _⟩ := interfaceStart_eq_ok interface
  have short := framed.length_lt
  rw [List.length_drop] at fewer
  rw [List.length_append, List.length_drop, List.length_take]
  omega

theorem distinctIds_length (packs : List Pack) (i : List UInt32) (start : Nat) :
    (distinctIds ((i.drop start).map (renamed (packedInputs packs)))).length ≤
      (i.drop start).length :=
  Nat.le_trans (distinctIds_spec _).2.2.1 (Nat.le_of_eq (List.length_map _))

/-- A load in a module is in a function, and has the type of its input. -/
theorem Run.load_type (run : Run g words code packs middle pieces s) (member : i ∈ code)
    (op : opcode i = 61) (long : 4 ≤ i.length) {input : Input} {combined : Combined}
    (found : packedInputs packs (i.getD 3 0) = some (input, combined)) :
    i.getD 1 0 = input.ty := by
  have inside : i ∈ functionScope code :=
    (mem_scopes.mp member).resolve_left fun there => run.wf.inside i there op
  have packed : isPacked (packedInputs packs) (i.getD 3 0) = true := by
    rw [isPacked, found]
    rfl
  rcases checkOperands_eq_ok (run.checked i inside) with ⟨input', _, _, found', type⟩ | ⟨other, _⟩
  · rw [found] at found'
    obtain ⟨rfl, _⟩ := Prod.mk.inj (Option.some.inj found')
    exact type
  · exact absurd ⟨op, long, packed⟩ other

theorem emit_load_framed (framed : Framed i) (long : 4 ≤ i.length) (a b c : UInt32) :
    ([a, b, c] ++ i.drop 4).length + 1 < 65536 := by
  have short := framed.length_lt
  rw [List.length_append, List.length_drop]
  show 3 + _ + 1 < 65536
  omega

/-- What is written for an instruction has ids of vectors, the id of what is loaded, and ids of the
instruction; those of packed inputs are left only if the instruction is kept. -/
theorem Run.rewrite_mentions (run : Run g words code packs middle pieces s) (member : i ∈ code)
    (rewritten : rewriteInstruction (packedInputs packs) next i = .ok (body, next'))
    (written : j ∈ body) (mention : id ∈ g.mentions j) :
    (∃ pack ∈ packs, id ∈ pack.ids) ∨ (id = next ∧ next ∈ g.results body) ∨
      (id ∈ g.mentions i ∧
        (¬ PackedInput code id ∨ (Kept (packedInputs packs) i ∧ body = [i]))) := by
  have framed := (framed_of_instructions run.wf.framed).2.2 i member
  rcases rewriteInstruction_cases rewritten with ⟨_, _, _, rfl, _⟩ | ⟨_, _, rfl, _⟩ |
    ⟨op, start, interface, rfl, _⟩ | ⟨op, long, input, combined, found, rfl, _⟩ |
    ⟨named, declaration, entryPoint, load, rfl, _⟩
  · cases written
  · cases written
  · obtain rfl := List.mem_singleton.mp written
    have length := entryPoint_length framed interface (distinctIds_length packs i start)
    obtain ⟨rest, shape, after⟩ := entryPoint_words interface
      (distinctIds ((i.drop start).map (renamed (packedInputs packs))))
    rw [shape] at mention length
    rw [mentions_entryPoint length, after] at mention
    obtain ⟨uses, _⟩ := uses_entryPoint (g := g) op interface
    rcases List.mem_cons.mp mention with rfl | listed
    · refine .inr (.inr ⟨Dialect.mem_mentions.mpr (.inr (uses ▸ List.mem_cons_self)), .inl ?_⟩)
      intro packed
      obtain ⟨f, there, opf, longf, same⟩ := run.wf.entryPoints i member op
      have result : g.resultOf f = some (i.getD 2 0) :=
        (Dialect.result_value (by rw [opf]; decide) longf).1.trans (congrArg some same)
      have declared := (packed.eq_declaration run.wf there result).1
      rw [opf] at declared
      exact absurd declared (by decide)
    · rw [(distinctIds_spec _).2.1 id, List.mem_map] at listed
      obtain ⟨old, there, rfl⟩ := listed
      rcases renamed_cases packs old with ⟨pack, inside, same⟩ | ⟨same, unpacked⟩
      · rw [same]
        exact .inl ⟨pack, inside, variableId_mem pack⟩
      · rw [same]
        refine .inr (.inr ⟨Dialect.mem_mentions.mpr (.inr (uses ▸ List.mem_cons_of_mem _ there)),
          .inl fun packed => unpacked ((run.packed_iff old).mpr packed)⟩)
  · obtain ⟨pack, inside, rfl, listed, same⟩ := packedInputs_eq_some found
    obtain ⟨member_of, _, _⟩ := run.members pack inside input listed
    have type := run.load_type member op long found
    have uses := Dialect.uses_load (g := g) op long
    have takes : TakesLanes (extractLanes input (i.getD 2 0) next) input.ty (i.getD 2 0) next
      input.component.toNat input.width.toNat := extractLanes_takes member_of.width member_of.fits
    obtain ⟨lanes_uses, lanes_result⟩ := takes.uses (g := g) (extractLanes_length _ _ _)
    have length := emit_load_framed framed long pack.combined.vec4 next pack.combined.variableId
    have loaded : g.resultOf (emit 61 ([pack.combined.vec4, next, pack.combined.variableId] ++
        i.drop 4)) = some next := by
      rw [Dialect.resultOf_emit (by decide) length]
      exact (g.value 61 (by decide) _ _ _).1
    have defines : next ∈ g.results [emit 61 ([pack.combined.vec4, next, pack.combined.variableId] ++
        i.drop 4), extractLanes input (i.getD 2 0) next] :=
      Dialect.mem_results_of_mem List.mem_cons_self loaded
    rcases List.mem_cons.mp written with rfl | written
    · rcases Dialect.mem_mentions.mp mention with result | use
      · rw [loaded] at result
        exact .inr (.inl ⟨(Option.some.inj result).symm, defines⟩)
      · rw [Dialect.usesOf_emit (by decide) length] at use
        have use : id ∈ g.uses 61 (pack.combined.vec4 :: next :: pack.combined.variableId ::
          i.drop 4) := use
        rw [g.load] at use
        rcases List.mem_cons.mp use with rfl | use
        · exact .inl ⟨pack, inside, List.mem_cons_self⟩
        · rcases List.mem_cons.mp use with rfl | use
          · exact .inl ⟨pack, inside, variableId_mem pack⟩
          · refine .inr (.inr ⟨Dialect.mem_mentions.mpr (.inr ?_), .inl fun packed =>
              run.wf.scopes i member op id use packed.isVariable⟩)
            rw [uses]
            exact List.mem_cons_of_mem _ (List.mem_cons_of_mem _ use)
    · obtain rfl := List.mem_singleton.mp written
      rcases Dialect.mem_mentions.mp mention with result | use
      · rw [lanes_result] at result
        obtain rfl := Option.some.inj result
        have old : g.resultOf i = some (i.getD 2 0) :=
          (Dialect.result_value (by rw [op]; decide) (by omega)).1
        refine .inr (.inr ⟨Dialect.mem_mentions.mpr (.inl old), .inl fun packed => ?_⟩)
        have declared := (packed.eq_declaration run.wf member old).1
        rw [op] at declared
        exact absurd declared (by decide)
      · rcases lanes_uses id use with rfl | rfl
        · refine .inr (.inr ⟨Dialect.mem_mentions.mpr (.inr ?_),
            .inl (member_of.not_packed run.wf).2⟩)
          rw [uses, ← type]
          exact List.mem_cons_self
        · exact .inr (.inl ⟨rfl, defines⟩)
  · obtain rfl := List.mem_singleton.mp written
    exact .inr (.inr ⟨mention, .inr ⟨⟨named, declaration, entryPoint, load⟩, rfl⟩⟩)

/-- An instruction defines what it did before, and what is loaded has the next id. -/
theorem Run.rewrite_supplies (run : Run g words code packs middle pieces s) (member : i ∈ code)
    (above : (words.getD 3 0).toNat ≤ next.toNat)
    (rewritten : rewriteInstruction (packedInputs packs) next i = .ok (body, next')) :
    next.toNat ≤ next'.toNat ∧ (g.results body).Nodup ∧
      ∀ id ∈ g.results body, id ∈ (g.resultOf i).toList ∨
        (next.toNat ≤ id.toNat ∧ id.toNat < next'.toNat) := by
  have framed := (framed_of_instructions run.wf.framed).2.2 i member
  rcases rewriteInstruction_cases rewritten with ⟨_, _, _, rfl, rfl⟩ | ⟨_, _, rfl, rfl⟩ |
    ⟨op, start, interface, rfl, rfl⟩ | ⟨op, long, input, combined, found, rfl, after⟩ |
    ⟨_, _, _, _, rfl, rfl⟩
  · exact ⟨Nat.le_refl _, List.nodup_nil, fun id h => absurd h List.not_mem_nil⟩
  · exact ⟨Nat.le_refl _, List.nodup_nil, fun id h => absurd h List.not_mem_nil⟩
  · refine ⟨Nat.le_refl _, Dialect.nodup_results_singleton, fun id h => ?_⟩
    have length := entryPoint_length framed interface (distinctIds_length packs i start)
    obtain ⟨rest, shape, _⟩ := entryPoint_words interface
      (distinctIds ((i.drop start).map (renamed (packedInputs packs))))
    rw [shape] at h length
    rw [Dialect.results_singleton, Dialect.resultOf_emit (by decide) length,
      (g.entryPoint _ _ _).1] at h
    cases h
  · obtain ⟨pack, inside, rfl, listed, same⟩ := packedInputs_eq_some found
    obtain ⟨member_of, _, _⟩ := run.members pack inside input listed
    have takes : TakesLanes (extractLanes input (i.getD 2 0) next) input.ty (i.getD 2 0) next
      input.component.toNat input.width.toNat := extractLanes_takes member_of.width member_of.fits
    have lanes := (takes.uses (g := g) (extractLanes_length _ _ _)).2
    have length := emit_load_framed framed long pack.combined.vec4 next pack.combined.variableId
    have loaded : g.resultOf (emit 61 ([pack.combined.vec4, next, pack.combined.variableId] ++
        i.drop 4)) = some next := by
      rw [Dialect.resultOf_emit (by decide) length]
      exact (g.value 61 (by decide) _ _ _).1
    have old : g.resultOf i = some (i.getD 2 0) :=
      (Dialect.result_value (by rw [op]; decide) (by omega)).1
    have below := UInt32.lt_iff_toNat_lt.mp (run.wf.numbered.result_lt member old)
    rw [Dialect.results_pair, loaded, lanes, old]
    refine ⟨by omega, ?_, fun id h => ?_⟩
    · refine List.nodup_cons.mpr ⟨fun h => ?_, List.pairwise_singleton _ _⟩
      have same : next = i.getD 2 0 := List.mem_singleton.mp h
      rw [same] at above
      omega
    · rcases List.mem_cons.mp h with rfl | h
      · exact .inr ⟨Nat.le_refl _, by omega⟩
      · exact .inl h
  · refine ⟨Nat.le_refl _, Dialect.nodup_results_singleton, fun id h => .inl ?_⟩
    rwa [Dialect.results_singleton] at h

theorem Run.supply (run : Run g words code packs middle pieces s) :
    Supplied UInt32.toNat (fun i => (g.resultOf i).toList)
      (fun piece : Patch => g.results piece.body) middle.toNat code pieces s.next.toNat := by
  refine transduce_supplied run.run (fun s => s.next.toNat) fun i member s₁ piece s₂ above turned => ?_
  obtain ⟨_, _, _, rewritten⟩ := lowerTurn_eq_ok turned
  exact run.rewrite_supplies member (Nat.le_trans run.middle_le above) rewritten

/-- Every piece is one of a turn. -/
theorem Run.turns (run : Run g words code packs middle pieces s) :
    List.Forall₂ (fun i piece => ∃ next next', middle.toNat ≤ next.toNat ∧
      rewriteInstruction (packedInputs packs) next i = .ok (piece.body, next')) code pieces := by
  refine (transduce_forall₂ run.run (fun _ s => middle.toNat ≤ s.next.toNat) _ (Nat.le_refl _) ?_).1
  intro done i rest s₁ piece s₂ whole above turned
  obtain ⟨_, _, _, rewritten⟩ := lowerTurn_eq_ok turned
  have member : i ∈ code := whole ▸ List.mem_append_right _ List.mem_cons_self
  have after := (run.rewrite_supplies member (Nat.le_trans run.middle_le above) rewritten).1
  exact ⟨Nat.le_trans above after, _, _, above, rewritten⟩

/-- A decoration of a vector only has its id. -/
theorem annotation_ids (id : UInt32) {rest : List UInt32} (short : rest.length < 3) :
    g.resultOf (emit 71 (id :: rest)) = none ∧ g.usesOf (emit 71 (id :: rest)) = [id] := by
  have length : (id :: rest).length + 1 < 65536 := by
    rw [List.length_cons]
    omega
  rw [Dialect.resultOf_emit (by decide) length, Dialect.usesOf_emit (by decide) length]
  exact g.annotation 71 (by decide) id rest

/-- The decorations of a vector. -/
theorem Run.annotation (run : Run g words code packs middle pieces s) {pack : Pack}
    (inside : pack ∈ packs) (member : j ∈ pack.combined.annotations) :
    ∃ rest : List UInt32, rest.length < 3 ∧ j = emit 71 (pack.combined.variableId :: rest) := by
  rcases List.mem_cons.mp member with rfl | qualifier
  · exact ⟨[30, pack.combined.location], (by decide : 2 < 3), rfl⟩
  · obtain ⟨rest, listed, rfl⟩ := List.mem_map.mp qualifier
    refine ⟨rest, ?_, rfl⟩
    rw [run.qualifiers pack inside rest listed]
    decide

/-- The declarations of a vector define its ids. -/
theorem declaration_ids (c : Combined) :
    (g.resultOf (emit 23 [c.vec4, c.scalar, 4]) = some c.vec4 ∧
      g.usesOf (emit 23 [c.vec4, c.scalar, 4]) = [c.scalar]) ∧
    (g.resultOf (emit 32 [c.pointer, 1, c.vec4]) = some c.pointer ∧
      g.usesOf (emit 32 [c.pointer, 1, c.vec4]) = [c.vec4]) ∧
    g.resultOf (emit 59 [c.pointer, c.variableId, 1]) = some c.variableId ∧
      g.usesOf (emit 59 [c.pointer, c.variableId, 1]) = [c.pointer] := by
  have vec4 : g.resultOf (emit 23 [c.vec4, c.scalar, 4]) = some c.vec4 :=
    Dialect.resultOf_emit_type (by decide) (by decide) (by decide : 2 + 2 < 65536)
  have pointer : g.resultOf (emit 32 [c.pointer, 1, c.vec4]) = some c.pointer :=
    Dialect.resultOf_emit_type (by decide) (by decide) (by decide : 2 + 2 < 65536)
  have declared : g.resultOf (emit 59 [c.pointer, c.variableId, 1]) = some c.variableId :=
    Dialect.resultOf_emit_value (by decide) (by decide : 1 + 3 < 65536)
  rw [Dialect.usesOf_emit_three (by decide), Dialect.usesOf_emit_three (by decide),
    Dialect.usesOf_emit_three (by decide), g.wrapper 23 (by decide), g.pointer, g.declaration]
  exact ⟨⟨vec4, rfl⟩, ⟨pointer, rfl⟩, declared, rfl⟩

/-- The ids of what is inserted. -/
theorem Run.mentions_inserted (run : Run g words code packs middle pieces s)
    (member : j ∈ pieces.flatMap Patch.inserted) (mention : id ∈ g.mentions j) :
    (∃ pack ∈ packs, id ∈ pack.ids) ∨ (id ∈ g.results code ∧ ¬ PackedInput code id) := by
  obtain ⟨pack, inside, member⟩ := List.mem_flatMap.mp (run.inserted.mem_iff.mp member)
  have variableId := variableId_mem pack
  have pointerId : pack.combined.pointer ∈ pack.ids := List.mem_cons_of_mem _ List.mem_cons_self
  obtain ⟨⟨vec4_result, vec4_uses⟩, ⟨pointer_result, pointer_uses⟩, input_result, input_uses⟩ :=
    declaration_ids (g := g) pack.combined
  rcases List.mem_append.mp member with annotation | declaration
  · obtain ⟨rest, short, rfl⟩ := run.annotation inside annotation
    obtain ⟨result, uses⟩ := annotation_ids (g := g) pack.combined.variableId short
    rw [Dialect.mentions, result, uses] at mention
    exact .inl ⟨pack, inside, List.mem_singleton.mp mention ▸ variableId⟩
  · simp only [Combined.declarations, List.mem_cons, List.not_mem_nil, or_false] at declaration
    rcases declaration with rfl | rfl | rfl
    · rw [Dialect.mentions, vec4_result, vec4_uses] at mention
      rcases List.mem_cons.mp mention with rfl | mention
      · exact .inl ⟨pack, inside, List.mem_cons_self⟩
      · obtain rfl := List.mem_singleton.mp mention
        obtain ⟨input, rest, shape⟩ := List.exists_cons_of_ne_nil (run.nonempty pack inside)
        obtain ⟨member_of, _, scalar⟩ := run.members pack inside input (shape ▸ List.mem_cons_self)
        obtain ⟨⟨unpacked, defined⟩, _⟩ := member_of.not_packed run.wf
        rw [scalar] at unpacked defined
        exact .inr ⟨defined, unpacked⟩
    · rw [Dialect.mentions, pointer_result, pointer_uses] at mention
      rcases List.mem_cons.mp mention with rfl | mention
      · exact .inl ⟨pack, inside, pointerId⟩
      · exact .inl ⟨pack, inside, List.mem_singleton.mp mention ▸ List.mem_cons_self⟩
    · rw [Dialect.mentions, input_result, input_uses] at mention
      rcases List.mem_cons.mp mention with rfl | mention
      · exact .inl ⟨pack, inside, variableId⟩
      · exact .inl ⟨pack, inside, List.mem_singleton.mp mention ▸ pointerId⟩

/-- What is inserted defines the ids of the vectors. -/
theorem Run.results_inserted (run : Run g words code packs middle pieces s) :
    (g.results (pieces.flatMap Patch.inserted)).Perm (packs.flatMap Pack.ids) := by
  have whole := run.inserted.flatMap_right fun i => (g.resultOf i).toList
  refine whole.trans (List.Perm.of_eq ?_)
  rw [List.flatMap_assoc]
  refine List.flatMap_congr fun pack inside => ?_
  have annotations : (pack.combined.annotations.flatMap fun i => (g.resultOf i).toList) = [] := by
    rw [List.flatMap_eq_nil_iff]
    intro i member
    obtain ⟨rest, short, rfl⟩ := run.annotation inside member
    rw [(annotation_ids _ short).1]
    rfl
  obtain ⟨⟨vec4, _⟩, ⟨pointer, _⟩, input, _⟩ := declaration_ids (g := g) pack.combined
  rw [List.flatMap_append, annotations, List.nil_append, Combined.declarations, List.flatMap_cons,
    List.flatMap_cons, List.flatMap_singleton, vec4, pointer, input]
  rfl

/-- What is returned is a module again. -/
theorem Run.numbered (run : Run g words code packs middle pieces s) :
    g.Numbered s.next (pieces.flatMap Patch.all) := by
  have supply := run.supply
  have last := supply.le
  have first := run.middle_le
  have old : ∀ id ∈ g.results code, id.toNat < (words.getD 3 0).toNat := by
    intro id defined
    obtain ⟨i, member, defines⟩ := Dialect.mem_results.mp defined
    exact UInt32.lt_iff_toNat_lt.mp (run.wf.numbered.result_lt member defines)
  have vectors : ∀ id ∈ packs.flatMap Pack.ids,
      (words.getD 3 0).toNat ≤ id.toNat ∧ id.toNat < middle.toNat := by
    intro id listed
    obtain ⟨pack, inside, listed⟩ := List.mem_flatMap.mp listed
    exact run.ids_new inside listed
  refine .of_supplied supply ?_ ?_ ?_
  · refine (run.results_inserted.append_right _).nodup_iff.mpr ?_
    rw [List.nodup_append]
    obtain ⟨groups, supplied⟩ := run.supplied
    refine ⟨supplied.nodup ?_ ?_, run.wf.numbered.unique, ?_⟩
    · rw [List.flatMap_eq_nil_iff.mpr fun _ _ => rfl]
      exact List.nodup_nil
    · intro id listed
      obtain ⟨_, _, none⟩ := List.mem_flatMap.mp listed
      cases none
    · rintro id listed id' defined rfl
      have new := vectors id listed
      have below := old id defined
      omega
  · intro id listed
    rcases List.mem_append.mp listed with inserted | defined
    · exact (vectors id (run.results_inserted.mem_iff.mp inserted)).2
    · exact Nat.lt_of_lt_of_le (old id defined) first
  · intro j member id mention
    rw [UInt32.lt_iff_toNat_lt]
    rcases mem_pieces.mp member with inserted | written
    · rcases run.mentions_inserted inserted mention with ⟨pack, inside, listed⟩ | ⟨defined, _⟩
      · exact Nat.lt_of_lt_of_le (run.ids_new inside listed).2 last
      · have below := old id defined
        omega
    · obtain ⟨piece, there, written⟩ := List.mem_flatMap.mp written
      obtain ⟨i, member, next, next', _, rewritten⟩ := forall₂_mem_right run.turns there
      rcases run.rewrite_mentions member rewritten written mention with
        ⟨pack, inside, listed⟩ | ⟨rfl, defines⟩ | ⟨mine, _⟩
      · exact Nat.lt_of_lt_of_le (run.ids_new inside listed).2 last
      · rcases supply.mem id (List.mem_flatMap.mpr ⟨piece, there, defines⟩) with defined | new
        · have below := old id defined
          omega
        · exact new.2
      · have below := UInt32.lt_iff_toNat_lt.mp (run.wf.numbered.bounded i member id mine)
        omega

/-- What is written for an instruction is framed. -/
theorem Run.framed (run : Run g words code packs middle pieces s)
    (member : j ∈ pieces.flatMap Patch.all) : Framed j := by
  rcases mem_pieces.mp member with inserted | written
  · obtain ⟨pack, inside, member⟩ := List.mem_flatMap.mp (run.inserted.mem_iff.mp inserted)
    rcases List.mem_append.mp member with annotation | declaration
    · obtain ⟨rest, short, rfl⟩ := run.annotation inside annotation
      refine framed_emit (by decide) ?_
      rw [List.length_cons]
      omega
    · simp only [Combined.declarations, List.mem_cons, List.not_mem_nil, or_false] at declaration
      rcases declaration with rfl | rfl | rfl
      · exact framed_emit (by decide) (show 3 + 1 < 65536 by decide)
      · exact framed_emit (by decide) (show 3 + 1 < 65536 by decide)
      · exact framed_emit (by decide) (show 3 + 1 < 65536 by decide)
  · obtain ⟨piece, there, written⟩ := List.mem_flatMap.mp written
    obtain ⟨i, member, next, next', _, rewritten⟩ := forall₂_mem_right run.turns there
    have framed := (framed_of_instructions run.wf.framed).2.2 i member
    generalize piece.body = body at written rewritten
    rcases rewriteInstruction_cases rewritten with ⟨_, _, _, rfl, _⟩ | ⟨_, _, rfl, _⟩ |
      ⟨_, start, interface, rfl, _⟩ | ⟨_, long, input, combined, found, rfl, _⟩ |
      ⟨_, _, _, _, rfl, _⟩
    · cases written
    · cases written
    · obtain rfl := List.mem_singleton.mp written
      exact framed_emit (by decide)
        (entryPoint_length framed interface (distinctIds_length packs i start))
    · rcases List.mem_cons.mp written with rfl | written
      · exact framed_emit (by decide) (emit_load_framed framed long _ _ _)
      · obtain rfl := List.mem_singleton.mp written
        obtain ⟨pack, inside, rfl, listed, _⟩ := packedInputs_eq_some found
        have fits := (run.members pack inside input listed).1.fits
        unfold extractLanes
        split
        · exact framed_emit (by decide) (show 4 + 1 < 65536 by decide)
        · refine framed_emit (by decide) ?_
          rw [List.length_append, List.length_map, List.length_range]
          show 4 + input.width.toNat + 1 < 65536
          omega
    · obtain rfl := List.mem_singleton.mp written
      exact framed

theorem Run.fresh (run : Run g words code packs middle pieces s) :
    ∀ id ∈ g.results (pieces.flatMap Patch.all),
      id ∈ g.results code ∨ words.getD 3 0 ≤ id := by
  intro id defined
  rw [UInt32.le_iff_toNat_le]
  obtain ⟨j, member, defines⟩ := Dialect.mem_results.mp defined
  rcases mem_pieces.mp member with inserted | written
  · have listed := run.results_inserted.mem_iff.mp (Dialect.mem_results_of_mem inserted defines)
    obtain ⟨pack, inside, listed⟩ := List.mem_flatMap.mp listed
    exact .inr (run.ids_new inside listed).1
  · obtain ⟨piece, there, written⟩ := List.mem_flatMap.mp written
    rcases run.supply.mem id (List.mem_flatMap.mpr
      ⟨piece, there, Dialect.mem_results_of_mem written defines⟩) with old | new
    · exact .inl old
    · exact .inr (Nat.le_trans run.middle_le new.1)

/-- Entry points are functions. -/
theorem WellFormed.entryPoint_unpacked (wf : WellFormed g words code) (member : i ∈ code)
    (op : opcode i = 15) : ¬ PackedInput code (i.getD 2 0) := by
  intro packed
  obtain ⟨f, there, opf, long, same⟩ := wf.entryPoints i member op
  have result : g.resultOf f = some (i.getD 2 0) :=
    (Dialect.result_value (by rw [opf]; decide) long).1.trans (congrArg some same)
  have declared := (packed.eq_declaration wf there result).1
  rw [opf] at declared
  exact absurd declared (by decide)

/-- What is written has no packed inputs, if what is kept has none. -/
theorem Run.survivors (run : Run g words code packs middle pieces s)
    (unrelated : ∀ i ∈ code, Kept (packedInputs packs) i → ∀ id ∈ g.mentions i,
      ¬ PackedInput code id)
    (member : j ∈ pieces.flatMap Patch.all) (mention : id ∈ g.mentions j) :
    ¬ PackedInput code id := by
  have new : (words.getD 3 0).toNat ≤ id.toNat → ¬ PackedInput code id := fun new packed =>
    Nat.not_lt.mpr new (packed.lt run.wf)
  rcases mem_pieces.mp member with inserted | written
  · rcases run.mentions_inserted inserted mention with ⟨pack, inside, listed⟩ | ⟨_, unpacked⟩
    · exact new (run.ids_new inside listed).1
    · exact unpacked
  · obtain ⟨piece, there, written⟩ := List.mem_flatMap.mp written
    obtain ⟨i, member, next, next', above, rewritten⟩ := forall₂_mem_right run.turns there
    rcases run.rewrite_mentions member rewritten written mention with
      ⟨pack, inside, listed⟩ | ⟨rfl, _⟩ | ⟨mine, unpacked | ⟨kept, _⟩⟩
    · exact new (run.ids_new inside listed).1
    · exact new (Nat.le_trans run.middle_le above)
    · exact unpacked
    · exact unrelated i member kept id mine

/-- What is kept of a lowerable module has no packed inputs. -/
theorem Run.kept_unrelated (run : Run g words code packs middle pieces s)
    (lowerable : Lowerable g code) (member : i ∈ code) (kept : Kept (packedInputs packs) i)
    (mention : id ∈ g.mentions i) : ¬ PackedInput code id := by
  intro packed
  have isPacked := (run.packed_iff id).mpr packed
  rcases Dialect.mem_mentions.mp mention with result | use
  · obtain ⟨op, same⟩ := packed.eq_declaration run.wf member result
    have long := run.wf.long i member (.inl op)
    exact kept.declaration ⟨op, by omega, same ▸ isPacked⟩
  rcases mem_scopes.mp member with outside | inside
  · by_cases named : opcode i = 5 ∨ opcode i = 71
    · have listed : id ∈ i.drop 1 := g.uses_subset _ _ use
      match i, listed with
      | first :: target :: rest, _ =>
        have op : opcode (first :: target :: rest) ∈ [5, 71, 72] := by
          rcases named with op | op <;> rw [op] <;> decide
        have law := g.annotation _ op target rest
        have uses : g.usesOf (first :: target :: rest) = [target] := law.2
        rw [uses] at use
        obtain rfl := List.mem_singleton.mp use
        exact kept.annotation ⟨named, Nat.succ_le_succ (Nat.succ_le_succ (Nat.zero_le _)),
          isPacked⟩
    · refine lowerable.references i outside (fun h => ?_) id use packed
      simp only [List.mem_cons, List.not_mem_nil, or_false] at h
      rcases h with op | op | op
      · exact named (.inl op)
      · exact named (.inr op)
      · exact kept.entryPoint op
  · rcases checkOperands_eq_ok (run.checked i inside) with ⟨input, combined, op, found, _⟩ |
      ⟨_, unpacked⟩
    · have here : StageInputs.isPacked (packedInputs packs) (i.getD 3 0) = true := by
        rw [StageInputs.isPacked, found]
        rfl
      exact kept.load ⟨op, run.wf.long i member (.inr op), here⟩
    · exact unpacked id (objectOperands_subset (run.wf.operands i member id use
        packed.isVariable)) isPacked

/-- What replaces an instruction of a lowerable module. -/
theorem Run.rewritten (run : Run g words code packs middle pieces s)
    (lowerable : Lowerable g code) (member : i ∈ code)
    (turned : rewriteInstruction (packedInputs packs) next i = .ok (body, next')) :
    Rewritten g code packs i body := by
  have framed := (framed_of_instructions run.wf.framed).2.2 i member
  rcases rewriteInstruction_cases turned with ⟨op, _, packed, rfl, _⟩ | ⟨op, packed, rfl, _⟩ |
    ⟨op, start, interface, rfl, _⟩ | ⟨op, long, input, combined, found, rfl, _⟩ |
    ⟨named, declaration, entryPoint, load, rfl, _⟩
  · exact Rewritten.annotation op ((run.packed_iff _).mp packed)
  · exact .declaration op ((run.packed_iff _).mp packed)
  · obtain ⟨nodup, mem, _, same⟩ :=
      distinctIds_spec ((i.drop start).map (renamed (packedInputs packs)))
    by_cases packed : ∃ id ∈ i.drop start, PackedInput code id
    · exact .entryPoint start _ op interface packed nodup mem
    -- Nothing is renamed, and no id is listed twice.
    have unpacked : ∀ id ∈ i.drop start, ¬ PackedInput code id :=
      fun id listed h => packed ⟨id, listed, h⟩
    have unnamed : (i.drop start).map (renamed (packedInputs packs)) = i.drop start := by
      refine (List.map_congr_left fun id listed => ?_).trans (List.map_id _)
      rcases renamed_cases packs id with ⟨pack, inside, _⟩ | ⟨same, _⟩
      · have none : packedInputs packs id = none := by
          rw [← Option.not_isSome_iff_eq_none]
          exact fun found => unpacked id listed ((run.packed_iff id).mp found)
        rw [renamed, none]
        rfl
      · exact same
    rw [unnamed] at same ⊢
    rw [same (lowerable.interfaces run.some_packed i member op start interface unpacked)]
    obtain ⟨low, _, _, _⟩ := interfaceStart_eq_ok interface
    have whole : (i.take start).drop 1 ++ i.drop start = i.drop 1 := by
      have split := congrArg (List.drop 1) (List.take_append_drop start i)
      rwa [List.drop_append_of_le_length] at split
      rw [List.length_take]
      have long := (interfaceStart_eq_ok interface).2.1
      omega
    have again : emit 15 (i.drop 1) = i := by
      have same := emit_opcode framed
      rwa [op] at same
    rw [whole, again]
    obtain ⟨uses, result⟩ := uses_entryPoint (g := g) op interface
    refine .kept fun id mention => ?_
    rw [Dialect.mentions, uses, result] at mention
    rcases List.mem_cons.mp mention with rfl | listed
    · exact run.wf.entryPoint_unpacked member op
    · exact unpacked id listed
  · obtain ⟨pack, inside, rfl, listed, same⟩ := packedInputs_eq_some found
    obtain ⟨member_of, _, _⟩ := run.members pack inside input listed
    refine .load pack input next _ op inside listed same ?_
    rw [run.load_type member op long found]
    exact extractLanes_takes member_of.width member_of.fits
  · exact .kept fun id mention =>
      run.kept_unrelated lowerable member ⟨named, declaration, entryPoint, load⟩ mention

/-- Entry points list no id twice. -/
theorem Run.interface_nodup (run : Run g words code packs middle pieces s)
    (member : j ∈ pieces.flatMap Patch.all) (op : opcode j = 15) {start : Nat}
    (interface : interfaceStart j = .ok start) : (j.drop start).Nodup := by
  rcases mem_pieces.mp member with inserted | written
  · obtain ⟨pack, inside, member⟩ := List.mem_flatMap.mp (run.inserted.mem_iff.mp inserted)
    have other : opcode j ∈ [71, 23, 32, 59] := by
      rcases List.mem_append.mp member with annotation | declaration
      · obtain ⟨rest, short, rfl⟩ := run.annotation inside annotation
        rw [opcode_emit (by decide) (by rw [List.length_cons]; omega)]
        decide
      · simp only [Combined.declarations, List.mem_cons, List.not_mem_nil, or_false] at declaration
        rcases declaration with rfl | rfl | rfl
        · rw [opcode_emit_three (by decide)]
          decide
        · rw [opcode_emit_three (by decide)]
          decide
        · rw [opcode_emit_three (by decide)]
          decide
    rw [op] at other
    exact absurd other (by decide)
  · obtain ⟨piece, there, written⟩ := List.mem_flatMap.mp written
    obtain ⟨i, member, next, next', _, rewritten⟩ := forall₂_mem_right run.turns there
    have framed := (framed_of_instructions run.wf.framed).2.2 i member
    generalize piece.body = body at written rewritten
    rcases rewriteInstruction_cases rewritten with ⟨_, _, _, rfl, _⟩ | ⟨_, _, rfl, _⟩ |
      ⟨_, start', interface', rfl, _⟩ | ⟨_, long, input, combined, found, rfl, _⟩ |
      ⟨_, _, other, _, rfl, _⟩
    · cases written
    · cases written
    · obtain rfl := List.mem_singleton.mp written
      rw [← (interfaceStart_eq_ok interface).2.2.1]
      obtain ⟨rest, shape, after⟩ := entryPoint_words interface'
        (distinctIds ((i.drop start').map (renamed (packedInputs packs))))
      rw [shape]
      have tail : (emit 15 (i.getD 1 0 :: i.getD 2 0 :: rest)).drop 3 = rest := rfl
      rw [tail, after]
      exact (distinctIds_spec _).1
    · rcases List.mem_cons.mp written with rfl | written
      · rw [opcode_emit (by decide) (emit_load_framed framed long _ _ _)] at op
        exact absurd op (by decide)
      · obtain rfl := List.mem_singleton.mp written
        obtain ⟨pack, inside, rfl, listed, _⟩ := packedInputs_eq_some found
        obtain ⟨member_of, _, _⟩ := run.members pack inside input listed
        have takes : TakesLanes (extractLanes input (i.getD 2 0) next) input.ty (i.getD 2 0) next
          input.component.toNat input.width.toNat :=
          extractLanes_takes member_of.width member_of.fits
        rcases takes.vector with ⟨lanes, _⟩ | ⟨lanes, _⟩
        · rw [lanes] at op
          exact absurd op (by decide)
        · rw [lanes] at op
          exact absurd op (by decide)
    · obtain rfl := List.mem_singleton.mp written
      exact absurd op other

/-- What is kept ahead of the functions is returned. -/
theorem Run.mem_of_moduleScope (run : Run g words code packs middle pieces s)
    (member : i ∈ moduleScope code) (plain : opcode i ∉ [5, 71, 15])
    (undeclared : ¬ (opcode i = 59 ∧ PackedInput code (i.getD 2 0))) :
    i ∈ pieces.flatMap Patch.all := by
  have here : i ∈ code := mem_scopes.mpr (.inl member)
  simp only [List.mem_cons, List.not_mem_nil, or_false, not_or] at plain
  obtain ⟨piece, there, next, next', _, rewritten⟩ := forall₂_mem_left run.turns here
  refine mem_pieces.mpr (.inr (List.mem_flatMap.mpr ⟨piece, there, ?_⟩))
  rcases rewriteInstruction_cases rewritten with ⟨op, _⟩ | ⟨op, packed, _⟩ | ⟨op, _⟩ | ⟨op, _⟩ |
    ⟨_, _, _, _, same, _⟩
  · exact absurd op (not_or.mpr ⟨plain.1, plain.2.1⟩)
  · exact absurd ⟨op, (run.packed_iff _).mp packed⟩ undeclared
  · exact absurd op plain.2.2
  · exact absurd op (run.wf.inside i member)
  · rw [same]
    exact List.mem_cons_self

/-- The declaration of a packed input uses a type only. -/
theorem Run.declaration_unpacked (run : Run g words code packs middle pieces s) (member : i ∈ code)
    (op : opcode i = 59) (packed : PackedInput code (i.getD 2 0)) (use : id ∈ g.usesOf i) :
    ¬ PackedInput code id := by
  obtain ⟨⟨input, combined⟩, found⟩ :=
    Option.isSome_iff_exists.mp ((run.packed_iff _).mpr packed)
  obtain ⟨pack, inside, rfl, listed, same⟩ := packedInputs_eq_some found
  obtain ⟨member_of, _, _⟩ := run.members pack inside input listed
  obtain ⟨v, there, p, pointer, opv, length, samev, _, opp, lengthp, type, _⟩ := member_of.typed
  have long := run.wf.long i member (.inl op)
  have mine : g.resultOf i = some (i.getD 2 0) :=
    (Dialect.result_value (by rw [op]; decide) (by omega)).1
  have theirs : g.resultOf v = some (i.getD 2 0) :=
    (Dialect.result_value (by rw [opv]; decide) (by omega)).1.trans
      (congrArg some (samev.trans same))
  obtain rfl := run.wf.numbered.eq_of_result member there mine theirs
  rw [Dialect.uses_declaration op long, List.drop_eq_nil_of_le (Nat.le_of_eq length)] at use
  obtain rfl := List.mem_singleton.mp use
  rw [← type]
  exact not_packed_type run.wf pointer (by rw [opp]; decide) (by rw [opp]; decide) (by omega)

/-- A lowerable module is lowered. -/
theorem Run.lowers (run : Run g words code packs middle pieces s) (long : 5 ≤ words.length)
    (lowerable : Lowerable g code) :
    Lowered g words ((words.take 5).set 3 s.next ++ (pieces.flatMap Patch.all).flatten) code
      (pieces.flatMap Patch.all) packs pieces := by
  obtain ⟨framed, take, bound, _⟩ :=
    instructions_bound long s.next fun j member => run.framed (j := j) member
  refine ⟨framed, bound.symm ▸ take, bound.symm ▸ run.numbered, run.fresh, ?_, rfl, run.inserted,
    ?_, run.members, fun id => ?_⟩
  · exact fun j member id mention => run.survivors (fun i member kept id mention =>
      run.kept_unrelated lowerable member kept mention) member mention
  · exact (transduce_forall₂ run.run (fun _ _ => True) _ trivial
      fun done i rest s₁ piece s₂ whole _ turned => ⟨trivial, run.rewritten lowerable
        (whole ▸ List.mem_append_right _ List.mem_cons_self) (lowerTurn_eq_ok turned).2.2.2⟩).1
  · rw [← run.packed_iff]
    exact isPacked_packs

/-- A module that is lowered has no other uses of packed inputs. -/
theorem Run.lowerable (run : Run g words code packs middle pieces s) (long : 5 ≤ words.length)
    (lowers : Lowers g words code
      ((words.take 5).set 3 s.next ++ (pieces.flatMap Patch.all).flatten)) :
    Lowerable g code := by
  obtain ⟨code', packs', pieces', lowered⟩ := lowers
  obtain ⟨framed, _⟩ := instructions_bound long s.next fun j member => run.framed (j := j) member
  obtain rfl := Except.ok.inj (framed.symm.trans lowered.framed)
  constructor
  · intro i member plain id use
    by_cases declaration : opcode i = 59 ∧ PackedInput code (i.getD 2 0)
    · exact run.declaration_unpacked (mem_scopes.mpr (.inl member)) declaration.1 declaration.2 use
    · exact lowered.survivors i (run.mem_of_moduleScope member plain declaration) id
        (Dialect.mem_mentions.mpr (.inr use))
  · intro _ i member op start interface unpacked
    obtain ⟨piece, there, rewritten⟩ := forall₂_mem_left lowered.bodies member
    generalize same : piece.body = body at rewritten
    cases rewritten with
    | annotation other packed =>
      rw [op] at other
      exact absurd other (by decide)
    | declaration other packed =>
      rw [op] at other
      exact absurd other (by decide)
    | entryPoint start' ids _ interface' packed nodup mem =>
      obtain rfl := Except.ok.inj (interface.symm.trans interface')
      obtain ⟨id, listed, packed⟩ := packed
      exact absurd packed (unpacked id listed)
    | load pack input loaded lanes other member inside same takes =>
      rw [op] at other
      exact absurd other (by decide)
    | kept unrelated =>
      refine run.interface_nodup ?_ op interface
      rw [lowered.whole]
      refine mem_pieces.mpr (.inr (List.mem_flatMap.mpr ⟨piece, there, ?_⟩))
      rw [same]
      exact List.mem_cons_self

/-- Without packed inputs nothing changes. -/
theorem lowered_same (wf : WellFormed g words code) (long : 5 ≤ words.length)
    (unpacked : ∀ id, ¬ PackedInput code id) :
    Lowered g words words code code [] (code.map fun i => ⟨[], [i]⟩) where
  framed := wf.framed
  header := by
    match words, long with
    | a :: b :: c :: d :: e :: rest, _ => rfl
  numbered := wf.numbered
  fresh _ defined := .inl defined
  survivors _ _ id _ := unpacked id
  whole := by
    rw [List.flatMap_map]
    exact (List.flatMap_singleton' code).symm
  inserted := by
    rw [List.flatMap_map, List.flatMap_eq_nil_iff.mpr fun _ _ => rfl]
    exact List.Perm.refl _
  bodies := by
    rw [List.forall₂_map_right_iff, List.forall₂_same]
    exact fun i _ => .kept fun id _ => unpacked id
  members pack member := absurd member List.not_mem_nil
  covers id := by
    refine ⟨fun packed => absurd packed (unpacked id), ?_⟩
    rintro ⟨pack, member, _⟩
    exact absurd member List.not_mem_nil

end Written

/-- A module is lowered as promised if and only if, ahead of the functions, only names, decorations
and entry points use packed inputs, and entry points without packed inputs list no id twice. -/
theorem lowers_iff {g : Dialect} {words out : List UInt32} {code : List (List UInt32)}
    (wf : WellFormed g words code) (h : lower words = .ok out) :
    Lowers g words code out ↔ Lowerable g code := by
  rcases lower_eq_ok wf h with ⟨unpacked, long, rfl⟩ | ⟨packs, middle, pieces, s, run, long, rfl⟩
  · refine ⟨fun _ => ⟨fun _ _ _ id _ => unpacked id, ?_⟩,
      fun _ => ⟨code, [], _, lowered_same wf long unpacked⟩⟩
    rintro ⟨id, packed⟩
    exact absurd packed (unpacked id)
  · exact ⟨run.lowerable long, fun lowerable => ⟨_, packs, pieces, run.lowers long lowerable⟩⟩

/-! ## A fragment shader -/

/-- The declarations of a fragment shader, with two inputs that share a location, and a reference to
one of them. -/
def packedShader (references : List (List UInt32)) : List (List UInt32) :=
  [emit 17 [1], emit 14 [0, 1], emit 15 [4, 12, 0x6e69616d, 0, 9, 10, 11], emit 16 [12, 7],
    emit 71 [9, 30, 0], emit 71 [10, 30, 0], emit 71 [10, 31, 3], emit 71 [11, 30, 0]] ++
  references ++
  [emit 19 [1], emit 33 [2, 1], emit 22 [3, 32], emit 23 [4, 3, 2], emit 23 [5, 3, 4],
    emit 32 [6, 1, 4], emit 32 [7, 1, 3], emit 32 [8, 3, 5], emit 43 [3, 16, 0], emit 59 [6, 9, 1],
    emit 59 [7, 10, 1], emit 59 [8, 11, 3], emit 54 [1, 12, 0, 2], emit 248 [13],
    emit 61 [4, 14, 9], emit 61 [3, 15, 10], emit 81 [3, 17, 14, 0], emit 81 [3, 18, 14, 1],
    emit 80 [5, 19, 17, 18, 16, 15], emit 62 [11, 19], emit 253 [], emit 56 []]

/-- The shader when it is lowered. -/
def packedShaderLowered (references : List (List UInt32)) : List (List UInt32) :=
  [emit 17 [1], emit 14 [0, 1], emit 15 [4, 12, 0x6e69616d, 0, 22, 11], emit 16 [12, 7],
    emit 71 [11, 30, 0]] ++
  references ++
  [emit 71 [22, 30, 0], emit 19 [1], emit 33 [2, 1], emit 22 [3, 32], emit 23 [4, 3, 2],
    emit 23 [5, 3, 4], emit 32 [6, 1, 4], emit 32 [7, 1, 3], emit 32 [8, 3, 5], emit 43 [3, 16, 0],
    emit 59 [8, 11, 3], emit 23 [20, 3, 4], emit 32 [21, 1, 20], emit 59 [21, 22, 1],
    emit 54 [1, 12, 0, 2], emit 248 [13], emit 61 [20, 23, 22], emit 79 [4, 14, 23, 23, 0, 1],
    emit 61 [20, 24, 22], emit 81 [3, 15, 24, 3], emit 81 [3, 17, 14, 0], emit 81 [3, 18, 14, 1],
    emit 80 [5, 19, 17, 18, 16, 15], emit 62 [11, 19], emit 253 [], emit 56 []]

/-- The words of a module. -/
def packedWords (bound : UInt32) (code : List (List UInt32)) : List UInt32 :=
  [0x07230203, 0x00010000, 0, bound, 0] ++ code.flatten

instance (code : List (List UInt32)) (id : UInt32) : Decidable (IsVariable code id) :=
  inferInstanceAs (Decidable (∃ v ∈ code, opcode v = 59 ∧ 4 ≤ v.length ∧ v.getD 2 0 = id))

theorem packedShader_lowers :
    Lowers shaderGrammar (packedWords 20 (packedShader [])) (packedShader [])
      (packedWords 25 (packedShaderLowered [])) ↔ Lowerable shaderGrammar (packedShader []) :=
  lowers_iff ⟨by decide +kernel, .of_all (by decide +kernel) (by decide +kernel), by decide +kernel,
    by decide +kernel, by decide +kernel, by decide +kernel, by decide +kernel⟩ (by decide +kernel)

/-- The name of a semantic (`OpDecorateString`) stays with the id of an input that is removed. -/
theorem packedShader_dangling :
    WellFormed shaderGrammar (packedWords 20 (packedShader [emit 5632 [9, 5635, 0x30]]))
        (packedShader [emit 5632 [9, 5635, 0x30]]) ∧
      lower (packedWords 20 (packedShader [emit 5632 [9, 5635, 0x30]])) =
        .ok (packedWords 25 (packedShaderLowered [emit 5632 [9, 5635, 0x30]])) ∧
      ¬ Lowers shaderGrammar (packedWords 20 (packedShader [emit 5632 [9, 5635, 0x30]]))
        (packedShader [emit 5632 [9, 5635, 0x30]])
        (packedWords 25 (packedShaderLowered [emit 5632 [9, 5635, 0x30]])) := by
  refine ⟨⟨by decide +kernel, .of_all (by decide +kernel) (by decide +kernel), by decide +kernel,
    by decide +kernel, by decide +kernel, by decide +kernel, by decide +kernel⟩,
    by decide +kernel, ?_⟩
  rintro ⟨code', packs, pieces, lowered⟩
  have parsed : instructions (packedWords 25 (packedShaderLowered [emit 5632 [9, 5635, 0x30]])) =
    .ok (packedShaderLowered [emit 5632 [9, 5635, 0x30]]) := by decide +kernel
  obtain rfl := Except.ok.inj (parsed.symm.trans lowered.framed)
  have listed : emit 5632 [9, 5635, 0x30] ∈ packedShaderLowered [emit 5632 [9, 5635, 0x30]] := by
    decide +kernel
  refine lowered.survivors _ listed 9 (by decide +kernel) ⟨0, ⟨?_, ?_⟩, .inr ⟨10, by decide, ?_, ?_⟩⟩
  · exact ⟨emit 59 [6, 9, 1], by decide +kernel⟩
  · exact ⟨emit 71 [9, 30, 0], by decide +kernel⟩
  · exact ⟨emit 59 [7, 10, 1], by decide +kernel⟩
  · exact ⟨emit 71 [10, 30, 0], by decide +kernel⟩

end Sgfx.Vulkan.StageInputs
