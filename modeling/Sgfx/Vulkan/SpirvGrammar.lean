import Mathlib.Data.List.Perm.Basic
import Sgfx.Library.Bytes
import Sgfx.Library.Transducers
import Sgfx.Vulkan.Spirv

/-!
# The ids of SPIR-V instructions

Which words of an instruction are ids is a matter of the SPIR-V grammar.  It is a parameter here,
with its rules for the instructions that passes write.

## Main Definitions

* `Dialect` — the id that an instruction defines, its type, and the ids that it uses
* `Dialect.Numbered` — no id is defined twice, and all are below the bound of the header
* `Patch` — what a pass writes for an instruction

## Main Results

* `Dialect.Numbered.eq_of_result` — an id has one definition
* `Dialect.Numbered.of_supplied` — a pass that takes new ids from the bound on
-/

namespace Sgfx.Vulkan.Spirv

/-! ## Words of instructions -/

/-- Four words are there. -/
theorem exists_words {i : List UInt32} (long : 4 ≤ i.length) :
    ∃ first a b c rest, i = first :: a :: b :: c :: rest := by
  match i, long with
  | first :: a :: b :: c :: rest, _ => exact ⟨first, a, b, c, rest, rfl⟩

/-- Four words, as they are written. -/
theorem eq_emit_of_length {i : List UInt32} (framed : Framed i) (length : i.length = 4) :
    i = emit (opcode i) [i.getD 1 0, i.getD 2 0, i.getD 3 0] := by
  have operands : i.drop 1 = [i.getD 1 0, i.getD 2 0, i.getD 3 0] := by
    match i, length with
    | [first, a, b, c], _ => rfl
  rw [← operands, emit_opcode framed]

theorem opcode_emit_three {op a b c : UInt32} (small : op < 65536) :
    opcode (emit op [a, b, c]) = op :=
  opcode_emit small (show 3 + 1 < 65536 by decide)

/-! ## Dialect -/

/-- A word of a string holds its end. -/
def endsString (word : UInt32) : Bool := (Bytes.toLeBytes 4 word.toNat).contains 0

/-- The words after a string. -/
def afterString : List UInt32 → List UInt32
  | [] => []
  | word :: rest => if endsString word then rest else afterString rest

/-- A string that ends does so in what follows it, too. -/
theorem afterString_append {words rest : List UInt32} (ends : words.any endsString = true) :
    afterString (words ++ rest) = afterString words ++ rest := by
  induction words with
  | nil => cases ends
  | cons word later ih =>
    rw [List.cons_append, afterString, afterString]
    by_cases last : endsString word = true
    · rw [if_pos last, if_pos last]
    · rw [if_neg last, if_neg last]
      rw [List.any_cons, Bool.or_eq_true] at ends
      exact ih (ends.resolve_left last)

/-- The opcodes of values, whose first two operands are their type and their id. -/
def valueOpcodes : List UInt32 :=
  [43, 44, 46, 54, 55, 57, 59, 61, 65, 66, 79, 80, 81, 83, 95, 98, 100, 110, 124, 194, 195, 196, 199]

/-- They are no types. -/
theorem valueOpcodes_range : ∀ op ∈ valueOpcodes, 38 < op.toNat ∧ op < 65536 := by
  simp [valueOpcodes]

/-- The ids among the operands of an instruction, which is given by its opcode. -/
structure Dialect where
  /-- The id that is defined. -/
  result : UInt32 → List UInt32 → Option UInt32
  /-- Its type. -/
  resultType : UInt32 → List UInt32 → Option UInt32
  /-- All other ids. -/
  uses : UInt32 → List UInt32 → List UInt32
  /-- The ids among memory operands. -/
  memory : List UInt32 → List UInt32
  uses_subset : ∀ op operands, uses op operands ⊆ operands
  resultType_mem : ∀ op operands type, resultType op operands = some type → type ∈ uses op operands
  value : ∀ op ∈ valueOpcodes, ∀ type id rest,
    result op (type :: id :: rest) = some id ∧ resultType op (type :: id :: rest) = some type
  type : ∀ op, 19 ≤ op → op ≤ 38 → ∀ id rest,
    result op (id :: rest) = some id ∧ resultType op (id :: rest) = none
  /-- `OpName`, `OpDecorate` and `OpMemberDecorate`. -/
  annotation : ∀ op ∈ [5, 71, 72], ∀ target rest,
    result op (target :: rest) = none ∧ uses op (target :: rest) = [target]
  entryPoint : ∀ model function rest, result 15 (model :: function :: rest) = none ∧
    uses 15 (model :: function :: rest) = function :: afterString rest
  /-- `OpTypeInt` and `OpTypeFloat`. -/
  number : ∀ op ∈ [21, 22], ∀ operands, uses op operands = []
  /-- `OpTypeVector`, `OpTypeImage`, `OpTypeSampledImage` and `OpTypeRuntimeArray`. -/
  wrapper : ∀ op ∈ [23, 25, 27, 29], ∀ id inner rest, uses op (id :: inner :: rest) = [inner]
  array : ∀ id element length rest, uses 28 (id :: element :: length :: rest) = [element, length]
  struct : ∀ id fields, uses 30 (id :: fields) = fields
  pointer : ∀ id storage type rest, uses 32 (id :: storage :: type :: rest) = [type]
  constant : ∀ type id literals, uses 43 (type :: id :: literals) = [type]
  /-- `OpVariable`. -/
  declaration : ∀ type id storage init, uses 59 (type :: id :: storage :: init) = type :: init
  load : ∀ type id pointer access,
    uses 61 (type :: id :: pointer :: access) = type :: pointer :: memory access
  /-- `OpCompositeExtract`, `OpCopyObject`, `OpImage` and conversions. -/
  oneOperand : ∀ op ∈ [81, 83, 100, 110, 124], ∀ type id a rest,
    uses op (type :: id :: a :: rest) = [type, a]
  /-- `OpVectorShuffle`, shifts and `OpBitwiseAnd`. -/
  twoOperands : ∀ op ∈ [79, 194, 195, 196, 199], ∀ type id a b rest,
    uses op (type :: id :: a :: b :: rest) = [type, a, b]
  /-- Access chains and `OpCompositeConstruct`. -/
  allOperands : ∀ op ∈ [65, 66, 80], ∀ type id operands,
    uses op (type :: id :: operands) = type :: operands
  /-- `OpImageFetch` from a level. -/
  fetchLevel : ∀ type id image coordinate level,
    uses 95 [type, id, image, coordinate, 2, level] = [type, image, coordinate, level]

namespace Dialect

variable (g : Dialect)

/-- The id that an instruction defines. -/
def resultOf (i : List UInt32) : Option UInt32 := g.result (opcode i) (i.drop 1)

/-- The type of the id that an instruction defines. -/
def typeOf (i : List UInt32) : Option UInt32 := g.resultType (opcode i) (i.drop 1)

/-- The ids that an instruction uses. -/
def usesOf (i : List UInt32) : List UInt32 := g.uses (opcode i) (i.drop 1)

/-- The ids of an instruction. -/
def mentions (i : List UInt32) : List UInt32 := (g.resultOf i).toList ++ g.usesOf i

/-- The ids that are defined. -/
def results (code : List (List UInt32)) : List UInt32 :=
  code.flatMap fun i => (g.resultOf i).toList

/-- Every id is defined at most once, and all ids are below the bound. -/
structure Numbered (bound : UInt32) (code : List (List UInt32)) : Prop where
  unique : (g.results code).Nodup
  bounded : ∀ i ∈ code, ∀ id ∈ g.mentions i, id < bound

variable {g : Dialect} {i j : List UInt32} {id bound : UInt32} {code : List (List UInt32)}

theorem mem_results : id ∈ g.results code ↔ ∃ i ∈ code, g.resultOf i = some id := by
  rw [results, List.mem_flatMap]
  exact exists_congr fun i => and_congr_right fun _ => Option.mem_toList

theorem mem_mentions : id ∈ g.mentions i ↔ g.resultOf i = some id ∨ id ∈ g.usesOf i := by
  rw [mentions, List.mem_append, Option.mem_toList]

theorem mem_results_of_mem (member : i ∈ code) (defines : g.resultOf i = some id) :
    id ∈ g.results code := mem_results.mpr ⟨i, member, defines⟩

theorem results_singleton : g.results [i] = (g.resultOf i).toList := List.flatMap_singleton ..

theorem nodup_results_singleton : (g.results [i]).Nodup := by
  rw [results_singleton]
  cases g.resultOf i with
  | none => exact List.nodup_nil
  | some id => exact List.pairwise_singleton _ _

theorem results_pair : g.results [i, j] = (g.resultOf i).toList ++ (g.resultOf j).toList := by
  rw [results, List.flatMap_cons, List.flatMap_singleton]

theorem typeOf_mem {type : UInt32} (h : g.typeOf i = some type) : type ∈ g.usesOf i :=
  g.resultType_mem _ _ _ h

theorem resultOf_emit {op : UInt32} {operands : List UInt32} (small : op < 65536)
    (short : operands.length + 1 < 65536) : g.resultOf (emit op operands) = g.result op operands := by
  rw [resultOf, opcode_emit small short]
  rfl

theorem usesOf_emit {op : UInt32} {operands : List UInt32} (small : op < 65536)
    (short : operands.length + 1 < 65536) : g.usesOf (emit op operands) = g.uses op operands := by
  rw [usesOf, opcode_emit small short]
  rfl

/-- The result and the type of a value. -/
theorem result_value (op : opcode i ∈ valueOpcodes) (long : 3 ≤ i.length) :
    g.resultOf i = some (i.getD 2 0) ∧ g.typeOf i = some (i.getD 1 0) := by
  match i, op, long with
  | first :: type :: id :: rest, op, _ => exact g.value _ op type id rest

/-- The result of a type. -/
theorem result_type (low : 19 ≤ opcode i) (high : opcode i ≤ 38) (long : 2 ≤ i.length) :
    g.resultOf i = some (i.getD 1 0) ∧ g.typeOf i = none := by
  match i, low, high, long with
  | first :: id :: rest, low, high, _ => exact g.type _ low high id rest

theorem uses_load (op : opcode i = 61) (long : 4 ≤ i.length) :
    g.usesOf i = i.getD 1 0 :: i.getD 3 0 :: g.memory (i.drop 4) := by
  obtain ⟨first, type, id, pointer, access, rfl⟩ := exists_words long
  rw [usesOf, op]
  exact g.load type id pointer access

theorem uses_declaration (op : opcode i = 59) (long : 4 ≤ i.length) :
    g.usesOf i = i.getD 1 0 :: i.drop 4 := by
  obtain ⟨first, type, id, storage, init, rfl⟩ := exists_words long
  rw [usesOf, op]
  exact g.declaration type id storage init

/-- The result of a value that is written. -/
theorem resultOf_emit_value {op type id : UInt32} {rest : List UInt32} (value : op ∈ valueOpcodes)
    (short : rest.length + 3 < 65536) : g.resultOf (emit op (type :: id :: rest)) = some id := by
  have small := (valueOpcodes_range op value).2
  have short : (type :: id :: rest).length + 1 < 65536 := short
  rw [resultOf_emit small short]
  exact (g.value op value type id rest).1

/-- The ids of a value that is written. -/
theorem ids_emit_value (op type id : UInt32) (rest : List UInt32) (value : op ∈ valueOpcodes)
    (short : rest.length + 3 < 65536) :
    g.resultOf (emit op (type :: id :: rest)) = some id ∧
      g.typeOf (emit op (type :: id :: rest)) = some type ∧
      g.usesOf (emit op (type :: id :: rest)) = g.uses op (type :: id :: rest) := by
  have small := (valueOpcodes_range op value).2
  have short : (type :: id :: rest).length + 1 < 65536 := short
  have typed : g.typeOf (emit op (type :: id :: rest)) = g.resultType op (type :: id :: rest) := by
    rw [typeOf, opcode_emit small short]
    rfl
  rw [resultOf_emit small short, usesOf_emit small short, typed]
  exact ⟨(g.value op value type id rest).1, (g.value op value type id rest).2, rfl⟩

/-- A load without memory operands has no ids of scopes. -/
theorem memory_nil : g.memory [] = [] := by
  refine List.eq_nil_iff_forall_not_mem.mpr fun id member => ?_
  have inside : ∀ word : UInt32, id = word := by
    intro word
    have subset := g.uses_subset 61 [word, word, word]
    rw [g.load] at subset
    have listed := subset (List.mem_cons_of_mem _ (List.mem_cons_of_mem _ member))
    simpa using listed
  exact absurd ((inside 0).symm.trans (inside 1)) (by decide)

/-- The result of a type that is written. -/
theorem resultOf_emit_type {op id : UInt32} {rest : List UInt32} (low : 19 ≤ op) (high : op ≤ 38)
    (short : rest.length + 2 < 65536) : g.resultOf (emit op (id :: rest)) = some id := by
  have small : op < 65536 := by
    rw [UInt32.lt_iff_toNat_lt]
    have high := UInt32.le_iff_toNat_le.mp high
    exact Nat.lt_of_le_of_lt high (by decide)
  have short : (id :: rest).length + 1 < 65536 := short
  rw [resultOf_emit small short]
  exact (g.type op low high id rest).1

theorem usesOf_emit_three {op a b c : UInt32} (small : op < 65536) :
    g.usesOf (emit op [a, b, c]) = g.uses op [a, b, c] :=
  usesOf_emit small (show 3 + 1 < 65536 by decide)

theorem Numbered.of_all (unique : (g.results code).Nodup)
    (bounded : (code.all fun i => (g.mentions i).all fun id => decide (id < bound)) = true) :
    g.Numbered bound code := by
  refine ⟨unique, fun i member id mention => ?_⟩
  rw [List.all_eq_true] at bounded
  exact of_decide_eq_true (List.all_eq_true.mp (bounded i member) id mention)

/-- An id has one definition. -/
theorem Numbered.eq_of_result (numbered : g.Numbered bound code) (hi : i ∈ code) (hj : j ∈ code)
    (defines : g.resultOf i = some id) (again : g.resultOf j = some id) : i = j := by
  have unique := numbered.unique
  induction code with
  | nil => cases hi
  | cons first rest ih =>
    rw [results, List.flatMap_cons, List.nodup_append] at unique
    obtain ⟨_, others, apart⟩ := unique
    have bounded : ∀ i ∈ rest, ∀ id ∈ g.mentions i, id < bound :=
      fun i member => numbered.bounded i (List.mem_cons_of_mem _ member)
    rcases List.mem_cons.mp hi with rfl | hi
    · rcases List.mem_cons.mp hj with rfl | hj
      · rfl
      · exact absurd rfl (apart id (Option.mem_toList.mpr defines) id
          (mem_results_of_mem hj again))
    · rcases List.mem_cons.mp hj with rfl | hj
      · have defined : id ∈ g.results rest := mem_results_of_mem (by assumption) defines
        exact absurd rfl (apart id (Option.mem_toList.mpr again) id defined)
      · exact ih ⟨others, bounded⟩ hi hj others

theorem Numbered.result_lt (numbered : g.Numbered bound code) (member : i ∈ code)
    (defines : g.resultOf i = some id) : id < bound :=
  numbered.bounded i member id (mem_mentions.mpr (.inl defines))

theorem Numbered.use_lt (numbered : g.Numbered bound code) (member : i ∈ code)
    (h : id ∈ g.usesOf i) : id < bound :=
  numbered.bounded i member id (mem_mentions.mpr (.inr h))

end Dialect

/-! ## Pieces -/

/-- What a pass writes for an instruction: a section that it inserts here, and what replaces the
instruction. -/
structure Patch where
  inserted : List (List UInt32)
  body : List (List UInt32)

/-- The instructions of a piece. -/
def Patch.all (piece : Patch) : List (List UInt32) := piece.inserted ++ piece.body

/-- Inserted sections and replaced instructions. -/
theorem perm_pieces (pieces : List Patch) :
    (pieces.flatMap Patch.inserted ++ pieces.flatMap Patch.body).Perm (pieces.flatMap Patch.all) :=
  List.flatMap_append_perm pieces Patch.inserted Patch.body

theorem mem_pieces {pieces : List Patch} {i : List UInt32} :
    i ∈ pieces.flatMap Patch.all ↔
      i ∈ pieces.flatMap Patch.inserted ∨ i ∈ pieces.flatMap Patch.body := by
  rw [← (perm_pieces pieces).mem_iff, List.mem_append]

/-- What the instructions of a pass define: what its sections define, and, each with the names that
it may define or new ones, what replaces the instructions. -/
theorem Dialect.Numbered.of_supplied {g : Dialect} {bound : UInt32} {pieces : List Patch}
    {code : List (List UInt32)} {names : List UInt32 → List UInt32} {first last : ℕ}
    (supplied : Supplied UInt32.toNat names (fun piece : Patch => g.results piece.body)
      first code pieces last)
    (distinct : (g.results (pieces.flatMap Patch.inserted) ++ code.flatMap names).Nodup)
    (old : ∀ id ∈ g.results (pieces.flatMap Patch.inserted) ++ code.flatMap names,
      id.toNat < first)
    (bounded : ∀ i ∈ pieces.flatMap Patch.all, ∀ id ∈ g.mentions i, id < bound) :
    g.Numbered bound (pieces.flatMap Patch.all) := by
  refine ⟨?_, bounded⟩
  rw [List.nodup_append] at distinct
  obtain ⟨sections, names, apart⟩ := distinct
  have bodies : (pieces.flatMap fun piece => g.results piece.body).Nodup :=
    supplied.nodup names fun id member => old id (List.mem_append_right _ member)
  have flat : g.results (pieces.flatMap Patch.body) =
      pieces.flatMap fun piece => g.results piece.body := List.flatMap_assoc
  have whole : (g.results (pieces.flatMap Patch.inserted ++ pieces.flatMap Patch.body)).Nodup := by
    rw [results, List.flatMap_append, ← results, ← results, flat, List.nodup_append]
    refine ⟨sections, bodies, ?_⟩
    rintro id inserted id' body rfl
    rcases supplied.mem id body with name | ⟨new, _⟩
    · exact apart id inserted id name rfl
    · exact absurd (old id (List.mem_append_left _ inserted)) (Nat.not_lt.mpr new)
  exact ((perm_pieces pieces).flatMap_right _).nodup whole

/-! ## Instructions of shaders -/

/-- The scopes of memory operands follow the mask and the alignment. -/
def shaderMemory : List UInt32 → List UInt32
  | [] => []
  | mask :: rest => if mask &&& 2 = 0 then rest else rest.drop 1

/-- The ids that an instruction uses. -/
def shaderUses (op : UInt32) : List UInt32 → List UInt32
  | [] => []
  | a :: rest =>
    if op ∈ [5, 16, 71, 72, 249, 254, 5632] then [a]
    else if op = 15 then rest.take 1 ++ afterString (rest.drop 1)
    else if op ∈ [23, 25, 27, 29] then rest.take 1
    else if op = 28 then rest.take 2
    else if op ∈ [30, 33] then rest
    else if op = 32 then (rest.drop 1).take 1
    else if op ∈ [43, 46, 55] then [a]
    else if op ∈ [54, 59] then a :: rest.drop 2
    else if op = 61 then a :: ((rest.drop 1).take 1 ++ shaderMemory (rest.drop 2))
    else if op = 62 then a :: (rest.take 1 ++ shaderMemory (rest.drop 1))
    else if op ∈ [81, 83, 100, 110, 124] then a :: (rest.drop 1).take 1
    else if op ∈ [79, 194, 195, 196, 199] then a :: (rest.drop 1).take 2
    else if op ∈ [44, 57, 65, 66, 80] then a :: rest.drop 1
    else if op ∈ [95, 98] then a :: ((rest.drop 1).take 2 ++ rest.drop 4)
    else []

/-- The id that an instruction defines. -/
def shaderResult (op : UInt32) (operands : List UInt32) : Option UInt32 :=
  if op ∈ valueOpcodes then operands[1]?
  else if (19 ≤ op ∧ op ≤ 38) ∨ op = 248 then operands[0]?
  else none

/-- Its type. -/
def shaderType (op : UInt32) (operands : List UInt32) : Option UInt32 :=
  if op ∈ valueOpcodes then operands[0]? else none

theorem afterString_subset (words : List UInt32) : afterString words ⊆ words := by
  induction words with
  | nil => exact List.Subset.refl _
  | cons word rest ih =>
    unfold afterString
    split
    · exact List.subset_cons_self _ _
    · exact List.subset_cons_of_subset _ ih

theorem shaderMemory_subset (words : List UInt32) : shaderMemory words ⊆ words := by
  cases words with
  | nil => exact List.Subset.refl _
  | cons mask rest =>
    rw [shaderMemory]
    split
    · exact List.subset_cons_self _ _
    · exact List.subset_cons_of_subset _ (List.drop_subset _ _)

theorem shaderUses_subset (op : UInt32) (operands : List UInt32) :
    shaderUses op operands ⊆ operands := by
  cases operands with
  | nil => exact List.Subset.refl _
  | cons a rest =>
    have taken : ∀ n k, (rest.drop n).take k ⊆ rest := fun n k =>
      List.Subset.trans (List.take_subset _ _) (List.drop_subset _ _)
    have access : ∀ n, shaderMemory (rest.drop n) ⊆ rest := fun n =>
      List.Subset.trans (shaderMemory_subset _) (List.drop_subset _ _)
    have later : ∀ {part : List UInt32}, part ⊆ rest → part ⊆ a :: rest :=
      List.subset_cons_of_subset a
    have first : ∀ {part : List UInt32}, part ⊆ rest → a :: part ⊆ a :: rest :=
      List.cons_subset_cons a
    have alone : [a] ⊆ a :: rest := first (List.nil_subset _)
    have pick : ∀ {p : Prop} [Decidable p] {x y : List UInt32}, x ⊆ a :: rest → y ⊆ a :: rest →
        (if p then x else y) ⊆ a :: rest := by
      intro p _ x y hx hy
      split
      · exact hx
      · exact hy
    rw [shaderUses]
    refine pick alone (pick (later ?_) (pick (later ?_) (pick (later ?_) (pick (later ?_)
      (pick (later ?_) (pick alone (pick (first ?_) (pick (first ?_) (pick (first ?_)
      (pick (first ?_) (pick (first ?_) (pick (first ?_) (pick (first ?_) ?_)))))))))))))
    · exact List.append_subset.mpr ⟨List.take_subset _ _,
        List.Subset.trans (afterString_subset _) (List.drop_subset _ _)⟩
    · exact List.take_subset _ _
    · exact List.take_subset _ _
    · exact List.Subset.refl _
    · exact taken _ _
    · exact List.drop_subset _ _
    · exact List.append_subset.mpr ⟨taken _ _, access _⟩
    · exact List.append_subset.mpr ⟨List.take_subset _ _, access _⟩
    · exact taken _ _
    · exact taken _ _
    · exact List.drop_subset _ _
    · exact List.append_subset.mpr ⟨taken _ _, List.drop_subset _ _⟩
    · exact List.nil_subset _

/-- The grammar of the instructions of small shaders. -/
def shaderGrammar : Dialect where
  result := shaderResult
  resultType := shaderType
  uses := shaderUses
  memory := shaderMemory
  uses_subset := shaderUses_subset
  resultType_mem op operands type h := by
    unfold shaderType at h
    split at h
    · rename_i value
      cases operands with
      | nil => cases h
      | cons a rest =>
        cases h
        have typed : ∀ op ∈ valueOpcodes, ∀ rest, type ∈ shaderUses op (type :: rest) := by
          simp only [valueOpcodes, List.forall_mem_cons, List.not_mem_nil, false_implies,
            implies_true, and_true]
          refine ⟨?_, ?_, ?_, ?_, ?_, ?_, ?_, ?_, ?_, ?_, ?_, ?_, ?_, ?_, ?_, ?_, ?_, ?_, ?_, ?_, ?_,
            ?_, ?_⟩ <;> exact fun rest => List.mem_cons_self
        exact typed op value rest
    · cases h
  value op value type id rest := ⟨if_pos value, if_pos value⟩
  type op low high id rest := by
    have other : op ∉ valueOpcodes := by
      have high : op.toNat ≤ 38 := UInt32.le_iff_toNat_le.mp high
      intro value
      have above := (valueOpcodes_range op value).1
      omega
    exact ⟨(if_neg other).trans (if_pos (.inl ⟨low, high⟩)), if_neg other⟩
  annotation := by
    simp only [List.forall_mem_cons, List.not_mem_nil, false_implies, implies_true, and_true]
    exact ⟨fun _ _ => ⟨rfl, rfl⟩, fun _ _ => ⟨rfl, rfl⟩, fun _ _ => ⟨rfl, rfl⟩⟩
  entryPoint _ _ _ := ⟨rfl, rfl⟩
  number := by
    simp only [List.forall_mem_cons, List.not_mem_nil, false_implies, implies_true, and_true]
    refine ⟨fun operands => ?_, fun operands => ?_⟩ <;> cases operands <;> rfl
  wrapper := by
    simp only [List.forall_mem_cons, List.not_mem_nil, false_implies, implies_true, and_true]
    exact ⟨fun _ _ _ => rfl, fun _ _ _ => rfl, fun _ _ _ => rfl, fun _ _ _ => rfl⟩
  array _ _ _ _ := rfl
  struct _ _ := rfl
  pointer _ _ _ _ := rfl
  constant _ _ _ := rfl
  declaration _ _ _ _ := rfl
  load _ _ _ _ := rfl
  oneOperand := by
    simp only [List.forall_mem_cons, List.not_mem_nil, false_implies, implies_true, and_true]
    exact ⟨fun _ _ _ _ => rfl, fun _ _ _ _ => rfl, fun _ _ _ _ => rfl, fun _ _ _ _ => rfl,
      fun _ _ _ _ => rfl⟩
  twoOperands := by
    simp only [List.forall_mem_cons, List.not_mem_nil, false_implies, implies_true, and_true]
    exact ⟨fun _ _ _ _ _ => rfl, fun _ _ _ _ _ => rfl, fun _ _ _ _ _ => rfl,
      fun _ _ _ _ _ => rfl, fun _ _ _ _ _ => rfl⟩
  allOperands := by
    simp only [List.forall_mem_cons, List.not_mem_nil, false_implies, implies_true, and_true]
    exact ⟨fun _ _ _ => rfl, fun _ _ _ => rfl, fun _ _ _ => rfl⟩
  fetchLevel _ _ _ _ _ := rfl

/-- The words of a list are tried, not all words. -/
instance (priority := high) decidableWords {p : UInt32 → Prop} [DecidablePred p] (words : List UInt32) :
    Decidable (∀ word ∈ words, p word) := List.decidableBAll p words

/-- The words of a module. -/
def moduleWords (bound : UInt32) (code : List (List UInt32)) : List UInt32 :=
  [0x07230203, 0x00010000, 0, bound, 0] ++ code.flatten

end Sgfx.Vulkan.Spirv
