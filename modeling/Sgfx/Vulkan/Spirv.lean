import Sgfx.Vulkan.Results

/-!
# SPIR-V words

A SPIR-V module is a header of five words and a stream of instructions.  The first word of an
instruction has its opcode in the low half and the number of its words in the high half.

## Main Definitions

* `opcode`, `emit`, `instructions`
* `Framed` — the first word of an instruction gives its length

## Main Results

* `instructions_append`, `framed_of_instructions` — reading inverts writing
-/

namespace Sgfx.Vulkan.Spirv

/-- The low half of the first word. -/
def opcode (i : List UInt32) : UInt32 := i.headD 0 &&& 65535

/-- `emit`: the words of an instruction. -/
def emit (opcode : UInt32) (operands : List UInt32) : List UInt32 :=
  (((UInt32.ofNat operands.length + 1) <<< 16) ||| opcode) :: operands

/-- The loop of `instructions`; every instruction takes at least one word, so there are no more
turns than words. -/
def splitInstructions : (turns : Nat) → List UInt32 → Except VkResult (List (List UInt32))
  | _, [] => .ok []
  | 0, _ :: _ => .error .errorFeatureNotPresent
  | turns + 1, word :: rest =>
    let count := (word >>> 16).toNat
    if count = 0 ∨ rest.length + 1 < count then .error .errorFeatureNotPresent
    else do
      let later ← splitInstructions turns ((word :: rest).drop count)
      pure ((word :: rest).take count :: later)

/-- `instructions`. -/
def instructions (words : List UInt32) : Except VkResult (List (List UInt32)) :=
  if words.length < 5 then .error .errorFeatureNotPresent
  else splitInstructions words.length (words.drop 5)

/-- The first word gives the length. -/
structure Framed (i : List UInt32) : Prop where
  count : (i.headD 0 >>> 16).toNat = i.length
  nonempty : 0 < i.length

/-! ## Reading and writing -/

theorem splitInstructions_flatten {code : List (List UInt32)} (framed : ∀ i ∈ code, Framed i)
    {turns : Nat} (enough : code.flatten.length ≤ turns) :
    splitInstructions turns code.flatten = .ok code := by
  induction code generalizing turns with
  | nil => cases turns <;> rfl
  | cons i rest ih =>
    have first := framed i List.mem_cons_self
    cases i with
    | nil => exact absurd first.nonempty (Nat.lt_irrefl 0)
    | cons word tail =>
      have count : (word >>> 16).toNat = (word :: tail).length := first.count
      cases turns with
      | zero => cases enough
      | succ turns =>
        have whole : (word :: tail ++ rest.flatten).length ≤ turns + 1 := enough
        rw [List.length_append, List.length_cons] at whole
        have later : splitInstructions turns rest.flatten = .ok rest :=
          ih (fun other member => framed other (List.mem_cons_of_mem _ member)) (by omega)
        have inside : ¬ ((word :: tail).length = 0 ∨
            (tail ++ rest.flatten).length + 1 < (word :: tail).length) := by
          rw [List.length_append, List.length_cons]
          omega
        rw [List.flatten_cons, List.cons_append, splitInstructions, count, if_neg inside,
          ← List.cons_append, List.drop_left, List.take_left, later]
        rfl

/-- Reading inverts writing. -/
theorem instructions_append {header : List UInt32} {code : List (List UInt32)}
    (length : header.length = 5) (framed : ∀ i ∈ code, Framed i) :
    instructions (header ++ code.flatten) = .ok code := by
  unfold instructions
  rw [if_neg (by rw [List.length_append]; omega), ← length, List.drop_left]
  exact splitInstructions_flatten framed (by rw [List.length_append]; omega)

/-- A module with another bound in its header. -/
theorem instructions_bound {words : List UInt32} {code : List (List UInt32)}
    (long : 5 ≤ words.length) (bound : UInt32) (framed : ∀ i ∈ code, Framed i) :
    let out := (words.take 5).set 3 bound ++ code.flatten
    instructions out = .ok code ∧ out.take 5 = (words.take 5).set 3 bound ∧
      out.getD 3 0 = bound ∧ out.getD 0 0 = words.getD 0 0 ∧ 5 ≤ out.length := by
  have length : ((words.take 5).set 3 bound).length = 5 := by
    rw [List.length_set, List.length_take_of_le long]
  refine ⟨instructions_append length framed, List.take_left' length, ?_, ?_, ?_⟩
  · match words, long with
    | a :: b :: c :: d :: e :: rest, _ => rfl
  · match words, long with
    | a :: b :: c :: d :: e :: rest, _ => rfl
  · rw [List.length_append, length]
    exact Nat.le_add_right _ _

theorem splitInstructions_ok {turns : Nat} {words : List UInt32} {code : List (List UInt32)}
    (h : splitInstructions turns words = .ok code) :
    words = code.flatten ∧ ∀ i ∈ code, Framed i := by
  induction turns generalizing words code with
  | zero =>
    cases words with
    | nil =>
      cases h
      exact ⟨rfl, fun i member => (List.not_mem_nil member).elim⟩
    | cons word rest => cases h
  | succ turns ih =>
    cases words with
    | nil =>
      cases h
      exact ⟨rfl, fun i member => (List.not_mem_nil member).elim⟩
    | cons word rest =>
      rw [splitInstructions] at h
      split at h
      · cases h
      · rename_i inside
        rw [except_bind_eq_ok] at h
        obtain ⟨later, hlater, h⟩ := h
        cases h
        obtain ⟨flat, framed⟩ := ih hlater
        refine ⟨?_, fun i member => ?_⟩
        · rw [List.flatten_cons, ← flat, List.take_append_drop]
        · rcases List.mem_cons.mp member with rfl | member
          · obtain ⟨count, hcount⟩ := Nat.exists_eq_succ_of_ne_zero fun zero => inside (.inl zero)
            refine ⟨?_, ?_⟩
            · rw [hcount, List.take_succ_cons, List.headD_cons, hcount, ← List.take_succ_cons,
                List.length_take, List.length_cons]
              omega
            · rw [List.length_take, List.length_cons]
              omega
          · exact framed i member

/-- A stream is its header and its instructions. -/
theorem framed_of_instructions {words : List UInt32} {code : List (List UInt32)}
    (h : instructions words = .ok code) :
    (words.take 5).length = 5 ∧ words = words.take 5 ++ code.flatten ∧ ∀ i ∈ code, Framed i := by
  unfold instructions at h
  split at h
  · cases h
  · rename_i long
    obtain ⟨flat, framed⟩ := splitInstructions_ok h
    refine ⟨List.length_take_of_le (Nat.le_of_not_lt long), ?_, framed⟩
    rw [← flat, List.take_append_drop]

/-! ## First words -/

/-- Words are read in one way only, even if some of what was written does not give its length. -/
theorem eq_of_flatten_eq {code code' : List (List UInt32)} (same : code.flatten = code'.flatten)
    (framed : ∀ i ∈ code', Framed i)
    (each : ∀ i ∈ code, i ≠ [] ∧ (Framed i ∨ (i.headD 0 >>> 16).toNat = 0)) : code = code' := by
  induction code generalizing code' with
  | nil =>
    cases code' with
    | nil => rfl
    | cons i' rest' =>
      have nonempty := (framed i' List.mem_cons_self).nonempty
      rw [List.flatten_nil, List.flatten_cons] at same
      rw [(List.append_eq_nil_iff.mp same.symm).1] at nonempty
      exact absurd nonempty (Nat.lt_irrefl 0)
  | cons i rest ih =>
    obtain ⟨nonempty, first⟩ := each i List.mem_cons_self
    cases code' with
    | nil =>
      rw [List.flatten_nil, List.flatten_cons] at same
      exact absurd (List.append_eq_nil_iff.mp same).1 nonempty
    | cons i' rest' =>
      have framed' := framed i' List.mem_cons_self
      rw [List.flatten_cons, List.flatten_cons] at same
      have heads : i.headD 0 = i'.headD 0 := by
        match i, nonempty, i', framed'.nonempty with
        | word :: later, _, word' :: later', _ =>
          rw [List.cons_append, List.cons_append] at same
          exact (List.cons.inj same).1
      have length : i.length = i'.length := by
        rw [← framed'.count, ← heads]
        rcases first with first | zero
        · exact first.count.symm
        · rw [heads, framed'.count] at zero
          exact absurd zero (Nat.ne_of_gt framed'.nonempty)
      obtain ⟨rfl, later⟩ := List.append_inj same length
      rw [ih later (fun j member => framed j (List.mem_cons_of_mem _ member))
        fun j member => each j (List.mem_cons_of_mem _ member)]

theorem Framed.length_lt {i : List UInt32} (framed : Framed i) : i.length < 65536 := by
  rw [← framed.count, UInt32.toNat_shiftRight]
  have bound := (i.headD 0).toNat_lt
  rw [show (16 : UInt32).toNat % 32 = 16 from rfl, Nat.shiftRight_eq_div_pow]
  omega

/-- Another operand leaves the first word. -/
theorem opcode_set {i : List UInt32} {k : Nat} (operand : 0 < k) (word : UInt32) :
    opcode (i.set k word) = opcode i := by
  cases i with
  | nil => rfl
  | cons first rest =>
    obtain ⟨k, rfl⟩ := Nat.exists_eq_succ_of_ne_zero (Nat.pos_iff_ne_zero.mp operand)
    rfl

theorem Framed.set {i : List UInt32} (framed : Framed i) {k : Nat} (operand : 0 < k)
    (word : UInt32) : Framed (i.set k word) := by
  cases i with
  | nil => exact framed
  | cons first rest =>
    obtain ⟨k, rfl⟩ := Nat.exists_eq_succ_of_ne_zero (Nat.pos_iff_ne_zero.mp operand)
    have count := framed.count
    rw [List.headD_cons, List.length_cons] at count
    refine ⟨?_, Nat.succ_pos _⟩
    rw [List.set_cons_succ, List.headD_cons, count, List.length_cons, List.length_set]

section Emit

variable {op : UInt32} {operands : List UInt32}

/-- The halves of a first word do not overlap. -/
theorem head_emit_toNat (small : op < 65536) (short : operands.length + 1 < 65536) :
    (((UInt32.ofNat operands.length + 1) <<< 16) ||| op).toNat =
      65536 * (operands.length + 1) + op.toNat := by
  have small : op.toNat < 2 ^ 16 := small
  have count : (UInt32.ofNat operands.length + 1).toNat = operands.length + 1 := by
    rw [UInt32.toNat_add, UInt32.toNat_ofNat_of_lt' (show _ < 2 ^ 32 by omega)]
    exact Nat.mod_eq_of_lt (by show operands.length + 1 < _; omega)
  have shifted : ((UInt32.ofNat operands.length + 1) <<< 16).toNat =
      (operands.length + 1) <<< 16 := by
    rw [UInt32.toNat_shiftLeft, count, show (16 : UInt32).toNat % 32 = 16 from rfl]
    rw [Nat.shiftLeft_eq]
    omega
  rw [UInt32.toNat_or, shifted, ← Nat.shiftLeft_add_eq_or_of_lt small, Nat.shiftLeft_eq]
  omega

theorem framed_emit (small : op < 65536) (short : operands.length + 1 < 65536) :
    Framed (emit op operands) := by
  have value := head_emit_toNat small short
  have small : op.toNat < 65536 := small
  refine ⟨?_, Nat.succ_pos _⟩
  rw [emit, List.headD_cons, UInt32.toNat_shiftRight, value, List.length_cons]
  rw [show (16 : UInt32).toNat % 32 = 16 from rfl, Nat.shiftRight_eq_div_pow]
  omega

theorem opcode_emit (small : op < 65536) (short : operands.length + 1 < 65536) :
    opcode (emit op operands) = op := by
  have value := head_emit_toNat small short
  have small : op.toNat < 65536 := small
  apply UInt32.toNat_inj.mp
  rw [opcode, emit, List.headD_cons, UInt32.toNat_and, value]
  rw [show (65535 : UInt32).toNat = 2 ^ 16 - 1 from rfl, Nat.and_two_pow_sub_one_eq_mod]
  omega

/-- An instruction is given by its opcode and its operands. -/
theorem emit_opcode {i : List UInt32} (framed : Framed i) : emit (opcode i) (i.drop 1) = i := by
  have short := framed.length_lt
  cases i with
  | nil => exact absurd framed.nonempty (Nat.lt_irrefl 0)
  | cons word operands =>
    have count : (word >>> 16).toNat = operands.length + 1 := framed.count
    have small : word &&& 65535 < 65536 := by
      rw [UInt32.lt_iff_toNat_lt, UInt32.toNat_and]
      exact Nat.lt_of_le_of_lt Nat.and_le_right (by decide)
    have value := head_emit_toNat small (show operands.length + 1 < 65536 from short)
    have low : (word &&& 65535).toNat = word.toNat % 65536 := by
      rw [UInt32.toNat_and, show (65535 : UInt32).toNat = 2 ^ 16 - 1 from rfl,
        Nat.and_two_pow_sub_one_eq_mod]
    rw [UInt32.toNat_shiftRight, show (16 : UInt32).toNat % 32 = 16 from rfl,
      Nat.shiftRight_eq_div_pow] at count
    have same : ((UInt32.ofNat operands.length + 1) <<< 16 ||| (word &&& 65535)) = word := by
      apply UInt32.toNat_inj.mp
      rw [value, low]
      omega
    exact congrArg (· :: operands) same

end Emit

end Sgfx.Vulkan.Spirv
