import Sgfx.Library.Fallible

/-!
# Generational slot pools

A pool hands out slots of a growable array.  A released slot joins an intrusive
free list threaded through the slots themselves and its generation advances, so
that an identity `(index, generation)` handed out before stops resolving and can
be told apart from every later occupant of the same slot.

## Main Definitions

* `SlotPool` — the slots and the head of the free list
* `SlotPool.define`, `SlotPool.release`, `SlotPool.resolve`
* `SlotPool.Wellformed` — the free list is acyclic and holds exactly the vacant
  slots
* `SlotPool.Evolves` — how a pool may change over time: an occupied slot keeps
  its descriptor or advances its generation

## Main Results

* `Wellformed.define`, `Wellformed.release` — both operations keep the pool
  well formed
* `Evolves.define`, `Evolves.release`, `Evolves.trans`
* `issued_of_define`, `not_issued_before_define` — an identity is handed out once
* `Retired.mono` — a retired identity stays retired
-/

namespace Sgfx

/-- One slot: its occupant, its generation, and its successor in the free list
while it is vacant. -/
structure Slot (α : Type) where
  descriptor : Option α
  generation : UInt64
  nextFree : Option Nat
deriving DecidableEq

/-- Slots and the head of the free list threaded through the vacant ones. -/
structure SlotPool (α : Type) where
  slots : List (Slot α)
  free : Option Nat
deriving DecidableEq

namespace SlotPool

variable {α ε : Type} {maximum : Nat} {p p' p'' : SlotPool α} {i : Nat} {g : UInt64} {d : α}

/-- The pool without slots. -/
def empty : SlotPool α := ⟨[], none⟩

/-- Occupy the head of the free list, or else a new slot.  An index out of range
at the head of the free list is an error here; `Wellformed` excludes it. -/
def define (maximum : Nat) (alloc : Bool) (full oom : ε) (d : α) :
    Fallible (SlotPool α) ε (Nat × UInt64) := fun p =>
  match p.free with
  | some index =>
      match p.slots[index]? with
      | some slot =>
          (.ok (index, slot.generation),
            { slots := p.slots.set index { slot with descriptor := some d, nextFree := none }
              free := slot.nextFree })
      | none => (.error full, p)
  | none =>
      if maximum ≤ p.slots.length then
        (.error full, p)
      else if alloc then
        (.ok (p.slots.length, 0), { p with slots := p.slots ++ [⟨some d, 0, none⟩] })
      else
        (.error oom, p)

/-- Vacate a slot and put it at the head of the free list, unless its generation
is exhausted. -/
def release (full : ε) (index : Nat) : Fallible (SlotPool α) ε Unit := fun p =>
  match p.slots[index]? with
  | some slot =>
      if slot.generation.toNat + 1 < 2 ^ 64 then
        (.ok (),
          { slots := p.slots.set index ⟨none, slot.generation + 1, p.free⟩
            free := some index })
      else
        (.error full, p)
  | none => (.error full, p)

/-- The occupant of a slot, if the generation is the current one. -/
def resolve (p : SlotPool α) (index : Nat) (generation : UInt64) : Option α :=
  (p.slots[index]?.filter (·.generation = generation)).bind Slot.descriptor

/-! ### Identities -/

/-- The identity was handed out: its slot has that generation and is occupied,
or has moved on. -/
def Issued (p : SlotPool α) (i : Nat) (g : UInt64) : Prop :=
  ∃ s, p.slots[i]? = some s ∧ (g < s.generation ∨ g = s.generation ∧ s.descriptor.isSome)

/-- The identity's slot has moved on to a later generation. -/
def Retired (p : SlotPool α) (i : Nat) (g : UInt64) : Prop :=
  ∃ s, p.slots[i]? = some s ∧ g < s.generation

/-- The slot is vacant. -/
def Vacant (p : SlotPool α) (i : Nat) : Prop :=
  ∃ s, p.slots[i]? = some s ∧ s.descriptor = none

theorem resolve_eq_some :
    p.resolve i g = some d ↔
      ∃ s, p.slots[i]? = some s ∧ s.generation = g ∧ s.descriptor = some d := by
  unfold resolve
  cases p.slots[i]? with
  | none => simp
  | some s => by_cases h : s.generation = g <;> simp [Option.filter, h]

theorem Retired.issued (h : p.Retired i g) : p.Issued i g := by
  obtain ⟨s, hs, hlt⟩ := h
  exact ⟨s, hs, .inl hlt⟩

theorem issued_of_resolve (h : p.resolve i g = some d) : p.Issued i g := by
  obtain ⟨s, hs, hg, hd⟩ := resolve_eq_some.mp h
  exact ⟨s, hs, .inr ⟨hg.symm, by simp [hd]⟩⟩

/-- A retired identity does not resolve. -/
theorem Retired.resolve_eq_none (h : p.Retired i g) : p.resolve i g = none := by
  obtain ⟨s, hs, hlt⟩ := h
  have moved : s.generation ≠ g := fun hg => UInt64.lt_irrefl g (hg ▸ hlt)
  simp [resolve, hs, Option.filter, moved]

/-! ### What the operations do -/

/-- A successful definition either reuses the head of the free list or appends a
slot of generation zero. -/
theorem define_eq_ok {alloc : Bool} {full oom : ε}
    (h : define maximum alloc full oom d p = (.ok (i, g), p')) :
    (∃ s, p.free = some i ∧ p.slots[i]? = some s ∧ g = s.generation ∧
      p' = ⟨p.slots.set i { s with descriptor := some d, nextFree := none }, s.nextFree⟩) ∨
    (p.free = none ∧ i = p.slots.length ∧ p.slots.length < maximum ∧ g = 0 ∧
      p' = { p with slots := p.slots ++ [⟨some d, 0, none⟩] }) := by
  unfold define at h
  split at h
  · rename_i index hfree
    split at h
    · rename_i slot hslot
      simp only [Prod.mk.injEq, Except.ok.injEq] at h
      obtain ⟨⟨rfl, rfl⟩, rfl⟩ := h
      exact .inl ⟨slot, hfree, hslot, rfl, rfl⟩
    · simp at h
  · rename_i hfree
    split at h
    · simp at h
    · rename_i room
      split at h
      · simp only [Prod.mk.injEq, Except.ok.injEq] at h
        obtain ⟨⟨rfl, rfl⟩, rfl⟩ := h
        exact .inr ⟨hfree, rfl, by omega, rfl, rfl⟩
      · simp at h

/-- A successful release vacates an existing slot and advances its
generation. -/
theorem release_eq_ok {full : ε} {u : Unit} (h : release full i p = (.ok u, p')) :
    ∃ s, p.slots[i]? = some s ∧ s.generation < s.generation + 1 ∧
      p' = ⟨p.slots.set i ⟨none, s.generation + 1, p.free⟩, some i⟩ := by
  unfold release at h
  split at h
  · rename_i slot hslot
    split at h
    · rename_i room
      simp only [Prod.mk.injEq] at h
      obtain ⟨_, rfl⟩ := h
      refine ⟨slot, hslot, ?_, rfl⟩
      rw [UInt64.lt_iff_toNat_lt, UInt64.toNat_add]
      simp only [UInt64.reduceToNat]
      omega
    · simp at h
  · simp at h

theorem define_atomic (alloc : Bool) (full oom : ε) (d : α) :
    Fallible.Atomic (define maximum alloc full oom d) := by
  refine ⟨fun {p p' e} h => ?_⟩
  unfold define at h
  split at h
  · split at h
    · simp at h
    · exact (congrArg Prod.snd h).symm
  · split at h
    · exact (congrArg Prod.snd h).symm
    · split at h
      · simp at h
      · exact (congrArg Prod.snd h).symm

theorem release_atomic (full : ε) (i : Nat) :
    Fallible.Atomic (release full i : Fallible (SlotPool α) ε Unit) := by
  refine ⟨fun {p p' e} h => ?_⟩
  unfold release at h
  split at h
  · split at h
    · simp at h
    · exact (congrArg Prod.snd h).symm
  · exact (congrArg Prod.snd h).symm

/-! ### Change over time -/

/-- Every slot stays, and either advances its generation or keeps it together
with its occupant. -/
def Evolves (p p' : SlotPool α) : Prop :=
  ∀ (i : Nat) (s : Slot α), p.slots[i]? = some s → ∃ s' : Slot α, p'.slots[i]? = some s' ∧
    (s.generation < s'.generation ∨
      s.generation = s'.generation ∧ ∀ d, s.descriptor = some d → s'.descriptor = some d)

theorem Evolves.refl (p : SlotPool α) : Evolves p p :=
  fun _ s hs => ⟨s, hs, .inr ⟨rfl, fun _ hd => hd⟩⟩

theorem Evolves.trans (first : Evolves p p') (second : Evolves p' p'') : Evolves p p'' := by
  intro i s hs
  obtain ⟨s', hs', hstep⟩ := first i s hs
  obtain ⟨s'', hs'', hstep'⟩ := second i s' hs'
  refine ⟨s'', hs'', ?_⟩
  rcases hstep with hlt | ⟨heq, hkeep⟩
  · rcases hstep' with hlt' | ⟨heq', _⟩
    · exact .inl (UInt64.lt_trans hlt hlt')
    · exact .inl (heq' ▸ hlt)
  · rcases hstep' with hlt' | ⟨heq', hkeep'⟩
    · exact .inl (heq ▸ hlt')
    · exact .inr ⟨heq.trans heq', fun d hd => hkeep' d (hkeep d hd)⟩

/-- Replacing one slot evolves the pool when that slot does. -/
theorem Evolves.set {s s' : Slot α} {free : Option Nat} (hs : p.slots[i]? = some s)
    (step : s.generation < s'.generation ∨
      s.generation = s'.generation ∧ ∀ d, s.descriptor = some d → s'.descriptor = some d) :
    Evolves p ⟨p.slots.set i s', free⟩ := by
  intro j t ht
  by_cases hij : i = j
  · subst hij
    rw [hs, Option.some.injEq] at ht
    subst ht
    have hlt : i < p.slots.length := (List.getElem?_eq_some_iff.mp hs).1
    exact ⟨s', by simp [hlt], step⟩
  · exact ⟨t, by simp [List.getElem?_set_ne hij, ht], .inr ⟨rfl, fun _ hd => hd⟩⟩

theorem Evolves.release {full : ε} {u : Unit} (h : release full i p = (.ok u, p')) :
    Evolves p p' := by
  obtain ⟨s, hs, advances, rfl⟩ := release_eq_ok h
  exact Evolves.set hs (.inl advances)

/-- An identity that resolves keeps its descriptor or is retired. -/
theorem Evolves.resolve (h : Evolves p p') (live : p.resolve i g = some d) :
    p'.resolve i g = some d ∨ p'.Retired i g := by
  obtain ⟨s, hs, hg, hd⟩ := resolve_eq_some.mp live
  obtain ⟨s', hs', hlt | ⟨heq, hkeep⟩⟩ := h i s hs
  · exact .inr ⟨s', hs', hg ▸ hlt⟩
  · exact .inl (resolve_eq_some.mpr ⟨s', hs', heq ▸ hg, hkeep d hd⟩)

/-- A retired identity stays retired. -/
theorem Retired.mono (h : Evolves p p') (retired : p.Retired i g) : p'.Retired i g := by
  obtain ⟨s, hs, hlt⟩ := retired
  obtain ⟨s', hs', hlt' | ⟨heq, _⟩⟩ := h i s hs
  · exact ⟨s', hs', UInt64.lt_trans hlt hlt'⟩
  · exact ⟨s', hs', heq ▸ hlt⟩

/-- An issued identity stays issued. -/
theorem Issued.mono (h : Evolves p p') (issued : p.Issued i g) : p'.Issued i g := by
  obtain ⟨s, hs, hlt | ⟨rfl, hsome⟩⟩ := issued
  · exact (Retired.mono h ⟨s, hs, hlt⟩).issued
  · obtain ⟨d, hd⟩ := Option.isSome_iff_exists.mp hsome
    rcases Evolves.resolve h (resolve_eq_some.mpr ⟨s, hs, rfl, hd⟩) with live | retired
    · exact issued_of_resolve live
    · exact retired.issued

/-- An identity that was issued and resolves later had that descriptor all
along. -/
theorem resolve_of_evolves {d' : α} (h : Evolves p p') (before : p.resolve i g = some d)
    (after : p'.resolve i g = some d') : d' = d := by
  rcases Evolves.resolve h before with live | retired
  · exact Option.some.inj (after.symm.trans live)
  · simp [retired.resolve_eq_none] at after

/-! ### The free list -/

/-- The free list from `head` visits the slots of `chain` in order. -/
inductive FreeChain (slots : List (Slot α)) : Option Nat → List Nat → Prop
  | nil : FreeChain slots none []
  | cons {i : Nat} {s : Slot α} {chain : List Nat} (slot : slots[i]? = some s)
      (rest : FreeChain slots s.nextFree chain) : FreeChain slots (some i) (i :: chain)

/-- The pool is within its bound, and its free list is acyclic and holds exactly
the vacant slots. -/
structure Wellformed (maximum : Nat) (p : SlotPool α) : Prop where
  bounded : p.slots.length ≤ maximum
  freeList : ∃ chain, FreeChain p.slots p.free chain ∧ chain.Nodup ∧
    ∀ i, i ∈ chain ↔ p.Vacant i

/-- Writing a slot off the chain leaves the chain in place. -/
theorem FreeChain.set {slots : List (Slot α)} {head : Option Nat} {chain : List Nat}
    {s : Slot α} (h : FreeChain slots head chain) (off : i ∉ chain) :
    FreeChain (slots.set i s) head chain := by
  induction h with
  | nil => exact .nil
  | cons slot rest ih =>
      rw [List.mem_cons, not_or] at off
      exact .cons (by rw [List.getElem?_set_ne off.1]; exact slot) (ih off.2)

/-- Appending a slot leaves the chain in place. -/
theorem FreeChain.append {slots tail : List (Slot α)} {head : Option Nat} {chain : List Nat}
    (h : FreeChain slots head chain) : FreeChain (slots ++ tail) head chain := by
  induction h with
  | nil => exact .nil
  | cons slot rest ih =>
      have inside := (List.getElem?_eq_some_iff.mp slot).1
      exact .cons (by rw [List.getElem?_append_left inside]; exact slot) ih

theorem vacant_set {s : Slot α} {free : Option Nat} (inside : i < p.slots.length) (j : Nat) :
    (⟨p.slots.set i s, free⟩ : SlotPool α).Vacant j ↔
      if i = j then s.descriptor = none else p.Vacant j := by
  unfold Vacant
  split
  · rename_i hij
    subst hij
    simp [inside]
  · rename_i hij
    simp [List.getElem?_set_ne hij]

theorem wellformed_empty : Wellformed maximum (empty : SlotPool α) where
  bounded := Nat.zero_le _
  freeList := ⟨[], .nil, List.nodup_nil, fun i => by simp [Vacant, empty]⟩

theorem Wellformed.define {alloc : Bool} {full oom : ε} (wf : Wellformed maximum p)
    (h : define maximum alloc full oom d p = (.ok (i, g), p')) : Wellformed maximum p' := by
  obtain ⟨chain, hchain, nodup, members⟩ := wf.freeList
  rcases define_eq_ok h with ⟨s, hfree, hs, rfl, rfl⟩ | ⟨hfree, rfl, room, rfl, rfl⟩
  · -- The head leaves the chain and becomes occupied.
    rw [hfree] at hchain
    cases hchain with
    | @cons _ s' rest slot hrest =>
        obtain rfl : s' = s := Option.some.inj (slot.symm.trans hs)
        obtain ⟨off, nodup'⟩ := List.nodup_cons.mp nodup
        have inside := (List.getElem?_eq_some_iff.mp hs).1
        refine ⟨by simpa using wf.bounded, rest, hrest.set off, nodup', fun j => ?_⟩
        rw [vacant_set inside]
        split
        · rename_i hij
          subst hij
          simpa using off
        · rename_i hij
          rw [← members j, List.mem_cons]
          exact ⟨.inr, fun hj => hj.resolve_left (Ne.symm hij)⟩
  · refine ⟨by simp only [List.length_append, List.length_singleton]; omega, chain, hchain.append, nodup, fun j => ?_⟩
    rw [members j]
    unfold Vacant
    rcases Nat.lt_trichotomy j p.slots.length with hlt | rfl | hgt
    · simp [List.getElem?_append_left hlt]
    · simp
    · have past : (p.slots ++ [(⟨some d, 0, none⟩ : Slot α)]).length ≤ j := by
        simp only [List.length_append, List.length_singleton]; omega
      simp [List.getElem?_eq_none_iff.mpr (Nat.le_of_lt hgt),
        List.getElem?_eq_none_iff.mpr past]

theorem Wellformed.release {full : ε} {u : Unit} (wf : Wellformed maximum p)
    (occupied : ∃ g d, p.resolve i g = some d)
    (h : release full i p = (.ok u, p')) : Wellformed maximum p' := by
  obtain ⟨chain, hchain, nodup, members⟩ := wf.freeList
  obtain ⟨s, hs, _, rfl⟩ := release_eq_ok h
  have inside := (List.getElem?_eq_some_iff.mp hs).1
  have off : i ∉ chain := by
    rw [members i]
    rintro ⟨t, ht, hvacant⟩
    obtain ⟨g, d, hlive⟩ := occupied
    obtain ⟨t', ht', _, hd⟩ := resolve_eq_some.mp hlive
    rw [ht, Option.some.injEq] at ht'
    rw [← ht', hvacant] at hd
    cases hd
  refine ⟨by simpa using wf.bounded, i :: chain,
    .cons (List.getElem?_set_self inside) (hchain.set off),
    List.nodup_cons.mpr ⟨off, nodup⟩, fun j => ?_⟩
  rw [vacant_set inside, List.mem_cons, members j]
  split
  · rename_i hij
    simp [hij]
  · rename_i hij
    simp [Ne.symm hij]

/-- In a well-formed pool the reused slot is vacant. -/
theorem Wellformed.vacant_head {s : Slot α} (wf : Wellformed maximum p)
    (hfree : p.free = some i) (hs : p.slots[i]? = some s) : s.descriptor = none := by
  obtain ⟨chain, hchain, _, members⟩ := wf.freeList
  rw [hfree] at hchain
  cases hchain with
  | cons slot rest =>
      obtain ⟨t, ht, hvacant⟩ := (members i).mp (List.mem_cons_self)
      rw [hs, Option.some.injEq] at ht
      exact ht ▸ hvacant

theorem Evolves.define {alloc : Bool} {full oom : ε} (wf : Wellformed maximum p)
    (h : define maximum alloc full oom d p = (.ok (i, g), p')) : Evolves p p' := by
  rcases define_eq_ok h with ⟨s, hfree, hs, rfl, rfl⟩ | ⟨_, rfl, _, rfl, rfl⟩
  · have vacant := wf.vacant_head hfree hs
    apply Evolves.set hs
    refine .inr ⟨rfl, fun e he => ?_⟩
    rw [vacant] at he
    cases he
  · intro j t ht
    have inside := (List.getElem?_eq_some_iff.mp ht).1
    exact ⟨t, by rw [List.getElem?_append_left inside]; exact ht,
      .inr ⟨rfl, fun _ hd => hd⟩⟩

/-- The identity a definition returns resolves to the definition. -/
theorem resolve_of_define {alloc : Bool} {full oom : ε}
    (h : define maximum alloc full oom d p = (.ok (i, g), p')) : p'.resolve i g = some d := by
  rcases define_eq_ok h with ⟨s, _, hs, rfl, rfl⟩ | ⟨_, rfl, _, rfl, rfl⟩
  · have inside := (List.getElem?_eq_some_iff.mp hs).1
    exact resolve_eq_some.mpr ⟨_, List.getElem?_set_self inside, rfl, rfl⟩
  · exact resolve_eq_some.mpr ⟨_, List.getElem?_concat_length, rfl, rfl⟩

/-- The identity a definition returns was never handed out before. -/
theorem not_issued_before_define {alloc : Bool} {full oom : ε} (wf : Wellformed maximum p)
    (h : define maximum alloc full oom d p = (.ok (i, g), p')) : ¬ p.Issued i g := by
  rintro ⟨t, ht, hissued⟩
  rcases define_eq_ok h with ⟨s, hfree, hs, rfl, rfl⟩ | ⟨_, rfl, _, rfl, rfl⟩
  · obtain rfl : s = t := Option.some.inj (hs.symm.trans ht)
    rcases hissued with hlt | ⟨_, hsome⟩
    · exact UInt64.lt_irrefl _ hlt
    · simp [wf.vacant_head hfree hs] at hsome
  · exact absurd (List.getElem?_eq_some_iff.mp ht).1 (Nat.lt_irrefl _)

/-- After a definition an identity resolves to the definition or as before. -/
theorem resolve_define_cases {alloc : Bool} {full oom : ε} {j : Nat} {k : UInt64} {e : α}
    (h : define maximum alloc full oom d p = (.ok (i, g), p'))
    (live : p'.resolve j k = some e) : (j = i ∧ k = g ∧ e = d) ∨ p.resolve j k = some e := by
  obtain ⟨t, ht, rfl, he⟩ := resolve_eq_some.mp live
  by_cases hij : i = j
  · subst hij
    obtain ⟨u, hu, hug, hud⟩ := resolve_eq_some.mp (resolve_of_define h)
    obtain rfl : t = u := Option.some.inj (ht.symm.trans hu)
    exact .inl ⟨rfl, hug, Option.some.inj (he.symm.trans hud)⟩
  · right
    rcases define_eq_ok h with ⟨s, _, hs, rfl, rfl⟩ | ⟨_, rfl, _, rfl, rfl⟩
    · rw [List.getElem?_set_ne hij] at ht
      exact resolve_eq_some.mpr ⟨t, ht, rfl, he⟩
    · have inside : j < p.slots.length := by
        have := (List.getElem?_eq_some_iff.mp ht).1
        simp only [List.length_append, List.length_singleton] at this
        omega
      rw [List.getElem?_append_left inside] at ht
      exact resolve_eq_some.mpr ⟨t, ht, rfl, he⟩

/-- A definition leaves every identity that resolved as it was. -/
theorem resolve_define_of_resolve {alloc : Bool} {full oom : ε} {j : Nat} {k : UInt64} {e : α}
    (wf : Wellformed maximum p) (h : define maximum alloc full oom d p = (.ok (i, g), p'))
    (live : p.resolve j k = some e) : p'.resolve j k = some e := by
  obtain ⟨t, ht, rfl, he⟩ := resolve_eq_some.mp live
  rcases define_eq_ok h with ⟨s, hfree, hs, rfl, rfl⟩ | ⟨_, rfl, _, rfl, rfl⟩
  · have hij : i ≠ j := by
      rintro rfl
      obtain rfl : s = t := Option.some.inj (hs.symm.trans ht)
      simp [wf.vacant_head hfree hs] at he
    exact resolve_eq_some.mpr ⟨t, by rw [List.getElem?_set_ne hij]; exact ht, rfl, he⟩
  · have inside := (List.getElem?_eq_some_iff.mp ht).1
    exact resolve_eq_some.mpr
      ⟨t, by rw [List.getElem?_append_left inside]; exact ht, rfl, he⟩

/-- What resolves after a release resolved before it, in another slot. -/
theorem resolve_release_iff {full : ε} {u : Unit} {j : Nat} {k : UInt64} {e : α}
    (h : release full i p = (.ok u, p')) :
    p'.resolve j k = some e ↔ j ≠ i ∧ p.resolve j k = some e := by
  obtain ⟨s, hs, _, rfl⟩ := release_eq_ok h
  have inside := (List.getElem?_eq_some_iff.mp hs).1
  by_cases hij : i = j
  · subst hij
    simp [resolve_eq_some, inside]
  · simp [resolve_eq_some, List.getElem?_set_ne hij, Ne.symm hij]

/-- Releasing an identity that resolves retires it. -/
theorem retired_of_release {full : ε} {u : Unit} (live : p.resolve i g = some d)
    (h : release full i p = (.ok u, p')) : p'.Retired i g := by
  obtain ⟨s, hs, advances, rfl⟩ := release_eq_ok h
  obtain ⟨t, ht, rfl, _⟩ := resolve_eq_some.mp live
  obtain rfl : s = t := Option.some.inj (hs.symm.trans ht)
  have inside := (List.getElem?_eq_some_iff.mp hs).1
  exact ⟨_, List.getElem?_set_self inside, advances⟩

end SlotPool

end Sgfx
