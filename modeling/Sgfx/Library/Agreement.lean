import Mathlib.Tactic.Common

/-!
# Values that must agree

Several parties note values at positions of an array.  Noting a value where a different one has
been noted fails, so what is there in the end is what everyone noted.

## Main Definitions

* `Gathered` — the values, and which of them have been noted
* `Gathered.note`
* `Gathered.Holds` — the array has what was noted

## Main Results

* `Gathered.Holds.note`, `Gathered.Holds.note_error`
* `Gathered.Holds.agree` — what was noted at one position is one value
-/

namespace Sgfx

/-- The values, and which of them have been noted. -/
structure Gathered (α : Type) where
  values : List α
  known : List Bool

namespace Gathered

variable {α ε : Type}

/-- Nothing has been noted. -/
def blank (initial : α) (length : Nat) : Gathered α :=
  ⟨List.replicate length initial, List.replicate length false⟩

/-- Note a value, which fails if a different one has been noted there. -/
def note [DecidableEq α] (failure : ε) (found : Gathered α) (position : Nat) (value : α) :
    Except ε (Gathered α) :=
  if found.known[position]? = some true ∧ found.values[position]? ≠ some value then .error failure
  else .ok ⟨found.values.set position value, found.known.set position true⟩

/-- The array has what was noted, and the initial value everywhere else. -/
structure Holds (initial : α) (length : Nat) (found : Gathered α) (noted : List (Nat × α)) :
    Prop where
  values_length : found.values.length = length
  known_length : found.known.length = length
  known_iff : ∀ position < length,
    found.known[position]? = some true ↔ ∃ value, (position, value) ∈ noted
  value : ∀ position value, (position, value) ∈ noted → found.values[position]? = some value
  initial : ∀ position < length, (∀ value, (position, value) ∉ noted) →
    found.values[position]? = some initial

variable {initial : α} {length position : Nat} {found found' : Gathered α} {value : α}
  {noted : List (Nat × α)}

theorem holds_blank : Holds initial length (blank initial length) [] where
  values_length := List.length_replicate
  known_length := List.length_replicate
  known_iff := by
    intro position inside
    rw [blank, List.getElem?_replicate, if_pos inside]
    constructor
    · intro h
      cases h
    · rintro ⟨_, h⟩
      cases h
  value := by
    intro position value h
    cases h
  initial := by
    intro position inside _
    rw [blank, List.getElem?_replicate, if_pos inside]

/-- What was noted at one position is one value. -/
theorem Holds.agree (h : Holds initial length found noted) {other : α}
    (first : (position, value) ∈ noted) (second : (position, other) ∈ noted) : value = other :=
  Option.some.inj ((h.value _ _ first).symm.trans (h.value _ _ second))

section Note

variable [DecidableEq α] {failure failure' : ε}

/-- A value that cannot be noted differs from one that has been. -/
theorem Holds.note_error (h : Holds initial length found noted) (inside : position < length)
    (failed : found.note failure position value = .error failure') :
    failure' = failure ∧ ∃ other, (position, other) ∈ noted ∧ other ≠ value := by
  unfold Gathered.note at failed
  split at failed
  · rename_i clash
    obtain ⟨other, member⟩ := (h.known_iff position inside).mp clash.1
    refine ⟨(Except.error.inj failed).symm, other, member, ?_⟩
    rintro rfl
    exact clash.2 (h.value _ _ member)
  · cases failed

theorem Holds.note (h : Holds initial length found noted) (inside : position < length)
    (ok : found.note failure position value = .ok found') :
    Holds initial length found' (noted ++ [(position, value)]) := by
  unfold Gathered.note at ok
  split at ok
  · cases ok
  · rename_i agrees
    cases ok
    have here : (found.values.set position value)[position]? = some value :=
      List.getElem?_set_self (h.values_length ▸ inside)
    refine ⟨?_, ?_, ?_, ?_, ?_⟩
    · rw [List.length_set, h.values_length]
    · rw [List.length_set, h.known_length]
    · intro p hp
      by_cases same : position = p
      · subst same
        rw [List.getElem?_set_self (h.known_length ▸ inside)]
        exact ⟨fun _ => ⟨value, List.mem_append_right _ List.mem_cons_self⟩, fun _ => rfl⟩
      · rw [List.getElem?_set_ne same, h.known_iff p hp]
        constructor
        · rintro ⟨v, member⟩
          exact ⟨v, List.mem_append_left _ member⟩
        · rintro ⟨v, member⟩
          rcases List.mem_append.mp member with member | member
          · exact ⟨v, member⟩
          · cases List.mem_singleton.mp member
            exact absurd rfl same
    · intro p v member
      rcases List.mem_append.mp member with member | member
      · by_cases same : position = p
        · subst same
          -- noted before, so the check has found the values equal
          have before := h.value _ _ member
          have known := (h.known_iff _ inside).mpr ⟨v, member⟩
          have equal : found.values[position]? = some value :=
            Decidable.not_not.mp fun different => agrees ⟨known, different⟩
          rw [here, ← equal, before]
        · rw [List.getElem?_set_ne same]
          exact h.value _ _ member
      · cases List.mem_singleton.mp member
        exact here
    · intro p hp absent
      have different : position ≠ p := by
        rintro rfl
        exact absent value (List.mem_append_right _ List.mem_cons_self)
      rw [List.getElem?_set_ne different]
      exact h.initial p hp fun v member => absent v (List.mem_append_left _ member)

end Note

end Gathered

end Sgfx
