import Mathlib.Data.List.Induction
import Mathlib.Tactic.Common

/-!
# Replaying a log

Each entry of a log is a relation between the states before and after it, and the log is replayed in
order.  A relation may leave a choice or stop, so a log may have many replays or none.

## Main Definitions

* `Replays step log s t`

## Main Results

* `replays_append`, `replays_snoc` — a log in two parts
* `Replays.exists` — a log all of whose entries can be replayed
-/

namespace Sgfx

variable {E S : Type} {step : E → S → S → Prop}

/-- The log, replayed from one state, may end in the other. -/
inductive Replays (step : E → S → S → Prop) : List E → S → S → Prop
  | nil (s : S) : Replays step [] s s
  | cons {e : E} {rest : List E} {s t u : S} (first : step e s t)
      (later : Replays step rest t u) : Replays step (e :: rest) s u

theorem replays_nil {s t : S} : Replays step [] s t ↔ t = s := by
  constructor
  · rintro ⟨⟩
    rfl
  · rintro rfl
    exact .nil t

theorem replays_cons {e : E} {rest : List E} {s u : S} :
    Replays step (e :: rest) s u ↔ ∃ t, step e s t ∧ Replays step rest t u := by
  constructor
  · rintro (_ | ⟨first, later⟩)
    exact ⟨_, first, later⟩
  · rintro ⟨t, first, later⟩
    exact .cons first later

theorem replays_singleton {e : E} {s t : S} : Replays step [e] s t ↔ step e s t := by
  simp [replays_cons, replays_nil]

theorem replays_append {front back : List E} {s u : S} :
    Replays step (front ++ back) s u ↔
      ∃ t, Replays step front s t ∧ Replays step back t u := by
  induction front generalizing s with
  | nil => simp [replays_nil]
  | cons e rest ih =>
    simp only [List.cons_append, replays_cons, ih]
    constructor
    · rintro ⟨t, first, v, middle, last⟩
      exact ⟨v, ⟨t, first, middle⟩, last⟩
    · rintro ⟨v, ⟨t, first, middle⟩, last⟩
      exact ⟨t, first, v, middle, last⟩

theorem replays_snoc {log : List E} {e : E} {s u : S} :
    Replays step (log ++ [e]) s u ↔ ∃ t, Replays step log s t ∧ step e t u := by
  simp only [replays_append, replays_singleton]

/-- A log can be replayed if each entry can be, from a state that keeps what the next one needs. -/
theorem Replays.exists {P : S → Prop} {log : List E} {s : S}
    (each : ∀ e ∈ log, ∀ s, P s → ∃ t, step e s t ∧ P t) (before : P s) :
    ∃ t, Replays step log s t ∧ P t := by
  induction log generalizing s with
  | nil => exact ⟨s, .nil s, before⟩
  | cons e rest ih =>
    rw [List.forall_mem_cons] at each
    obtain ⟨t, first, middle⟩ := each.1 s before
    obtain ⟨u, later, after⟩ := ih each.2 middle
    exact ⟨u, .cons first later, after⟩

end Sgfx
