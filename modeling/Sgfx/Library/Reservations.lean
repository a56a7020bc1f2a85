import Sgfx.Library.Fallible

/-!
# Taking several reservations, all or none

`takeAll` takes reservations one after another; when one is refused it gives back the ones it has
taken and passes the refusal on.  If giving back undoes taking, and what is given back may be given
back in any order, a refusal leaves no trace, and after a success `giveAll` undoes the whole.

## Main Definitions

* `Reversible` — a way to take a reservation and a way to give it back
* `takeAll`, `giveAll`

## Main Results

* `Reversible.takeAll_undo` — a refusal changes nothing, and a success can be given back
* `takeAll_induction` — what each reservation carries on, all of them do
-/

namespace Sgfx

open Fallible

variable {σ ε κ : Type}

/-- Giving back undoes taking, a refusal changes nothing, and the order of giving back is
immaterial. -/
structure Reversible (take : κ → Fallible σ ε Unit) (give : κ → σ → σ) : Prop where
  undo : ∀ {k s s'}, take k s = (.ok (), s') → give k s' = s
  unchanged : ∀ {k s s' e}, take k s = (.error e, s') → s' = s
  comm : ∀ k l s, give k (give l s) = give l (give k s)

/-- Give back every reservation of a list. -/
def giveAll (give : κ → σ → σ) (taken : List κ) (s : σ) : σ :=
  taken.foldl (fun s k => give k s) s

/-- Take the reservations of a list, after the ones in `taken`. -/
def takeAll (take : κ → Fallible σ ε Unit) (give : κ → σ → σ) :
    (taken : List κ) → List κ → Fallible σ ε (List κ)
  | taken, [] => pure taken
  | taken, k :: rest => fun s =>
    match take k s with
    | (.ok (), s') => takeAll take give (taken ++ [k]) rest s'
    | (.error e, s') => (.error e, giveAll give taken s')

theorem takeAll_cons_run (take : κ → Fallible σ ε Unit) (give : κ → σ → σ) (taken : List κ) (k : κ)
    (rest : List κ) (s : σ) :
    takeAll take give taken (k :: rest) s = match take k s with
      | (.ok (), s') => takeAll take give (taken ++ [k]) rest s'
      | (.error e, s') => (.error e, giveAll give taken s') := rfl

theorem giveAll_snoc (give : κ → σ → σ) (taken : List κ) (k : κ) (s : σ) :
    giveAll give (taken ++ [k]) s = give k (giveAll give taken s) := by
  rw [giveAll, List.foldl_append]
  rfl

section

variable {take : κ → Fallible σ ε Unit} {give : κ → σ → σ}

/-- One reservation may be given back before the others as well as after them. -/
theorem Reversible.giveAll_comm (reversible : Reversible take give) (taken : List κ) (k : κ)
    (s : σ) : give k (giveAll give taken s) = giveAll give taken (give k s) := by
  induction taken generalizing s with
  | nil => rfl
  | cons l rest ih =>
      show give k (giveAll give rest (give l s)) = giveAll give rest (give l (give k s))
      rw [ih, reversible.comm]

/-- A refusal leaves the state that giving back everything would leave; so does a success. -/
theorem Reversible.takeAll_from (reversible : Reversible take give) {start s : σ}
    {taken : List κ} (back : giveAll give taken s = start) (rest : List κ) :
    Ensures (takeAll take give taken rest) s
      (fun all s' => all = taken ++ rest ∧ giveAll give all s' = start)
      fun _ s' => s' = start := by
  induction rest generalizing taken s with
  | nil => exact ⟨(List.append_nil taken).symm, back⟩
  | cons k rest ih =>
      rw [Ensures, takeAll_cons_run]
      rcases hrun : take k s with ⟨e | u, s'⟩
      · show giveAll give taken s' = start
        rw [reversible.unchanged hrun, back]
      · have back' : giveAll give (taken ++ [k]) s' = start := by
          rw [giveAll_snoc, reversible.giveAll_comm, reversible.undo hrun, back]
        have later := ih back'
        rw [List.append_assoc] at later
        exact later

/-- All or none: a refusal changes nothing, and a success can be given back. -/
theorem Reversible.takeAll_undo (reversible : Reversible take give) (ks : List κ) (s : σ) :
    Ensures (takeAll take give [] ks) s (fun all s' => all = ks ∧ giveAll give ks s' = s)
      fun _ s' => s' = s := by
  refine (reversible.takeAll_from (show giveAll give [] s = s from rfl) ks).imp ?_
    fun _ _ same => same
  rintro all s' ⟨rfl, back⟩
  exact ⟨rfl, back⟩

/-- What taking one reservation carries on, taking all of them does. -/
theorem takeAll_induction (I : List κ → σ → Prop) {taken rest all : List κ} {s s' : σ}
    (start : I taken s)
    (step : ∀ taken k s s', I taken s → take k s = (.ok (), s') → I (taken ++ [k]) s')
    (h : takeAll take give taken rest s = (.ok all, s')) : I all s' := by
  induction rest generalizing taken s with
  | nil =>
      rw [takeAll, pure_run, Prod.mk.injEq, Except.ok.injEq] at h
      obtain ⟨rfl, rfl⟩ := h
      exact start
  | cons k rest ih =>
      rw [takeAll_cons_run] at h
      split at h
      · rename_i mid hrun
        exact ih (step taken k s mid start hrun) h
      · cases h

end

end Sgfx
