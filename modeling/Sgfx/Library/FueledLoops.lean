import Mathlib.Algebra.Group.Nat.Defs
import Mathlib.Tactic.Common
import Sgfx.Library.Fallible

/-!
# Loops that may not end

A loop whose bound is not evident is run with fuel: it answers `none` when the fuel was not
enough.  `Runs p m` says that with enough fuel the computation `p` is the fallible computation
`m`, from every state, and `Diverges p` that no fuel is enough.  A loop is taken apart one turn at
a time, by `Runs.whileDo_done` and `Runs.whileDo_turn`; a turn that comes back to the values that
it started from makes a loop diverge.

## Main Definitions

* `Fueled`, `Fueled.whileDo`
* `Fueled.Runs`, `Fueled.Diverges`
* `Fueled.Settles` — a condition for each of the two outcomes of a run that ends

## Main Results

* `Runs.seq`, `Runs.whileDo_turn`, `Runs.whileDo_row`, `Runs.whileDo_done`
* `Diverges.whileDo`, `Diverges.whileDo_stuck`, `Runs.not_diverges`
* `Settles.bind`, `Settles.whileDo`, `Settles.loop`
-/

namespace Sgfx

namespace Fallible

variable {σ ε α β γ : Type}

theorem bind_assoc (m : Fallible σ ε α) (f : α → Fallible σ ε β) (g : β → Fallible σ ε γ) :
    m >>= f >>= g = m >>= fun a => f a >>= g := by
  funext s
  simp only [bind_run]
  match m s with
  | (.ok a, s') => rfl
  | (.error e, s') => rfl

theorem bind_pure_unit (m : Fallible σ ε Unit) : (m >>= fun _ => pure ()) = m := by
  funext s
  rw [bind_run]
  match m s with
  | (.ok (), s') => rfl
  | (.error e, s') => rfl

/-- A loop over a row is the loop over its first part and then its second. -/
theorem loop_append (xs ys : List α) (f : α → Fallible σ ε Unit) :
    loop (xs ++ ys) f = loop xs f >>= fun _ => loop ys f := by
  induction xs with
  | nil => rfl
  | cons x xs ih => rw [List.cons_append, loop, loop, ih, bind_assoc]

end Fallible

/-- A fallible computation that is given fuel, and answers `none` when that was not enough. -/
def Fueled (σ ε α : Type) : Type :=
  Nat → σ → Option (Except ε α × σ)

namespace Fueled

variable {σ ε α β ν : Type}

/-- Sequencing: both parts have the fuel of the whole. -/
def bind (p : Fueled σ ε α) (f : α → Fueled σ ε β) : Fueled σ ε β := fun fuel s =>
  match p fuel s with
  | some (.ok a, s') => f a fuel s'
  | some (.error e, s') => some (.error e, s')
  | none => none

instance : Monad (Fueled σ ε) where
  pure a := fun _ s => some (.ok a, s)
  bind := bind

/-- A computation without loops needs no fuel. -/
instance : MonadLift (Fallible σ ε) (Fueled σ ε) where
  monadLift m := fun _ s => some (m s)

/-- `while cond { body }` on the local values `v`.  Each turn has one unit of fuel less. -/
def whileDo (cond : ν → Bool) (body : ν → Fueled σ ε ν) :
    ν → Nat → σ → Option (Except ε ν × σ)
  | _, 0, _ => none
  | v, fuel + 1, s =>
      if cond v then
        match body v fuel s with
        | some (.ok v', s') => whileDo cond body v' fuel s'
        | some (.error e, s') => some (.error e, s')
        | none => none
      else some (.ok v, s)

theorem bind_run (p : Fueled σ ε α) (f : α → Fueled σ ε β) (fuel : Nat) (s : σ) :
    (p >>= f) fuel s = match p fuel s with
      | some (.ok a, s') => f a fuel s'
      | some (.error e, s') => some (.error e, s')
      | none => none := rfl

@[simp] theorem pure_run (a : α) (fuel : Nat) (s : σ) :
    (pure a : Fueled σ ε α) fuel s = some (.ok a, s) := rfl

@[simp] theorem lift_run (m : Fallible σ ε α) (fuel : Nat) (s : σ) :
    (liftM m : Fueled σ ε α) fuel s = some (m s) := rfl

/-! ## Runs that end -/

/-- With enough fuel, from every state, the computation is `m`. -/
def Runs (p : Fueled σ ε α) (m : Fallible σ ε α) : Prop :=
  ∃ enough, ∀ fuel, enough ≤ fuel → ∀ s, p fuel s = some (m s)

section Runs

variable {p : Fueled σ ε α} {f : α → Fueled σ ε β} {m first : Fallible σ ε Unit}
  {n : Fallible σ ε β} {a : α} {cond : ν → Bool} {body : ν → Fueled σ ε ν} {v v' : ν}
  {rest : Fallible σ ε ν}

theorem Runs.pure (a : α) : Runs (Pure.pure a : Fueled σ ε α) (Pure.pure a) :=
  ⟨0, fun _ _ _ => rfl⟩

theorem Runs.lift (m : Fallible σ ε α) : Runs (liftM m : Fueled σ ε α) m :=
  ⟨0, fun _ _ _ => rfl⟩

/-- A first part with one answer, and what follows it. -/
theorem Runs.seq (hp : Runs p (first >>= fun _ => Pure.pure a)) (hf : Runs (f a) n) :
    Runs (p >>= f) (first >>= fun _ => n) := by
  obtain ⟨enough, hp⟩ := hp
  obtain ⟨enough', hf⟩ := hf
  refine ⟨max enough enough', fun fuel hfuel s => ?_⟩
  rw [bind_run, hp fuel (Nat.le_trans (Nat.le_max_left ..) hfuel), Fallible.bind_run, Fallible.bind_run]
  match first s with
  | (.ok (), s') => exact hf fuel (Nat.le_trans (Nat.le_max_right ..) hfuel) s'
  | (.error e, s') => rfl

/-- A loop whose condition is false. -/
theorem Runs.whileDo_done (done : cond v = false) :
    Runs (whileDo cond body v) (Pure.pure v) := by
  refine ⟨1, fun fuel hfuel s => ?_⟩
  obtain ⟨fuel, rfl⟩ := Nat.exists_eq_add_of_le' hfuel
  rw [whileDo, done]
  rfl

/-- One turn of a loop, and the turns that follow. -/
theorem Runs.whileDo_turn (more : cond v = true)
    (turn : Runs (body v) (first >>= fun _ => Pure.pure v'))
    (later : Runs (whileDo cond body v') rest) :
    Runs (whileDo cond body v) (first >>= fun _ => rest) := by
  obtain ⟨enough, turn⟩ := turn
  obtain ⟨enough', later⟩ := later
  refine ⟨max enough enough' + 1, fun fuel hfuel s => ?_⟩
  obtain ⟨fuel, rfl⟩ : ∃ n, fuel = n + 1 :=
    Nat.exists_eq_add_of_le' (Nat.le_trans (Nat.le_add_left ..) hfuel)
  have hfuel : max enough enough' ≤ fuel := Nat.le_of_succ_le_succ hfuel
  rw [whileDo, if_pos more, turn fuel (Nat.le_trans (Nat.le_max_left ..) hfuel), Fallible.bind_run,
    Fallible.bind_run]
  match first s with
  | (.ok (), s') => exact later fuel (Nat.le_trans (Nat.le_max_right ..) hfuel) s'
  | (.error e, s') => rfl

/-- One turn that runs over the first part of a row, and turns that run over the rest. -/
theorem Runs.whileDo_row {xs ys : List α} {f : α → Fallible σ ε Unit} {last : ν}
    (more : cond v = true) (turn : Runs (body v) (Fallible.loop xs f >>= fun _ => Pure.pure v'))
    (later : Runs (whileDo cond body v') (Fallible.loop ys f >>= fun _ => Pure.pure last)) :
    Runs (whileDo cond body v) (Fallible.loop (xs ++ ys) f >>= fun _ => Pure.pure last) := by
  rw [Fallible.loop_append, Fallible.bind_assoc]
  exact Runs.whileDo_turn more turn later

end Runs

/-! ## Runs that do not -/

/-- No fuel is enough, from any state. -/
def Diverges (p : Fueled σ ε α) : Prop := ∀ fuel s, p fuel s = none

section Diverges

variable {p : Fueled σ ε α} {cond : ν → Bool} {body : ν → Fueled σ ε ν} {v : ν}

theorem Diverges.bind (diverges : Diverges p) (f : α → Fueled σ ε β) : Diverges (p >>= f) := by
  intro fuel s
  rw [bind_run, diverges fuel s]

/-- A loop whose next turn does not end. -/
theorem Diverges.whileDo (more : cond v = true) (diverges : Diverges (body v)) :
    Diverges (whileDo cond body v) := by
  intro fuel s
  cases fuel with
  | zero => rfl
  | succ fuel => rw [Fueled.whileDo, if_pos more, diverges fuel s]

/-- A loop whose turn leaves the local values as they are. -/
theorem Diverges.whileDo_stuck (more : cond v = true)
    (stuck : ∀ fuel s, ∃ s', body v fuel s = some (.ok v, s')) :
    Diverges (Fueled.whileDo cond body v) := by
  intro fuel
  induction fuel with
  | zero => exact fun s => rfl
  | succ fuel ih =>
      intro s
      obtain ⟨s', turn⟩ := stuck fuel s
      rw [Fueled.whileDo, if_pos more, turn]
      exact ih s'

/-- A run that ends does not diverge. -/
theorem Runs.not_diverges [Nonempty σ] {m : Fallible σ ε α} (runs : Runs p m) : ¬ Diverges p := by
  obtain ⟨enough, runs⟩ := runs
  obtain ⟨s⟩ := ‹Nonempty σ›
  intro diverges
  have h := runs enough (Nat.le_refl _) s
  rw [diverges enough s] at h
  cases h

end Diverges

/-! ## Conditions of runs that end -/

/-- The computations one after another. -/
def loop (l : List α) (f : α → Fueled σ ε Unit) : Fueled σ ε Unit :=
  match l with
  | [] => Pure.pure ()
  | a :: rest => f a >>= fun _ => loop rest f

/-- With enough fuel the run from `s` ends, with an answer and state that satisfy `ok` or with an
error and state that satisfy `error`. -/
def Settles (p : Fueled σ ε α) (s : σ) (ok : α → σ → Prop) (error : ε → σ → Prop) : Prop :=
  ∃ enough result, (∀ fuel, enough ≤ fuel → p fuel s = some result) ∧
    Fallible.Ensures (fun _ => result) s ok error

section Settles

variable {p : Fueled σ ε α} {f : α → Fueled σ ε β} {m : Fallible σ ε α} {s : σ} {a : α} {v : ν}
  {cond : ν → Bool} {body : ν → Fueled σ ε ν} {ok ok' : α → σ → Prop} {next : β → σ → Prop}
  {error : ε → σ → Prop}

theorem Settles.pure (h : ok a s) : Settles (Pure.pure a : Fueled σ ε α) s ok error :=
  ⟨0, _, fun _ _ => rfl, h⟩

theorem Settles.lift (h : Fallible.Ensures m s ok error) :
    Settles (liftM m : Fueled σ ε α) s ok error :=
  ⟨0, _, fun _ _ => rfl, h⟩

theorem Settles.imp (h : Settles p s ok error) (weaker : ∀ a s', ok a s' → ok' a s') :
    Settles p s ok' error := by
  obtain ⟨enough, result, run, h⟩ := h
  exact ⟨enough, result, run, h.imp weaker fun _ _ h => h⟩

theorem Settles.bind (first : Settles p s ok error)
    (rest : ∀ a s', ok a s' → Settles (f a) s' next error) : Settles (p >>= f) s next error := by
  obtain ⟨enough, ⟨outcome, s'⟩, run, h⟩ := first
  cases outcome with
  | ok a =>
      obtain ⟨enough', result, later, h'⟩ := rest a s' h
      refine ⟨max enough enough', result, fun fuel hfuel => ?_, h'⟩
      rw [bind_run, run fuel (Nat.le_trans (Nat.le_max_left ..) hfuel)]
      exact later fuel (Nat.le_trans (Nat.le_max_right ..) hfuel)
  | error e =>
      refine ⟨enough, (.error e, s'), fun fuel hfuel => ?_, h⟩
      rw [bind_run, run fuel hfuel]

/-- Sequencing after a computation without loops. -/
theorem Settles.lift_bind (first : Fallible.Ensures m s ok error)
    (rest : ∀ a s', ok a s' → Settles (f a) s' next error) :
    Settles ((liftM m : Fueled σ ε α) >>= f) s next error :=
  (Settles.lift first).bind rest

/-- The loop rule: what holds at every turn, and a number that every turn makes smaller. -/
theorem Settles.whileDo (I : ν → σ → Prop) (variant : ν → σ → Nat) (start : I v s)
    (turn : ∀ v s, I v s → cond v = true → Settles (body v) s
      (fun v' s' => I v' s' ∧ variant v' s' < variant v s) error) :
    Settles (whileDo cond body v) s (fun v' s' => I v' s' ∧ cond v' = false) error := by
  induction hsize : variant v s using Nat.strongRecOn generalizing v s with
  | ind size ih =>
      subst hsize
      cases more : cond v with
      | false =>
          refine ⟨1, (.ok v, s), fun fuel hfuel => ?_, ⟨start, more⟩⟩
          obtain ⟨fuel, rfl⟩ := Nat.exists_eq_add_of_le' hfuel
          rw [Fueled.whileDo, more]
          rfl
      | true =>
          obtain ⟨enough, ⟨outcome, s'⟩, run, h⟩ := turn v s start more
          cases outcome with
          | ok v' =>
              obtain ⟨holds, smaller⟩ : I v' s' ∧ variant v' s' < variant v s := h
              obtain ⟨enough', result, later, h'⟩ := ih _ smaller holds rfl
              refine ⟨max enough enough' + 1, result, fun fuel hfuel => ?_, h'⟩
              obtain ⟨fuel, rfl⟩ : ∃ n, fuel = n + 1 :=
                Nat.exists_eq_add_of_le' (Nat.le_trans (Nat.le_add_left ..) hfuel)
              have hfuel : max enough enough' ≤ fuel := Nat.le_of_succ_le_succ hfuel
              rw [Fueled.whileDo, if_pos more,
                run fuel (Nat.le_trans (Nat.le_max_left ..) hfuel)]
              exact later fuel (Nat.le_trans (Nat.le_max_right ..) hfuel)
          | error e =>
              refine ⟨enough + 1, (.error e, s'), fun fuel hfuel => ?_, h⟩
              obtain ⟨fuel, rfl⟩ : ∃ n, fuel = n + 1 :=
                Nat.exists_eq_add_of_le' (Nat.le_trans (Nat.le_add_left ..) hfuel)
              rw [Fueled.whileDo, if_pos more, run fuel (Nat.le_of_succ_le_succ hfuel)]

/-- The loop rule over a row. -/
theorem Settles.loop {l : List α} {f : α → Fueled σ ε Unit} (I : List α → σ → Prop)
    (start : I [] s)
    (step : ∀ done a s, a ∈ l → I done s → Settles (f a) s (fun _ s' => I (done ++ [a]) s') error) :
    Settles (loop l f) s (fun _ s' => I l s') error := by
  suffices general : ∀ (rest done : List α) (s : σ), (∀ a ∈ rest, a ∈ l) → I done s →
      Settles (Fueled.loop rest f) s (fun _ s' => I (done ++ rest) s') error from
    general l [] s (fun _ h => h) start
  intro rest
  induction rest with
  | nil =>
      intro done s _ h
      exact Settles.pure (by rwa [List.append_nil])
  | cons a rest ih =>
      intro done s sub h
      refine Settles.bind (step done a s (sub a List.mem_cons_self) h) fun _ s' h' => ?_
      have last := ih (done ++ [a]) s' (fun b hb => sub b (List.mem_cons_of_mem _ hb)) h'
      rwa [List.append_assoc, List.singleton_append] at last

end Settles

end Fueled

end Sgfx
