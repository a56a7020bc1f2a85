import Mathlib.Algebra.Group.Nat.Defs
import Mathlib.Tactic.Common

/-!
# Fallible computations over a mutable state

A computation that mutates a state in place and may return early with an error
does not roll anything back: whatever it had written when it stopped stays
written.  `Fallible σ ε α` is that computation, `σ → Except ε α × σ`, so the
final state is present in both outcomes.

Two facts are worth proving about such a computation, and this module has the
rules that compose them.

* `Fallible.Atomic` — every error leaves the state exactly as it was.
* `Fallible.Total` — the computation never returns an error.

A sequence of read-only checks, one atomic write and total updates is atomic
(`Atomic.lift_bind`, `Atomic.bind_total`), which is the shape of a well-behaved
in-place operation.  The inversion rules (`bind_eq_ok`, `lift_eq_ok`) take a
successful run apart without unfolding the monad.

## Main Definitions

* `Fallible` — the monad, with its `Except` lift
* `Fallible.zoom` — run a computation on one component of a larger state
* `Fallible.Atomic`, `Fallible.Total`
* `Fallible.Ensures` — a condition for each of the two outcomes of a run
* `Fallible.Keeps` — a part of the state that no run changes
-/

namespace Sgfx

/-- A computation over a mutable state `σ` that may stop early with an error.
The state reached is returned in both cases. -/
def Fallible (σ ε α : Type) : Type :=
  σ → Except ε α × σ

namespace Fallible

variable {σ τ ε α β : Type}

/-- Sequencing: an error of the first part stops the run in the state that part
reached. -/
def bind (m : Fallible σ ε α) (f : α → Fallible σ ε β) : Fallible σ ε β := fun s =>
  match m s with
  | (.ok a, s') => f a s'
  | (.error e, s') => (.error e, s')

instance : Monad (Fallible σ ε) where
  pure a := fun s => (.ok a, s)
  bind := bind

/-- A check of the state's surroundings, which cannot write. -/
instance : MonadLift (Except ε) (Fallible σ ε) where
  monadLift x := fun s => (x, s)

/-- The current state. -/
def read : Fallible σ ε σ := fun s => (.ok s, s)

/-- Replace the state by its image under `f`. -/
def update (f : σ → σ) : Fallible σ ε Unit := fun s => (.ok (), f s)

/-- Stop with an error. -/
def fail (e : ε) : Fallible σ ε α := fun s => (.error e, s)

/-- Run a computation on the component of the state that `get` reads and `put`
writes. -/
def zoom (get : σ → τ) (put : σ → τ → σ) (m : Fallible τ ε α) : Fallible σ ε α := fun s =>
  ((m (get s)).1, put s (m (get s)).2)

/-! ### Running the primitives -/

@[simp] theorem pure_run (a : α) (s : σ) :
    (pure a : Fallible σ ε α) s = (.ok a, s) := rfl

@[simp] theorem read_run (s : σ) : (read : Fallible σ ε σ) s = (.ok s, s) := rfl

@[simp] theorem update_run (f : σ → σ) (s : σ) :
    (update f : Fallible σ ε Unit) s = (.ok (), f s) := rfl

@[simp] theorem fail_run (e : ε) (s : σ) :
    (fail e : Fallible σ ε α) s = (.error e, s) := rfl

@[simp] theorem lift_run (x : Except ε α) (s : σ) :
    (liftM x : Fallible σ ε α) s = (x, s) := rfl

@[simp] theorem monadLift_run (x : Except ε α) (s : σ) :
    (MonadLift.monadLift x : Fallible σ ε α) s = (x, s) := rfl

theorem bind_run (m : Fallible σ ε α) (f : α → Fallible σ ε β) (s : σ) :
    (m >>= f) s = match m s with
      | (.ok a, s') => f a s'
      | (.error e, s') => (.error e, s') := rfl

/-- After a success the rest goes on from the state that was left. -/
theorem bind_run_of_ok {m : Fallible σ ε α} {f : α → Fallible σ ε β} {s mid : σ} {a : α}
    (first : m s = (.ok a, mid)) : (m >>= f) s = f a mid := by
  rw [bind_run, first]

@[simp] theorem read_bind_run (f : σ → Fallible σ ε β) (s : σ) :
    ((read : Fallible σ ε σ) >>= f) s = f s s := rfl

/-! ### Taking a successful run apart -/

/-- A sequence succeeds exactly when both parts do. -/
theorem bind_eq_ok {m : Fallible σ ε α} {f : α → Fallible σ ε β} {s s' : σ} {b : β} :
    (m >>= f) s = (.ok b, s') ↔
      ∃ a mid, m s = (.ok a, mid) ∧ f a mid = (.ok b, s') := by
  rw [bind_run]
  constructor
  · intro h
    match hm : m s, h with
    | (.ok a, mid), h => exact ⟨a, mid, rfl, h⟩
    | (.error e, mid), h => exact absurd (congrArg Prod.fst h) (by simp)
  · rintro ⟨a, mid, hm, hf⟩
    rw [hm]
    exact hf

/-- A lifted check succeeds exactly when the check does, without writing. -/
theorem lift_bind_eq_ok {x : Except ε α} {f : α → Fallible σ ε β} {s s' : σ} {b : β} :
    ((liftM x : Fallible σ ε α) >>= f) s = (.ok b, s') ↔
      ∃ a, x = .ok a ∧ f a s = (.ok b, s') := by
  rw [bind_eq_ok]
  constructor
  · rintro ⟨a, mid, hx, hf⟩
    rw [lift_run, Prod.mk.injEq] at hx
    obtain ⟨rfl, rfl⟩ := hx
    exact ⟨a, rfl, hf⟩
  · rintro ⟨a, rfl, hf⟩
    exact ⟨a, s, rfl, hf⟩

/-- A computed answer succeeds exactly when its computation does. -/
theorem bind_pure_eq_ok {m : Fallible σ ε α} {f : α → β} {s s' : σ} {b : β} :
    (m >>= fun a => pure (f a)) s = (.ok b, s') ↔ ∃ a, m s = (.ok a, s') ∧ f a = b := by
  rw [bind_eq_ok]
  constructor
  · rintro ⟨a, mid, hm, hanswer⟩
    rw [pure_run, Prod.mk.injEq, Except.ok.injEq] at hanswer
    exact ⟨a, hanswer.2 ▸ hm, hanswer.1⟩
  · rintro ⟨a, hm, rfl⟩
    exact ⟨a, s', hm, rfl⟩

theorem update_bind_run (g : σ → σ) (f : Unit → Fallible σ ε β) (s : σ) :
    ((update g : Fallible σ ε Unit) >>= f) s = f () (g s) := rfl

/-- A zoomed run succeeds exactly when the run on the component does. -/
theorem zoom_eq_ok {get : σ → τ} {put : σ → τ → σ} {m : Fallible τ ε α} {s s' : σ} {a : α} :
    zoom get put m s = (.ok a, s') ↔
      ∃ t, m (get s) = (.ok a, t) ∧ s' = put s t := by
  unfold zoom
  constructor
  · intro h
    rw [Prod.mk.injEq] at h
    exact ⟨(m (get s)).2, by rw [← h.1], h.2.symm⟩
  · rintro ⟨t, hm, rfl⟩
    rw [hm]

/-! ### Errors that leave no trace -/

/-- Every error leaves the state exactly as it was. -/
structure Atomic (m : Fallible σ ε α) : Prop where
  unchanged : ∀ {s s' : σ} {e : ε}, m s = (.error e, s') → s' = s

/-- The computation never returns an error. -/
structure Total (m : Fallible σ ε α) : Prop where
  ne_error : ∀ {s s' : σ} {e : ε}, m s ≠ (.error e, s')

theorem Atomic.pure (a : α) : Atomic (Pure.pure a : Fallible σ ε α) where
  unchanged h := by simp at h

theorem Atomic.fail (e : ε) : Atomic (fail e : Fallible σ ε α) where
  unchanged h := by
    rw [fail_run, Prod.mk.injEq] at h
    exact h.2.symm

theorem Atomic.lift (x : Except ε α) : Atomic (liftM x : Fallible σ ε α) where
  unchanged h := by
    rw [lift_run, Prod.mk.injEq] at h
    exact h.2.symm

theorem Atomic.of_total {m : Fallible σ ε α} (total : Total m) : Atomic m where
  unchanged h := absurd h total.ne_error

/-- A read-only check followed by an atomic computation is atomic. -/
theorem Atomic.lift_bind {x : Except ε α} {f : α → Fallible σ ε β}
    (rest : ∀ a, x = .ok a → Atomic (f a)) :
    Atomic ((liftM x : Fallible σ ε α) >>= f) where
  unchanged h := by
    cases hx : x with
    | error e' =>
        rw [bind_run, lift_run, hx] at h
        exact (congrArg Prod.snd h).symm
    | ok a =>
        rw [bind_run, lift_run, hx] at h
        exact (rest a hx).unchanged h

/-- Reading the state cannot fail, so what follows decides. -/
theorem Atomic.read_bind {f : σ → Fallible σ ε β} (rest : ∀ s, Atomic (f s)) :
    Atomic ((read : Fallible σ ε σ) >>= f) where
  unchanged h := (rest _).unchanged h

/-- An atomic write followed by updates that cannot fail is atomic. -/
theorem Atomic.bind_total {m : Fallible σ ε α} {f : α → Fallible σ ε β}
    (atomic : Atomic m) (total : ∀ a, Total (f a)) : Atomic (m >>= f) where
  unchanged {s s' e} h := by
    rw [bind_run] at h
    match hm : m s, h with
    | (.ok a, mid), h => exact absurd h (total a).ne_error
    | (.error e', mid), h =>
        rw [Prod.mk.injEq] at h
        exact h.2 ▸ atomic.unchanged hm

theorem Atomic.ite {c : Prop} [Decidable c] {m n : Fallible σ ε α}
    (hm : Atomic m) (hn : Atomic n) : Atomic (if c then m else n) := by
  split <;> assumption

/-- Zooming keeps atomicity when writing a component back unchanged changes
nothing. -/
theorem Atomic.zoom {get : σ → τ} {put : σ → τ → σ} {m : Fallible τ ε α}
    (put_get : ∀ s, put s (get s) = s) (atomic : Atomic m) :
    Atomic (Fallible.zoom get put m) where
  unchanged {s s' e} h := by
    rw [Fallible.zoom, Prod.mk.injEq] at h
    obtain ⟨herror, rfl⟩ := h
    have unchanged : (m (get s)).2 = get s := atomic.unchanged (Prod.ext herror rfl)
    rw [unchanged, put_get]

theorem Total.pure (a : α) : Total (Pure.pure a : Fallible σ ε α) where
  ne_error h := by simp at h

theorem Total.read : Total (read : Fallible σ ε σ) where
  ne_error h := by simp at h

theorem Total.update (f : σ → σ) : Total (update f : Fallible σ ε Unit) where
  ne_error h := by simp at h

theorem Total.bind {m : Fallible σ ε α} {f : α → Fallible σ ε β}
    (first : Total m) (rest : ∀ a, Total (f a)) : Total (m >>= f) where
  ne_error {s s' e} h := by
    rw [bind_run] at h
    match hm : m s, h with
    | (.ok a, mid), h => exact (rest a).ne_error h
    | (.error e', mid), _ => exact first.ne_error hm

theorem Total.zoom {get : σ → τ} {put : σ → τ → σ} {m : Fallible τ ε α} (total : Total m) :
    Total (Fallible.zoom get put m) where
  ne_error h := by
    rw [Fallible.zoom, Prod.mk.injEq] at h
    exact total.ne_error (Prod.ext h.1 rfl)

/-! ### What a run reaches -/

/-- The run from `s` ends with an answer and state that satisfy `ok`, or with an
error and state that satisfy `error`. -/
def Ensures (m : Fallible σ ε α) (s : σ) (ok : α → σ → Prop) (error : ε → σ → Prop) : Prop :=
  match m s with
  | (.ok a, s') => ok a s'
  | (.error e, s') => error e s'

section Ensures

variable {m : Fallible σ ε α} {f : α → Fallible σ ε β} {s s' : σ} {a : α} {e : ε}
  {ok ok' : α → σ → Prop} {next : β → σ → Prop} {error error' : ε → σ → Prop}

theorem Ensures.of_eq_ok (h : Ensures m s ok error) (run : m s = (.ok a, s')) : ok a s' := by
  rwa [Ensures, run] at h

theorem Ensures.of_eq_error (h : Ensures m s ok error) (run : m s = (.error e, s')) :
    error e s' := by
  rwa [Ensures, run] at h

/-- A condition on the state only. -/
theorem Ensures.state {P : σ → Prop} (h : Ensures m s (fun _ s' => P s') fun _ s' => P s') :
    P (m s).2 := by
  unfold Ensures at h
  split at h <;> rename_i run <;> rwa [run]

theorem Ensures.pure (h : ok a s) : Ensures (Pure.pure a : Fallible σ ε α) s ok error := h

theorem Ensures.imp (h : Ensures m s ok error) (hok : ∀ a s', ok a s' → ok' a s')
    (herror : ∀ e s', error e s' → error' e s') : Ensures m s ok' error' := by
  unfold Ensures at h ⊢
  split at h
  · exact hok _ _ h
  · exact herror _ _ h

/-- Sequencing: both parts may end the run with the error condition. -/
theorem Ensures.bind (first : Ensures m s ok error)
    (rest : ∀ a s', ok a s' → Ensures (f a) s' next error) : Ensures (m >>= f) s next error := by
  unfold Ensures at first
  rw [Ensures, bind_run]
  split at first
  · exact rest _ _ first
  · exact first

/-- Sequencing after a check of the state's surroundings. -/
theorem Ensures.lift_bind {x : Except ε α} (rest : ∀ a, x = .ok a → Ensures (f a) s next error)
    (herror : ∀ e, x = .error e → error e s) :
    Ensures ((liftM x : Fallible σ ε α) >>= f) s next error := by
  rw [Ensures, bind_run, lift_run]
  cases x with
  | ok a => exact rest a rfl
  | error e => exact herror e rfl

/-- Sequencing after reading the state. -/
theorem Ensures.read_bind {f : σ → Fallible σ ε β} (rest : Ensures (f s) s next error) :
    Ensures ((read : Fallible σ ε σ) >>= f) s next error := rest

theorem Ensures.update {g : σ → σ} {ok : Unit → σ → Prop} (h : ok () (g s)) :
    Ensures (Fallible.update g : Fallible σ ε Unit) s ok error := h

/-- Sequencing after an update. -/
theorem Ensures.update_bind {g : σ → σ} {f : Unit → Fallible σ ε β}
    (rest : Ensures (f ()) (g s) next error) :
    Ensures ((Fallible.update g : Fallible σ ε Unit) >>= f) s next error := rest

/-- A run on a component of the state. -/
theorem Ensures.zoom {get : σ → τ} {put : σ → τ → σ} {n : Fallible τ ε α} {inner : α → τ → Prop}
    {innerError : ε → τ → Prop} (h : Ensures n (get s) inner innerError)
    (hok : ∀ a t, inner a t → ok a (put s t)) (herror : ∀ e t, innerError e t → error e (put s t)) :
    Ensures (Fallible.zoom get put n) s ok error := by
  unfold Ensures at h ⊢
  rw [Fallible.zoom]
  match hn : n (get s), h with
  | (.ok a, t), h => exact hok a t h
  | (.error e, t), h => exact herror e t h

/-- A sequence of computations run in order, stopping at the first failure. -/
def loop (l : List α) (f : α → Fallible σ ε Unit) : Fallible σ ε Unit :=
  match l with
  | [] => pure ()
  | a :: rest => f a >>= fun _ => Fallible.loop rest f

/-- The loop rule: a relation between the elements that are done and the state, which
each turn carries on. -/
theorem Ensures.loop {l : List α} {f : α → Fallible σ ε Unit} (I : List α → σ → Prop)
    (start : I [] s)
    (step : ∀ done a s, a ∈ l → I done s →
      Ensures (f a) s (fun _ s' => I (done ++ [a]) s') error) :
    Ensures (Fallible.loop l f) s (fun _ s' => I l s') error := by
  suffices general : ∀ (rest done : List α) (s : σ), (∀ a ∈ rest, a ∈ l) → I done s →
      Ensures (Fallible.loop rest f) s (fun _ s' => I (done ++ rest) s') error from
    general l [] s (fun _ h => h) start
  intro rest
  induction rest with
  | nil =>
      intro done s _ h
      exact Ensures.pure (by rwa [List.append_nil])
  | cons a rest ih =>
      intro done s sub h
      refine Ensures.bind (step done a s (sub a List.mem_cons_self) h) fun _ s' h' => ?_
      have last := ih (done ++ [a]) s' (fun b hb => sub b (List.mem_cons_of_mem _ hb)) h'
      rwa [List.append_assoc, List.singleton_append] at last

end Ensures

/-- Every run relates the state before it to the state after it. -/
def Steps (R : σ → σ → Prop) (m : Fallible σ ε α) : Prop := ∀ s, R s (m s).2

section Steps

variable {R : σ → σ → Prop} {m : Fallible σ ε α} {f : α → Fallible σ ε β}

theorem Steps.pure (refl : ∀ s, R s s) (a : α) : Steps R (Pure.pure a : Fallible σ ε α) :=
  fun s => refl s

theorem Steps.lift (refl : ∀ s, R s s) (x : Except ε α) : Steps R (liftM x : Fallible σ ε α) :=
  fun s => refl s

theorem Steps.read (refl : ∀ s, R s s) : Steps R (Fallible.read : Fallible σ ε σ) := fun s => refl s

theorem Steps.bind (trans : ∀ s t u, R s t → R t u → R s u) (first : Steps R m)
    (rest : ∀ a, Steps R (f a)) : Steps R (m >>= f) := by
  intro s
  have here := first s
  rw [bind_run]
  match hm : m s, here with
  | (.ok a, mid), here => exact trans s mid _ here (rest a mid)
  | (.error e, mid), here => exact here

theorem Steps.loop (refl : ∀ s, R s s) (trans : ∀ s t u, R s t → R t u → R s u)
    {f : α → Fallible σ ε Unit} (each : ∀ a, Steps R (f a)) (l : List α) :
    Steps R (Fallible.loop l f) := by
  induction l with
  | nil => exact Steps.pure refl ()
  | cons a rest ih => exact Steps.bind trans (each a) fun _ => ih

end Steps

/-- Every run leaves a part of the state as it was. -/
structure Keeps {γ : Type} (part : σ → γ) (m : Fallible σ ε α) : Prop where
  steps : Steps (fun s s' => part s' = part s) m

section Keeps

variable {γ : Type} {part : σ → γ} {m : Fallible σ ε α} {f : α → Fallible σ ε β}

theorem Keeps.of_eq_ok {s s' : σ} {a : α} (keeps : Keeps part m) (run : m s = (.ok a, s')) :
    part s' = part s := by
  have same := keeps.steps s
  rwa [run] at same

theorem Keeps.pure (a : α) : Keeps part (Pure.pure a : Fallible σ ε α) where
  steps _ := rfl

theorem Keeps.fail (e : ε) : Keeps part (Fallible.fail e : Fallible σ ε α) where
  steps _ := rfl

theorem Keeps.update {f : σ → σ} (same : ∀ s, part (f s) = part s) :
    Keeps part (Fallible.update f : Fallible σ ε Unit) where
  steps := same

/-- A run on a component that the part does not depend on. -/
theorem Keeps.zoom {get : σ → τ} {put : σ → τ → σ} (same : ∀ s t, part (put s t) = part s)
    (n : Fallible τ ε α) : Keeps part (Fallible.zoom get put n) where
  steps s := same s _

theorem Keeps.bind (first : Keeps part m) (rest : ∀ a, Keeps part (f a)) :
    Keeps part (m >>= f) where
  steps := Steps.bind (fun _ _ _ h h' => h'.trans h) first.steps fun a => (rest a).steps

theorem Keeps.read_bind {f : σ → Fallible σ ε α} (rest : ∀ s, Keeps part (f s)) :
    Keeps part (Fallible.read >>= f) where
  steps s := (rest s).steps s

theorem Keeps.lift_bind {x : Except ε α} (rest : ∀ a, Keeps part (f a)) :
    Keeps part ((liftM x : Fallible σ ε α) >>= f) :=
  .bind ⟨fun _ => rfl⟩ rest

theorem Keeps.loop {f : α → Fallible σ ε Unit} (each : ∀ a, Keeps part (f a)) (l : List α) :
    Keeps part (Fallible.loop l f) where
  steps := Steps.loop (R := fun s s' => part s' = part s) (fun _ => rfl)
    (fun _ _ _ h h' => h'.trans h) (fun a => (each a).steps) l

theorem Keeps.foldlM {f : β → α → Fallible σ ε β} (each : ∀ b a, Keeps part (f b a)) (l : List α)
    (b : β) : Keeps part (l.foldlM f b) := by
  induction l generalizing b with
  | nil => exact .pure b
  | cons a rest ih => exact .bind (each b a) ih

end Keeps

end Fallible

/-! ### Checks -/

/-- Fail with `e` when `bad` holds: the source's `if bad { return Err(e) }`. -/
def failIf {ε : Type} (bad : Prop) [Decidable bad] (e : ε) : Except ε Unit :=
  if bad then .error e else .ok ()

@[simp] theorem failIf_eq_ok {ε : Type} {bad : Prop} [Decidable bad] {e : ε} {u : Unit} :
    failIf bad e = .ok u ↔ ¬ bad := by
  unfold failIf
  split <;> simp [*]

theorem failIf_eq_error {ε : Type} {bad : Prop} [Decidable bad] {e e' : ε} :
    failIf bad e = .error e' ↔ bad ∧ e = e' := by
  unfold failIf
  split <;> simp [*]

/-- The source's `option.ok_or(e)`. -/
def okOr {ε α : Type} (x : Option α) (e : ε) : Except ε α :=
  match x with
  | some a => .ok a
  | none => .error e

@[simp] theorem okOr_eq_ok {ε α : Type} {x : Option α} {e : ε} {a : α} :
    okOr x e = .ok a ↔ x = some a := by
  cases x <;> simp [okOr]

theorem okOr_eq_error {ε α : Type} {x : Option α} {e e' : ε} :
    okOr x e = .error e' ↔ x = none ∧ e = e' := by
  cases x <;> simp [okOr]

/-- A sequence of checks succeeds exactly when both parts do. -/
theorem except_bind_eq_ok {ε α β : Type} {x : Except ε α} {f : α → Except ε β}
    {b : β} : (x >>= f) = .ok b ↔ ∃ a, x = .ok a ∧ f a = .ok b := by
  cases x with
  | error e => simp [Bind.bind, Except.bind]
  | ok a => simp [Bind.bind, Except.bind]

/-- A sequence of checks fails exactly when one of the parts does. -/
theorem except_bind_eq_error {ε α β : Type} {x : Except ε α} {f : α → Except ε β} {e : ε} :
    (x >>= f) = .error e ↔ x = .error e ∨ ∃ a, x = .ok a ∧ f a = .error e := by
  cases x with
  | error e' => simp [Bind.bind, Except.bind]
  | ok a => simp [Bind.bind, Except.bind]

/-- A sequence of checks succeeds when the first part does, and the second on what it
returns. -/
theorem except_bind_ok {ε α β : Type} {x : Except ε α} {f : α → Except ε β}
    (first : ∃ a, x = .ok a) (second : ∀ a, x = .ok a → ∃ b, f a = .ok b) :
    ∃ b, (x >>= f) = .ok b := by
  obtain ⟨a, hx⟩ := first
  obtain ⟨b, hf⟩ := second a hx
  exact ⟨b, except_bind_eq_ok.mpr ⟨a, hx, hf⟩⟩

/-- A fold that succeeds keeps every relation between the elements consumed and
the state reached that each step keeps. -/
theorem foldlM_ok {ε α σ : Type} {f : σ → α → Except ε σ} (P : List α → σ → Prop)
    {l : List α} {s s' : σ} (start : P [] s)
    (step : ∀ done a s s', P done s → f s a = .ok s' → P (done ++ [a]) s')
    (h : l.foldlM f s = .ok s') : P l s' := by
  suffices general : ∀ (l done : List α) (s : σ), P done s → l.foldlM f s = .ok s' →
      P (done ++ l) s' from general l [] s start h
  intro l
  induction l with
  | nil =>
      intro done s hs h
      rw [List.foldlM_nil] at h
      obtain rfl : s = s' := Except.ok.inj h
      rwa [List.append_nil]
  | cons a rest ih =>
      intro done s hs h
      rw [List.foldlM_cons, except_bind_eq_ok] at h
      obtain ⟨mid, ha, hrest⟩ := h
      simpa using ih (done ++ [a]) mid (step done a s mid hs ha) hrest

/-- A loop over the numbers below `n` that keeps what each turn needs. -/
theorem foldlM_range_ok {ε σ : Type} {f : σ → Nat → Except ε σ} (P : Nat → σ → Prop) {n : Nat} {s : σ}
    (start : P 0 s) (turn : ∀ i s, i < n → P i s → ∃ s', f s i = .ok s' ∧ P (i + 1) s') :
    ∃ s', (List.range n).foldlM f s = .ok s' ∧ P n s' := by
  induction n with
  | zero => exact ⟨s, rfl, start⟩
  | succ n ih =>
      obtain ⟨mid, hfold, hmid⟩ := ih fun i s hi => turn i s (Nat.lt_succ_of_lt hi)
      obtain ⟨s', hturn, hs'⟩ := turn n mid (Nat.lt_succ_self n) hmid
      refine ⟨s', ?_, hs'⟩
      rw [List.range_succ, List.foldlM_append, hfold]
      show [n].foldlM f mid = .ok s'
      rw [List.foldlM_cons, hturn]
      rfl

/-- A computation that succeeds on every item. -/
theorem mapM_map_eq_ok {ε α β γ : Type} {f : α → Except ε β} {before : γ → α} {after : γ → β}
    {items : List γ} (h : ∀ item ∈ items, f (before item) = .ok (after item)) :
    (items.map before).mapM f = .ok (items.map after) := by
  induction items with
  | nil => rfl
  | cons item rest ih =>
      rw [List.map_cons, List.mapM_cons, h item List.mem_cons_self,
        ih fun other hother => h other (List.mem_cons_of_mem _ hother)]
      rfl

/-- Where each element has one possible result, so has their list. -/
theorem mapM_eq_ok {ε α β : Type} {f : α → Except ε β} {P : α → Prop} {g : α → β} {items : List α}
    (each : ∀ item ∈ items, ∀ b, f item = .ok b ↔ P item ∧ g item = b) {results : List β} :
    items.mapM f = .ok results ↔ (∀ item ∈ items, P item) ∧ items.map g = results := by
  induction items generalizing results with
  | nil =>
    rw [List.mapM_nil]
    exact ⟨fun h => ⟨fun _ here => (by cases here), Except.ok.inj h⟩, fun h => congrArg _ h.2⟩
  | cons a rest ih =>
    have tail : ∀ others, rest.mapM f = .ok others ↔ (∀ item ∈ rest, P item) ∧ rest.map g = others :=
      fun _ => ih fun other inside => each other (List.mem_cons_of_mem _ inside)
    simp only [List.mapM_cons, except_bind_eq_ok, each a List.mem_cons_self, tail,
      List.forall_mem_cons, List.map_cons]
    constructor
    · rintro ⟨_, ⟨first, rfl⟩, _, ⟨others, rfl⟩, same⟩
      exact ⟨⟨first, others⟩, Except.ok.inj same⟩
    · rintro ⟨⟨first, others⟩, rfl⟩
      exact ⟨_, ⟨first, rfl⟩, _, ⟨others, rfl⟩, rfl⟩

/-- The results of a fallible map, each with the element that gave it. -/
theorem mapM_forall₂ {ε α β : Type} {f : α → Except ε β} {items : List α} {results : List β}
    (h : items.mapM f = .ok results) : List.Forall₂ (fun a b => f a = .ok b) items results := by
  induction items generalizing results with
  | nil =>
      rw [List.mapM_nil] at h
      cases h
      exact .nil
  | cons a rest ih =>
      rw [List.mapM_cons, except_bind_eq_ok] at h
      obtain ⟨first, hfirst, h⟩ := h
      rw [except_bind_eq_ok] at h
      obtain ⟨others, hothers, h⟩ := h
      cases h
      exact .cons hfirst (ih hothers)

/-- Every result comes from an element. -/
theorem mapM_ok_mem {ε α β : Type} {f : α → Except ε β} {items : List α} {results : List β}
    (h : items.mapM f = .ok results) : ∀ b ∈ results, ∃ a ∈ items, f a = .ok b := by
  have related := mapM_forall₂ h
  clear h
  induction related with
  | nil => exact fun b member => (List.not_mem_nil member).elim
  | cons first later ih =>
      intro b member
      rcases List.mem_cons.mp member with rfl | member
      · exact ⟨_, List.mem_cons_self, first⟩
      · obtain ⟨a, ha, same⟩ := ih b member
        exact ⟨a, List.mem_cons_of_mem _ ha, same⟩

/-- Every element gives a result. -/
theorem mapM_mem_ok {ε α β : Type} {f : α → Except ε β} {items : List α} {results : List β}
    (h : items.mapM f = .ok results) : ∀ a ∈ items, ∃ b ∈ results, f a = .ok b := by
  have related := mapM_forall₂ h
  clear h
  induction related with
  | nil => exact fun a member => (List.not_mem_nil member).elim
  | cons first later ih =>
      intro a member
      rcases List.mem_cons.mp member with rfl | member
      · exact ⟨_, List.mem_cons_self, first⟩
      · obtain ⟨b, hb, same⟩ := ih a member
        exact ⟨b, List.mem_cons_of_mem _ hb, same⟩

/-- A fallible map fails at an element. -/
theorem mapM_error_mem {ε α β : Type} {f : α → Except ε β} {items : List α} {e : ε}
    (h : items.mapM f = .error e) : ∃ a ∈ items, f a = .error e := by
  induction items with
  | nil => cases h
  | cons a rest ih =>
      rw [List.mapM_cons, except_bind_eq_error] at h
      rcases h with h | ⟨first, hfirst, h⟩
      · exact ⟨a, List.mem_cons_self, h⟩
      · rw [except_bind_eq_error] at h
        rcases h with h | ⟨others, hothers, h⟩
        · obtain ⟨b, hb, failed⟩ := ih h
          exact ⟨b, List.mem_cons_of_mem _ hb, failed⟩
        · cases h

/-- A relation between elements gives one between their results. -/
theorem mapM_pairwise {ε α β : Type} {f : α → Except ε β} {items : List α} {results : List β}
    {R : α → α → Prop} {S : β → β → Prop} (h : items.mapM f = .ok results) (hitems : items.Pairwise R)
    (step : ∀ a a' b b', R a a' → f a = .ok b → f a' = .ok b' → S b b') : results.Pairwise S := by
  induction items generalizing results with
  | nil =>
      rw [List.mapM_nil] at h
      cases h
      exact .nil
  | cons a rest ih =>
      rw [List.mapM_cons, except_bind_eq_ok] at h
      obtain ⟨first, hfirst, h⟩ := h
      rw [except_bind_eq_ok] at h
      obtain ⟨others, hothers, h⟩ := h
      cases h
      obtain ⟨head, later⟩ := List.pairwise_cons.mp hitems
      refine .cons ?_ (ih hothers later)
      intro b' member
      obtain ⟨a', ha', same⟩ := mapM_ok_mem hothers b' member
      exact step a a' first b' (head a' ha') hfirst same

/-- A fold fails at an element, in the state reached before it. -/
theorem foldlM_error {ε α σ : Type} {f : σ → α → Except ε σ} {l : List α} {s : σ} {e : ε}
    (h : l.foldlM f s = .error e) :
    ∃ done a rest mid, l = done ++ a :: rest ∧ done.foldlM f s = .ok mid ∧ f mid a = .error e := by
  induction l generalizing s with
  | nil => cases h
  | cons a rest ih =>
      rw [List.foldlM_cons, except_bind_eq_error] at h
      rcases h with h | ⟨mid, ha, h⟩
      · exact ⟨[], a, rest, s, rfl, rfl, h⟩
      · obtain ⟨done, b, later, last, rfl, reached, failed⟩ := ih h
        refine ⟨a :: done, b, later, last, rfl, ?_, failed⟩
        rw [List.foldlM_cons, ha]
        exact reached

/-- A list of checks run in order, stopping at the first failure. -/
def forEach {ε α : Type} (l : List α) (check : α → Except ε Unit) :
    Except ε Unit :=
  match l with
  | [] => .ok ()
  | a :: rest => check a >>= fun _ => forEach rest check

@[simp] theorem forEach_eq_ok {ε α : Type} {l : List α} {check : α → Except ε Unit}
    {u : Unit} : forEach l check = .ok u ↔ ∀ a ∈ l, check a = .ok () := by
  induction l with
  | nil => simp [forEach]
  | cons a rest ih =>
      rw [forEach, except_bind_eq_ok, List.forall_mem_cons]
      constructor
      · rintro ⟨_, ha, hrest⟩
        exact ⟨ha, ih.mp hrest⟩
      · rintro ⟨ha, hrest⟩
        exact ⟨(), ha, ih.mpr hrest⟩

end Sgfx
