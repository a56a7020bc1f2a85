import Sgfx.Library.Fallible

/-!
# Code that a computation emits

A compiler appends instructions to its state, and the instructions act on a store.  `Emits` says of
one run what the appended code does to every store that has the constants of the compiler.  A
program is taken apart as it is written: `Emits.bind` composes the code of its parts, `Emits.loop`
carries a relation between the store before a loop and the store after some of its turns.

Where a program fails it must be at a limit of the compiler.

## Main Definitions

* `Emitter` — how code is read off the states, what it does, and how states grow
* `Emitter.Emits`

## Main Results

* `Emits.pure`, `Emits.bind`, `Emits.loop`, `Emits.emit`
-/

namespace Sgfx

universe u

/-- A compiler, whose states have code for stores. -/
structure Emitter (σ ε ι : Type) (M : Type u) where
  /-- The code emitted so far. -/
  code : σ → List ι
  /-- What an instruction does, if it is understood. -/
  run : ι → M → Option M
  /-- A later state. -/
  Grows : σ → σ → Prop
  /-- The store has the constants of the state. -/
  Held : σ → M → Prop
  /-- The failure is at a limit of the compiler. -/
  Limit : ε → σ → Prop
  grows_refl : ∀ s, Grows s s
  grows_trans : ∀ {s t r}, Grows s t → Grows t r → Grows s r
  held_mono : ∀ {s t m}, Grows s t → Held t m → Held s m

namespace Emitter

variable {σ ε ι α β : Type} {M : Type u} (E : Emitter σ ε ι M)

/-- Instructions in order. -/
def runAll : List ι → M → Option M
  | [], m => some m
  | i :: rest, m => (E.run i m).bind (runAll rest)

theorem runAll_append (xs ys : List ι) (m : M) :
    E.runAll (xs ++ ys) m = (E.runAll xs m).bind (E.runAll ys) := by
  induction xs generalizing m with
  | nil => rfl
  | cons x xs ih =>
      rw [List.cons_append, runAll, runAll, Option.bind_assoc]
      exact congrArg _ (funext ih)

/-- No constant of any state is lost. -/
def Keeps (m m' : M) : Prop := ∀ s, E.Held s m → E.Held s m'

/-- The code between two states relates every store before it to the store after it. -/
structure Adds (s s' : σ) (Q : M → M → Prop) : Prop where
  grows : E.Grows s s'
  code : ∃ added, E.code s' = E.code s ++ added ∧
    ∀ m, E.Held s' m → ∃ m', E.runAll added m = some m' ∧ E.Keeps m m' ∧ Q m m'

/-- A run that succeeds ends as `P` says, and its code does what `Q` says. -/
def Emits (p : Fallible σ ε α) (s : σ) (P : α → σ → Prop) (Q : α → M → M → Prop) : Prop :=
  match p s with
  | (.ok a, s') => P a s' ∧ E.Adds s s' (Q a)
  | (.error e, s') => E.Limit e s'

variable {E} {s s' s'' : σ} {Q R : M → M → Prop}

theorem Adds.refl (h : ∀ m, Q m m) : E.Adds s s Q :=
  ⟨E.grows_refl s, [], (List.append_nil _).symm, fun m _ => ⟨m, rfl, fun _ held => held, h m⟩⟩

theorem Adds.imp (adds : E.Adds s s' R) (h : ∀ m m', R m m' → Q m m') : E.Adds s s' Q := by
  obtain ⟨grows, added, hcode, hrun⟩ := adds
  refine ⟨grows, added, hcode, fun m held => ?_⟩
  obtain ⟨m', hm', keeps, hR⟩ := hrun m held
  exact ⟨m', hm', keeps, h m m' hR⟩

/-- The code of one part, and then that of another one. -/
theorem Adds.trans {S : M → M → Prop} (first : E.Adds s s' R) (second : E.Adds s' s'' S)
    (h : ∀ m m' m'', R m m' → S m' m'' → Q m m'') : E.Adds s s'' Q := by
  obtain ⟨grows, added, hcode, hrun⟩ := first
  obtain ⟨grows', added', hcode', hrun'⟩ := second
  refine ⟨E.grows_trans grows grows', added ++ added', ?_, fun m held => ?_⟩
  · rw [hcode', hcode, List.append_assoc]
  · obtain ⟨m', hm', keeps, hR⟩ := hrun m (E.held_mono grows' held)
    obtain ⟨m'', hm'', keeps', hS⟩ := hrun' m' (keeps _ held)
    refine ⟨m'', ?_, fun t ht => keeps' t (keeps t ht), h m m' m'' hR hS⟩
    rw [runAll_append, hm']
    exact hm''

section Rules

variable {p : Fallible σ ε α} {f : α → Fallible σ ε β} {P P' : α → σ → Prop}
  {Q Q' : α → M → M → Prop} {P₂ : β → σ → Prop} {Q₂ : β → M → M → Prop}

theorem Emits.of_eq_ok {a : α} (h : E.Emits p s P Q) (run : p s = (.ok a, s')) :
    P a s' ∧ E.Adds s s' (Q a) := by
  rwa [Emits, run] at h

theorem Emits.imp (h : E.Emits p s P Q)
    (later : ∀ a s', E.Grows s s' → P a s' → P' a s' ∧ ∀ m m', Q a m m' → Q' a m m') :
    E.Emits p s P' Q' := by
  unfold Emits at h ⊢
  split at h
  · obtain ⟨hP, hadds⟩ := h
    obtain ⟨hP', hQ⟩ := later _ _ hadds.grows hP
    exact ⟨hP', hadds.imp hQ⟩
  · exact h

/-- What is answered without an instruction. -/
theorem Emits.pure {a : α} (hP : P a s) (hQ : ∀ m, Q a m m) : E.Emits (Pure.pure a) s P Q :=
  ⟨hP, Adds.refl hQ⟩

/-- Sequencing: the second part starts in a later state, and its stores are those that the first
part leaves. -/
theorem Emits.bind (first : E.Emits p s P Q)
    (rest : ∀ a s', E.Grows s s' → P a s' →
      E.Emits (f a) s' P₂ fun b m' m'' => ∀ m, Q a m m' → Q₂ b m m'') :
    E.Emits (p >>= f) s P₂ Q₂ := by
  unfold Emits at first
  rw [Emits, Fallible.bind_run]
  rcases hp : p s with ⟨e | a, s'⟩
  · rw [hp] at first
    exact first
  · rw [hp] at first
    obtain ⟨hP, hadds⟩ := first
    have second := rest a s' hadds.grows hP
    unfold Emits at second
    dsimp only
    rcases hf : f a s' with ⟨e | b, s''⟩
    · rw [hf] at second
      exact second
    · rw [hf] at second
      exact ⟨second.1, hadds.trans second.2 fun m m' m'' hQ hQ₂ => hQ₂ m hQ⟩

/-- A value that is there, without the state. -/
theorem Emits.lift {x : Except ε α} {a : α} (h : x = .ok a)
    (rest : E.Emits (f a) s P₂ Q₂) :
    E.Emits ((liftM x : Fallible σ ε α) >>= f) s P₂ Q₂ := by
  subst h
  exact rest

theorem Emits.read {f : σ → Fallible σ ε β} (rest : E.Emits (f s) s P₂ Q₂) :
    E.Emits (Fallible.read >>= f) s P₂ Q₂ := rest

/-- One instruction. -/
theorem Emits.emit {i : ι} {g : σ → σ} {Q : Unit → M → M → Prop} {P : Unit → σ → Prop}
    (grows : E.Grows s (g s)) (code : E.code (g s) = E.code s ++ [i]) (hP : P () (g s))
    (hrun : ∀ m, ∃ m', E.run i m = some m' ∧ E.Keeps m m' ∧ Q () m m') :
    E.Emits (Fallible.update g) s P Q := by
  refine ⟨hP, grows, [i], code, fun m _ => ?_⟩
  obtain ⟨m', hm', rest⟩ := hrun m
  exact ⟨m', by rw [runAll, hm']; rfl, rest⟩

/-- The loop rule: a relation between the store before the loop and the store after the turns that
are done, which each turn carries on. -/
theorem Emits.loop {l : List α} {f : α → Fallible σ ε Unit} (J : List α → M → M → Prop)
    (start : ∀ m, J [] m m)
    (step : ∀ done a rest s', l = done ++ a :: rest → E.Grows s s' →
      E.Emits (f a) s' (fun _ _ => True) fun _ m' m'' => ∀ m, J done m m' → J (done ++ [a]) m m'') :
    E.Emits (Fallible.loop l f) s (fun _ _ => True) fun _ => J l := by
  suffices general : ∀ (rest done : List α) (s' : σ), l = done ++ rest → E.Grows s s' →
      E.Emits (Fallible.loop rest f) s' (fun _ _ => True) fun _ m' m'' =>
        ∀ m, J done m m' → J l m m'' from
    (general l [] s rfl (E.grows_refl s)).imp fun _ _ _ _ =>
      ⟨trivial, fun m m' h => h m (start m)⟩
  intro rest
  induction rest with
  | nil =>
      intro done s' hl _
      rw [List.append_nil] at hl
      subst hl
      exact Emits.pure trivial fun m m₀ h => h
  | cons a rest ih =>
      intro done s' hl grows
      refine Emits.bind (step done a rest s' hl grows) fun _ s₁ grows₁ _ => ?_
      refine (ih (done ++ [a]) s₁ (by rw [hl, List.append_assoc]; rfl)
        (E.grows_trans grows grows₁)).imp fun _ _ _ _ => ⟨trivial, fun m' m'' h m hQ m₀ hJ => ?_⟩
      exact h m₀ (hQ m₀ hJ)

end Rules

end Emitter

end Sgfx
