import Sgfx.Library.Fallible

/-!
# Two computations in lockstep

Two computations over two states return the same answer or the same error, and reach related
states.  The relation may depend on the answer, and another one may hold after an error.

## Main Definitions

* `Fallible.Lockstep`

## Main Results

* `Lockstep.bind`, `Lockstep.lift_bind`, `Lockstep.zoom`
-/

namespace Sgfx.Fallible

variable {σ τ ρ υ ε α β : Type}

/-- The same outcome, in related states. -/
def Lockstep (m : Fallible σ ε α) (n : Fallible τ ε α) (s : σ) (t : τ) (ok : α → σ → τ → Prop)
    (error : σ → τ → Prop) : Prop :=
  match m s, n t with
  | (.ok a, s'), (.ok b, t') => a = b ∧ ok a s' t'
  | (.error e, s'), (.error e', t') => e = e' ∧ error s' t'
  | _, _ => False

namespace Lockstep

variable {m : Fallible σ ε α} {n : Fallible τ ε α} {f : α → Fallible σ ε β}
  {g : α → Fallible τ ε β} {s : σ} {t : τ} {ok ok' : α → σ → τ → Prop}
  {next : β → σ → τ → Prop} {error error' : σ → τ → Prop}

theorem imp (h : Lockstep m n s t ok error) (hok : ∀ a s' t', ok a s' t' → ok' a s' t')
    (herror : ∀ s' t', error s' t' → error' s' t') : Lockstep m n s t ok' error' := by
  unfold Lockstep at h ⊢
  split at h
  · exact ⟨h.1, hok _ _ _ h.2⟩
  · exact ⟨h.1, herror _ _ h.2⟩
  · exact h

/-- The answers and the errors are the same. -/
theorem same (h : Lockstep m n s t ok error) : (m s).1 = (n t).1 := by
  unfold Lockstep at h
  split at h
  · rename_i hm hn
    rw [hm, hn, h.1]
  · rename_i hm hn
    rw [hm, hn, h.1]
  · exact h.elim

/-- A relation of the states that holds after answers and after errors. -/
theorem state {R : σ → τ → Prop} (h : Lockstep m n s t (fun _ => R) R) : R (m s).2 (n t).2 := by
  unfold Lockstep at h
  split at h
  · rename_i hm hn
    rw [hm, hn]
    exact h.2
  · rename_i hm hn
    rw [hm, hn]
    exact h.2
  · exact h.elim

theorem pure {a : α} (h : ok a s t) :
    Lockstep (Pure.pure a : Fallible σ ε α) (Pure.pure a : Fallible τ ε α) s t ok error :=
  ⟨rfl, h⟩

/-- A computation is in lockstep with itself. -/
theorem refl (m : Fallible σ ε α) (s : σ) : Lockstep m m s s (fun _ => Eq) Eq := by
  unfold Lockstep
  rcases m s with ⟨a | e, s'⟩
  · exact ⟨rfl, rfl⟩
  · exact ⟨rfl, rfl⟩

theorem bind (first : Lockstep m n s t ok error)
    (rest : ∀ a s' t', ok a s' t' → Lockstep (f a) (g a) s' t' next error) :
    Lockstep (m >>= f) (n >>= g) s t next error := by
  unfold Lockstep at first
  rw [Lockstep, bind_run, bind_run]
  split at first
  · rename_i hm hn
    rw [hm, hn]
    obtain ⟨rfl, h⟩ := first
    exact rest _ _ _ h
  · rename_i hm hn
    rw [hm, hn]
    exact first
  · exact first.elim

/-- The same check on both sides. -/
theorem lift_bind {x : Except ε α} (rest : ∀ a, x = .ok a → Lockstep (f a) (g a) s t next error)
    (herror : ∀ e, x = .error e → error s t) :
    Lockstep ((liftM x : Fallible σ ε α) >>= f) ((liftM x : Fallible τ ε α) >>= g) s t next error := by
  rw [Lockstep, bind_run, bind_run, lift_run, lift_run]
  cases x with
  | ok a => exact rest a rfl
  | error e => exact ⟨rfl, herror e rfl⟩

theorem read_bind {f : σ → Fallible σ ε β} {g : τ → Fallible τ ε β}
    (rest : Lockstep (f s) (g t) s t next error) :
    Lockstep ((read : Fallible σ ε σ) >>= f) ((read : Fallible τ ε τ) >>= g) s t next error := rest

theorem update {h : σ → σ} {k : τ → τ} {ok : Unit → σ → τ → Prop} (hok : ok () (h s) (k t)) :
    Lockstep (Fallible.update h : Fallible σ ε Unit) (Fallible.update k) s t ok error := ⟨rfl, hok⟩

theorem update_bind {h : σ → σ} {k : τ → τ} {f : Unit → Fallible σ ε β}
    {g : Unit → Fallible τ ε β} (rest : Lockstep (f ()) (g ()) (h s) (k t) next error) :
    Lockstep ((Fallible.update h : Fallible σ ε Unit) >>= f)
      ((Fallible.update k : Fallible τ ε Unit) >>= g) s t next error := rest

/-- Two runs on components of the states. -/
theorem zoom {get : σ → ρ} {put : σ → ρ → σ} {get' : τ → υ} {put' : τ → υ → τ}
    {m : Fallible ρ ε α} {n : Fallible υ ε α} {inner : α → ρ → υ → Prop}
    {innerError : ρ → υ → Prop} (h : Lockstep m n (get s) (get' t) inner innerError)
    (hok : ∀ a r u, inner a r u → ok a (put s r) (put' t u))
    (herror : ∀ r u, innerError r u → error (put s r) (put' t u)) :
    Lockstep (Fallible.zoom get put m) (Fallible.zoom get' put' n) s t ok error := by
  unfold Lockstep at h ⊢
  rw [Fallible.zoom, Fallible.zoom]
  split at h
  · rename_i hm hn
    rw [hm, hn]
    exact ⟨h.1, hok _ _ _ h.2⟩
  · rename_i hm hn
    rw [hm, hn]
    exact ⟨h.1, herror _ _ h.2⟩
  · exact h.elim

end Lockstep

end Sgfx.Fallible
