import Sgfx.Library.Fallible

/-!
# Computations that follow others

One computation follows another if it succeeds wherever the other does, and reaches a related
state.  It may be more lenient than the other; a strict follower is not, and fails with the same
error wherever the other fails.

## Main Definitions

* `Follows.Check` — one check follows another
* `Fallible.Follows`

## Main Results

* `Follows.bind`, `Follows.check_bind`, `Follows.zoom`
-/

namespace Sgfx.Fallible

variable {σ τ ρ υ ε α β γ δ : Type} {strict : Prop}

/-- The second check answers what the first answers, and, if strict, fails as the first fails. -/
structure Follows.Check (strict : Prop) (x y : Except ε α) : Prop where
  ok : ∀ a, x = .ok a → y = .ok a
  error : strict → x = y

/-- Wherever the first computation succeeds, so does the second, and, if strict, it fails as the
first fails. -/
def Follows (strict : Prop) (m : Fallible σ ε α) (n : Fallible τ ε β) (s : σ) (t : τ)
    (ok : α → β → σ → τ → Prop) : Prop :=
  match m s with
  | (.ok a, s') => ∃ b t', n t = (.ok b, t') ∧ ok a b s' t'
  | (.error e, _) => strict → (n t).1 = .error e

namespace Follows

namespace Check

variable {x y : Except ε α} {f g : α → Except ε β} {l : List α}

theorem refl (x : Except ε α) : Check strict x x := ⟨fun _ h => h, fun _ => rfl⟩

theorem of_eq (h : x = y) : Check strict x y := h ▸ refl x

theorem bind (first : Check strict x y) (rest : ∀ a, x = .ok a → Check strict (f a) (g a)) :
    Check strict (x >>= f) (y >>= g) := by
  constructor
  · intro b h
    obtain ⟨a, hx, hf⟩ := except_bind_eq_ok.mp h
    exact except_bind_eq_ok.mpr ⟨a, first.ok a hx, (rest a hx).ok b hf⟩
  · intro hstrict
    rw [← first.error hstrict]
    cases hx : x with
    | ok a => exact (rest a hx).error hstrict
    | error e => rfl

/-- The follower fails for fewer reasons. -/
theorem failIf {P Q : Prop} [Decidable P] [Decidable Q] {e : ε} (weaker : Q → P)
    (same : strict → P → Q) : Check strict (failIf P e) (Sgfx.failIf Q e) := by
  constructor
  · intro _ h
    rw [failIf_eq_ok] at h ⊢
    exact fun hQ => h (weaker hQ)
  · intro hstrict
    unfold Sgfx.failIf
    by_cases hP : P
    · rw [if_pos hP, if_pos (same hstrict hP)]
    · rw [if_neg hP, if_neg fun hQ => hP (weaker hQ)]

theorem forEach {check check' : α → Except ε Unit}
    (each : ∀ a ∈ l, Check strict (check a) (check' a)) :
    Check strict (forEach l check) (Sgfx.forEach l check') := by
  induction l with
  | nil => exact refl _
  | cons a rest ih =>
    exact (each a List.mem_cons_self).bind fun _ _ =>
      ih fun b hb => each b (List.mem_cons_of_mem a hb)

theorem foldlM {step step' : γ → α → Except ε γ} (each : ∀ c a, Check strict (step c a) (step' c a))
    (c : γ) : Check strict (l.foldlM step c) (l.foldlM step' c) := by
  induction l generalizing c with
  | nil => exact refl _
  | cons a rest ih =>
    rw [List.foldlM_cons, List.foldlM_cons]
    exact (each c a).bind fun c' _ => ih c'

end Check

variable {m : Fallible σ ε α} {n : Fallible τ ε β} {f : α → Fallible σ ε γ}
  {g : β → Fallible τ ε δ} {s : σ} {t : τ} {ok ok' : α → β → σ → τ → Prop}
  {next : γ → δ → σ → τ → Prop}

theorem imp (h : Follows strict m n s t ok) (hok : ∀ a b s' t', ok a b s' t' → ok' a b s' t') :
    Follows strict m n s t ok' := by
  unfold Follows at h ⊢
  split at h
  · obtain ⟨b, t', hn, h⟩ := h
    exact ⟨b, t', hn, hok _ _ _ _ h⟩
  · exact h

/-- What the follower of a successful run does. -/
theorem of_eq_ok {s' : σ} {a : α} (h : Follows strict m n s t ok) (hm : m s = (.ok a, s')) :
    ∃ b t', n t = (.ok b, t') ∧ ok a b s' t' := by
  rwa [Follows, hm] at h

/-- A strict follower fails as the run does. -/
theorem of_eq_error {s' : σ} {e : ε} (h : Follows strict m n s t ok) (hstrict : strict)
    (hm : m s = (.error e, s')) : (n t).1 = .error e := by
  rw [Follows, hm] at h
  exact h hstrict

theorem pure {a : α} {b : β} (h : ok a b s t) :
    Follows strict (Pure.pure a : Fallible σ ε α) (Pure.pure b : Fallible τ ε β) s t ok :=
  ⟨b, t, rfl, h⟩

theorem bind (first : Follows strict m n s t ok)
    (rest : ∀ a b s' t', ok a b s' t' → Follows strict (f a) (g b) s' t' next) :
    Follows strict (m >>= f) (n >>= g) s t next := by
  rcases hm : m s with ⟨e | a, s'⟩
  · rw [Follows, bind_run, hm]
    intro hstrict
    have hn := first.of_eq_error hstrict hm
    rw [bind_run]
    rcases hrun : n t with ⟨e' | b, t'⟩
    · rw [hrun] at hn
      obtain rfl := Except.error.inj hn
      rfl
    · rw [hrun] at hn
      cases hn
  · obtain ⟨b, t', hn, h⟩ := first.of_eq_ok hm
    have hrest := rest a b s' t' h
    rw [Follows, bind_run, hm, bind_run, hn]
    exact hrest

/-- A check and one that follows it. -/
theorem check_bind {x y : Except ε ρ} {f : ρ → Fallible σ ε γ} {g : ρ → Fallible τ ε δ}
    (first : Check strict x y)
    (rest : ∀ a, x = .ok a → Follows strict (f a) (g a) s t next) :
    Follows strict ((liftM x : Fallible σ ε ρ) >>= f) ((liftM y : Fallible τ ε ρ) >>= g) s t next := by
  cases hx : x with
  | ok a =>
    rw [first.ok a hx]
    exact rest a hx
  | error e =>
    intro hstrict
    rw [← first.error hstrict, hx]
    rfl

/-- The same check on both sides. -/
theorem same_bind {x : Except ε ρ} {f : ρ → Fallible σ ε γ} {g : ρ → Fallible τ ε δ}
    (rest : ∀ a, x = .ok a → Follows strict (f a) (g a) s t next) :
    Follows strict ((liftM x : Fallible σ ε ρ) >>= f) ((liftM x : Fallible τ ε ρ) >>= g) s t next :=
  check_bind (.refl x) rest

theorem read_bind {f : σ → Fallible σ ε γ} {g : τ → Fallible τ ε δ}
    (rest : Follows strict (f s) (g t) s t next) :
    Follows strict ((read : Fallible σ ε σ) >>= f) ((read : Fallible τ ε τ) >>= g) s t next := rest

theorem update {h : σ → σ} {k : τ → τ} {ok : Unit → Unit → σ → τ → Prop}
    (hok : ok () () (h s) (k t)) :
    Follows strict (Fallible.update h : Fallible σ ε Unit) (Fallible.update k) s t ok :=
  ⟨(), k t, rfl, hok⟩

theorem update_bind {h : σ → σ} {k : τ → τ} {f : Unit → Fallible σ ε γ} {g : Unit → Fallible τ ε δ}
    (rest : Follows strict (f ()) (g ()) (h s) (k t) next) :
    Follows strict ((Fallible.update h : Fallible σ ε Unit) >>= f)
      ((Fallible.update k : Fallible τ ε Unit) >>= g) s t next := rest

/-- Two runs on components of the states. -/
theorem zoom {get : σ → ρ} {put : σ → ρ → σ} {get' : τ → υ} {put' : τ → υ → τ}
    {m : Fallible ρ ε α} {n : Fallible υ ε β} {inner : α → β → ρ → υ → Prop}
    (h : Follows strict m n (get s) (get' t) inner)
    (hok : ∀ a b r u, inner a b r u → ok a b (put s r) (put' t u)) :
    Follows strict (Fallible.zoom get put m) (Fallible.zoom get' put' n) s t ok := by
  unfold Follows at h ⊢
  rw [Fallible.zoom]
  split at h
  · rename_i hm
    obtain ⟨b, u, hn, h⟩ := h
    rw [hm]
    exact ⟨b, put' t u, by rw [Fallible.zoom, hn], hok _ _ _ _ h⟩
  · rename_i hm
    rw [hm]
    exact h

/-- Two runs that end as those of parts of them end. -/
theorem of_parts {m : Fallible ρ ε γ} {n : Fallible υ ε δ} {M : Fallible σ ε α} {N : Fallible τ ε β}
    {r : ρ} {u : υ} {inner : γ → δ → ρ → υ → Prop} (h : Follows strict m n r u inner)
    (hok : ∀ c d r' u', m r = (.ok c, r') → n u = (.ok d, u') → inner c d r' u' →
      Follows strict M N s t ok)
    (herror : ∀ e r', m r = (.error e, r') → ∃ s', M s = (.error e, s'))
    (herror' : ∀ e u', n u = (.error e, u') → (N t).1 = .error e) : Follows strict M N s t ok := by
  match hm : m r with
  | (.ok c, r') =>
    obtain ⟨d, u', hn, hinner⟩ := h.of_eq_ok hm
    exact hok c d r' u' hm hn hinner
  | (.error e, r') =>
    obtain ⟨s', hM⟩ := herror e r' hm
    rw [Follows, hM]
    intro hstrict
    exact herror' e (n u).2 (Prod.ext (h.of_eq_error hstrict hm) rfl)

end Follows

end Sgfx.Fallible
