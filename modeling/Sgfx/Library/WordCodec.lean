import Mathlib.Algebra.Group.Nat.Defs
import Mathlib.Data.List.Basic
import Mathlib.Tactic.Common
import Sgfx.Library.Fallible

/-!
# Reading values off a row of words

A value is written as a list of words and read off the front of a row, which may go on
after it.  `Reads m words a` says that the reader `m` takes exactly `words` off and answers
`a`, whatever follows; such facts compose as the readers do.

A `Codec` is a writer and a reader of one type, and the combinators for options, lists and
enumerations read back what they write when their parts do.

## Main Definitions

* `Reader`, `Reads`, `Refuses`, `Answers`, `Yields`
* `Codec`, `Codec.ReadsBack`, `Codec.Canonical`
* `Codec.option`, `Codec.list`, `Codec.enumeration`

## Main Results

* `Reads.bind`, `Reads.lift_bind`, `Refuses.bind`, `Reads.bind_refuses`, `Answers.bind`,
  `Yields.bind`
* `Codec.option_readsBack`, `Codec.list_reads`, `Codec.enumeration_readsBack`
-/

namespace Sgfx

variable {W ε α β : Type}

/-- A reader takes words off the front of a row. -/
abbrev Reader (W ε α : Type) : Type := Fallible (List W) ε α

namespace Reader

/-- The next word, or an error at the end of the row. -/
def word (e : ε) : Reader W ε W
  | [] => (.error e, [])
  | word :: rest => (.ok word, rest)

/-- The next `count` words, or an error if there are fewer. -/
def take (count : Nat) (e : ε) : Reader W ε (List W) := fun words =>
  if words.length < count then (.error e, words) else (.ok (words.take count), words.drop count)

/-- Read `count` times. -/
def repeated (m : Reader W ε α) : Nat → Reader W ε (List α)
  | 0 => pure []
  | count + 1 => do
      let first ← m
      let rest ← repeated m count
      pure (first :: rest)

end Reader

/-- The reader takes exactly these words off the front of any row, and answers `a`. -/
def Reads (m : Reader W ε α) (words : List W) (a : α) : Prop :=
  ∀ rest, m (words ++ rest) = (.ok a, rest)

namespace Reads

variable {m : Reader W ε α} {f : α → Reader W ε β} {words more : List W} {a : α} {b : β} {e : ε}

theorem pure (a : α) : Reads (Pure.pure a : Reader W ε α) [] a := fun _ => rfl

theorem bind (first : Reads m words a) (rest : Reads (f a) more b) :
    Reads (m >>= f) (words ++ more) b := by
  intro after
  rw [Fallible.bind_run, List.append_assoc, first]
  exact rest after

/-- A check that takes nothing. -/
theorem lift {x : Except ε α} (h : x = .ok a) : Reads (liftM x : Reader W ε α) [] a := by
  intro after
  rw [h]
  rfl

theorem lift_bind {x : Except ε α} (h : x = .ok a) (rest : Reads (f a) words b) :
    Reads ((liftM x : Reader W ε α) >>= f) words b := by
  have := (lift (W := W) h).bind rest
  rwa [List.nil_append] at this

/-- The last part is read, and the answer computed from it. -/
theorem bind_pure {g : α → β} (first : Reads m words a) (h : g a = b) :
    Reads (m >>= fun a => Pure.pure (g a)) words b := by
  have := first.bind (f := fun a => Pure.pure (g a)) (pure (g a))
  rwa [List.append_nil, h] at this

theorem bind_lift {g : α → Except ε β} (first : Reads m words a) (h : g a = .ok b) :
    Reads (m >>= fun a => (liftM (g a) : Reader W ε β)) words b := by
  have := first.bind (f := fun a => liftM (g a)) (lift h)
  rwa [List.append_nil] at this

theorem word (w : W) : Reads (Reader.word e) [w] w := fun _ => rfl

theorem take : Reads (Reader.take words.length e) words words := by
  intro after
  unfold Reader.take
  rw [if_neg (by simp), List.take_left, List.drop_left]

/-- What follows a value is left to the rest of the reader. -/
theorem bind_run (first : Reads m words a) (rest : List W) :
    (m >>= f) (words ++ rest) = f a rest := by
  rw [Fallible.bind_run, first]

theorem lift_bind_run {x : Except ε α} (h : x = .ok a) (rest : List W) :
    ((liftM x : Reader W ε α) >>= f) rest = f a rest := by
  rw [h]
  rfl

/-- A row that is nothing but the value. -/
theorem whole (h : Reads m words a) : m words = (.ok a, []) := by
  have := h []
  rwa [List.append_nil] at this

theorem repeated {put : β → List W} {answer : β → α} {values : List β}
    (h : ∀ b ∈ values, Reads m (put b) (answer b)) :
    Reads (Reader.repeated m values.length) (values.flatMap put) (values.map answer) := by
  induction values with
  | nil => exact pure []
  | cons first rest ih =>
    have hrest := ih fun b hb => h b (List.mem_cons_of_mem _ hb)
    exact (h first List.mem_cons_self).bind (hrest.bind_pure rfl)

end Reads

/-- The reader fails when these words are at the front. -/
def Refuses (m : Reader W ε α) (words : List W) : Prop :=
  ∀ rest, ∃ e after, m (words ++ rest) = (.error e, after)

section Refuses

variable {m : Reader W ε α} {f : α → Reader W ε β} {words more : List W} {a : α} {e : ε}

theorem Refuses.bind (first : Refuses m words) : Refuses (m >>= f) (words ++ more) := by
  intro rest
  obtain ⟨e, after, failed⟩ := first (more ++ rest)
  refine ⟨e, after, ?_⟩
  rw [Fallible.bind_run, List.append_assoc, failed]

theorem Reads.bind_refuses (first : Reads m words a) (later : Refuses (f a) more) :
    Refuses (m >>= f) (words ++ more) := by
  intro rest
  obtain ⟨e, after, failed⟩ := later rest
  refine ⟨e, after, ?_⟩
  rw [List.append_assoc, first.bind_run]
  exact failed

/-- The last part is refused. -/
theorem Refuses.bind_last (last : Refuses m words) : Refuses (m >>= f) words := by
  have : Refuses (m >>= f) (words ++ []) := last.bind
  rwa [List.append_nil] at this

theorem Reads.bind_refuses_last (first : Reads m words a) (later : Refuses (f a) []) :
    Refuses (m >>= f) words := by
  have := first.bind_refuses later
  rwa [List.append_nil] at this

theorem Refuses.lift {x : Except ε α} (h : x = .error e) :
    Refuses (liftM x : Reader W ε α) words := by
  intro rest
  refine ⟨e, words ++ rest, ?_⟩
  rw [h]
  rfl

theorem Refuses.lift_bind_ok {x : Except ε α} (h : x = .ok a) (later : Refuses (f a) words) :
    Refuses ((liftM x : Reader W ε α) >>= f) words := by
  intro rest
  rw [Reads.lift_bind_run h]
  exact later rest

theorem Refuses.lift_bind {x : Except ε α} (h : x = .error e) :
    Refuses ((liftM x : Reader W ε α) >>= f) words := by
  intro rest
  refine ⟨e, words ++ rest, ?_⟩
  rw [h]
  rfl

theorem Refuses.not_reads (h : Refuses m words) (rest : List W) {after : List W} :
    m (words ++ rest) ≠ (.ok a, after) := by
  intro read
  obtain ⟨e, after', failed⟩ := h rest
  rw [failed] at read
  cases read

/-- Some value of a list is refused. -/
theorem Refuses.repeated {put : β → List W} {answer : β → α} {values : List β}
    (each : ∀ b ∈ values, Reads m (put b) (answer b) ∨ Refuses m (put b))
    (some : ∃ b ∈ values, Refuses m (put b)) :
    Refuses (Reader.repeated m values.length) (values.flatMap put) := by
  induction values with
  | nil =>
    obtain ⟨b, member, -⟩ := some
    cases member
  | cons first rest ih =>
    rw [List.flatMap_cons]
    rcases each first List.mem_cons_self with reads | refuses
    · by_cases here : Refuses m (put first)
      · exact here.bind
      · obtain ⟨b, member, refuses⟩ := some
        have later : b ∈ rest := by
          rcases List.mem_cons.mp member with rfl | member
          · exact absurd refuses here
          · exact member
        have rest' := ih (fun b hb => each b (List.mem_cons_of_mem _ hb)) ⟨b, later, refuses⟩
        exact reads.bind_refuses rest'.bind_last
    · exact refuses.bind

end Refuses

/-- The reader comes to this outcome on the words: it takes exactly these off any row, or fails. -/
def Answers (m : Reader W ε α) (words : List W) : Except ε α → Prop
  | .ok a => Reads m words a
  | .error e => ∀ rest, ∃ after, m (words ++ rest) = (.error e, after)

section Answers

variable {m : Reader W ε α} {f : α → Reader W ε β} {words more : List W} {a : α}
  {x : Except ε α} {y : Except ε β} {g : α → Except ε β}

theorem Answers.pure (a : α) : Answers (Pure.pure a : Reader W ε α) [] (.ok a) := Reads.pure a

theorem Answers.lift (x : Except ε α) : Answers (liftM x : Reader W ε α) [] x := by
  cases x with
  | ok a => exact Reads.lift rfl
  | error e => exact fun rest => ⟨rest, rfl⟩

theorem Answers.bind (first : Answers m words x) (rest : ∀ a, x = .ok a → Answers (f a) more (g a)) :
    Answers (m >>= f) (words ++ more) (x >>= g) := by
  cases x with
  | error e =>
    intro after
    obtain ⟨left, failed⟩ := first (more ++ after)
    exact ⟨left, by rw [Fallible.bind_run, List.append_assoc, failed]⟩
  | ok a =>
    have later := rest a rfl
    show Answers (m >>= f) (words ++ more) (g a)
    cases outcome : g a with
    | ok b =>
      rw [outcome] at later
      exact Reads.bind first later
    | error e =>
      rw [outcome] at later
      intro after
      obtain ⟨left, failed⟩ := later after
      exact ⟨left, by rw [List.append_assoc, Reads.bind_run first, failed]⟩

/-- What cannot fail does not decide the outcome. -/
theorem Reads.bind_answers (first : Reads m words a) (rest : Answers (f a) more y) :
    Answers (m >>= f) (words ++ more) y := by
  have both : Answers (m >>= f) (words ++ more) (Except.ok a >>= fun _ => y) :=
    Answers.bind (x := .ok a) first fun b same => Except.ok.inj same ▸ rest
  exact both

/-- What remains takes nothing. -/
theorem Reads.bind_answers_last (first : Reads m words a) (rest : Answers (f a) [] y) :
    Answers (m >>= f) words y := by
  have both := first.bind_answers rest
  rwa [List.append_nil] at both

theorem Answers.lift_bind (rest : ∀ a, x = .ok a → Answers (f a) words (g a)) :
    Answers ((liftM x : Reader W ε α) >>= f) words (x >>= g) := by
  have both := (Answers.lift (W := W) x).bind rest
  rwa [List.nil_append] at both

/-- A check that is passed. -/
theorem Answers.passed (h : x = .ok a) (rest : Answers (f a) words y) :
    Answers ((liftM x : Reader W ε α) >>= f) words y := by
  have both := Reads.bind_answers (Reads.lift (W := W) h) rest
  rwa [List.nil_append] at both

/-- The last part decides the outcome. -/
theorem Answers.bind_pure {k : α → β} (first : Answers m words x) :
    Answers (m >>= fun a => Pure.pure (k a)) words (x >>= fun a => .ok (k a)) := by
  have both := first.bind (f := fun a => Pure.pure (k a)) (g := fun a => .ok (k a))
    fun a _ => .pure (k a)
  rwa [List.append_nil] at both

/-- The answer of the last part is checked. -/
theorem Answers.bind_lift (first : Answers m words x) :
    Answers (m >>= fun a => (liftM (g a) : Reader W ε β)) words (x >>= g) := by
  have both := first.bind (f := fun a => liftM (g a)) fun a _ => .lift (g a)
  rwa [List.append_nil] at both

/-- The outcomes one after the other, up to the first failure. -/
theorem Answers.repeated {put : β → List W} {answer : β → Except ε α} {values : List β}
    (h : ∀ b ∈ values, Answers m (put b) (answer b)) :
    Answers (Reader.repeated m values.length) (values.flatMap put) (values.mapM answer) := by
  induction values with
  | nil => exact .pure []
  | cons first rest ih =>
    have later := ih fun b hb => h b (List.mem_cons_of_mem _ hb)
    rw [List.mapM_cons, List.flatMap_cons]
    exact (h first List.mem_cons_self).bind fun a _ => later.bind_pure

end Answers

/-- Whatever the reader answers, it took words that stand for it. -/
def Yields (m : Reader W ε α) (R : α → List W → Prop) : Prop :=
  ∀ words rest a, m words = (.ok a, rest) → ∃ taken, words = taken ++ rest ∧ R a taken

section Yields

variable {m : Reader W ε α} {f : α → Reader W ε β} {R : α → List W → Prop} {S : β → List W → Prop}
  {put : α → List W} {x : Except ε α}

theorem Yields.pure {a : α} (h : R a []) : Yields (Pure.pure a : Reader W ε α) R := by
  intro words rest b same
  cases same
  exact ⟨[], rfl, h⟩

theorem Yields.fail (e : ε) : Yields (Fallible.fail e : Reader W ε α) R := by
  intro words rest a failed
  cases failed

theorem Yields.imp {R' : α → List W → Prop} (h : Yields m R) (weaker : ∀ a taken, R a taken →
    R' a taken) : Yields m R' := by
  intro words rest a read
  obtain ⟨taken, split, related⟩ := h words rest a read
  exact ⟨taken, split, weaker a taken related⟩

theorem Yields.bind (first : Yields m R)
    (later : ∀ a taken, R a taken → Yields (f a) fun b more => S b (taken ++ more)) :
    Yields (m >>= f) S := by
  intro words rest b read
  obtain ⟨a, mid, one, two⟩ := Fallible.bind_eq_ok.mp read
  obtain ⟨taken, rfl, related⟩ := first words mid a one
  obtain ⟨more, rfl, both⟩ := later a taken related mid rest b two
  exact ⟨taken ++ more, (List.append_assoc ..).symm, both⟩

theorem Yields.lift (h : ∀ a, x = .ok a → R a []) : Yields (liftM x : Reader W ε α) R := by
  intro words rest a read
  rw [Fallible.lift_run, Prod.mk.injEq] at read
  obtain ⟨passed, rfl⟩ := read
  exact ⟨[], rfl, h a passed⟩

theorem Yields.lift_bind (later : ∀ a, x = .ok a → Yields (f a) S) :
    Yields ((liftM x : Reader W ε α) >>= f) S := by
  intro words rest b read
  obtain ⟨a, passed, two⟩ := Fallible.lift_bind_eq_ok.mp read
  exact later a passed words rest b two

/-- The answer is computed from the last part. -/
theorem Yields.bind_pure {g : α → β} (last : Yields m R) (h : ∀ a taken, R a taken → S (g a) taken) :
    Yields (m >>= fun a => Pure.pure (g a)) S := by
  refine last.bind fun a taken related => .pure ?_
  rw [List.append_nil]
  exact h a taken related

/-- The answer of the last part is checked. -/
theorem Yields.bind_lift {g : α → Except ε β} (last : Yields m R)
    (h : ∀ a taken b, R a taken → g a = .ok b → S b taken) :
    Yields (m >>= fun a => (liftM (g a) : Reader W ε β)) S := by
  intro words rest b read
  obtain ⟨a, mid, one, two⟩ := Fallible.bind_eq_ok.mp read
  obtain ⟨taken, rfl, related⟩ := last words mid a one
  rw [Fallible.lift_run, Prod.mk.injEq] at two
  obtain ⟨checked, rfl⟩ := two
  exact ⟨taken, rfl, h a taken b related checked⟩

theorem Yields.word (e : ε) : Yields (Reader.word e : Reader W ε W) fun w taken => taken = [w] := by
  intro words rest w read
  cases words with
  | nil => cases read
  | cons first words =>
    cases read
    exact ⟨[_], rfl, rfl⟩

theorem Yields.take (count : Nat) (e : ε) :
    Yields (Reader.take count e : Reader W ε (List W)) fun row taken =>
      taken = row ∧ row.length = count := by
  intro words rest row read
  unfold Reader.take at read
  split at read
  · cases read
  · rename_i enough
    cases read
    refine ⟨words.take count, (List.take_append_drop ..).symm, rfl, ?_⟩
    rw [List.length_take]
    omega

theorem Yields.repeated (h : Yields m R) (count : Nat) :
    Yields (m.repeated count) fun values taken => values.length = count ∧
      ∃ rows, List.Forall₂ R values rows ∧ taken = rows.flatten := by
  induction count with
  | zero => exact .pure ⟨rfl, [], .nil, rfl⟩
  | succ count ih =>
    refine h.bind fun a taken related => ih.bind_pure ?_
    rintro values _ ⟨length, rows, each, rfl⟩
    exact ⟨congrArg (· + 1) length, taken :: rows, .cons related each, rfl⟩

/-- All that a row holds was taken. -/
theorem Yields.whole {words : List W} {a : α} (h : Yields m R) (read : m words = (.ok a, [])) :
    R a words := by
  obtain ⟨taken, rfl, related⟩ := h words [] a read
  rwa [List.append_nil]

end Yields

/-! ## Codecs -/

/-- A writer and a reader. -/
structure Codec (W ε α : Type) where
  put : α → List W
  get : Reader W ε α

namespace Codec

/-- The codec reads back what it writes. -/
def ReadsBack (c : Codec W ε α) (a : α) : Prop := Reads c.get (c.put a) a

/-- Whatever is read is written as the words that it was read from. -/
def Canonical (c : Codec W ε α) : Prop :=
  ∀ {words rest : List W} {a : α}, c.get words = (.ok a, rest) → words = c.put a ++ rest

/-- A flag, and the value if there is one. -/
def option (flag : Codec W ε Bool) (c : Codec W ε α) : Codec W ε (Option α) where
  put value := flag.put value.isSome ++ (value.map c.put).getD []
  get := do
    if ← flag.get then
      let a ← c.get
      pure (some a)
    else
      pure none

theorem option_readsBack {flag : Codec W ε Bool} {c : Codec W ε α} {value : Option α}
    (hflag : ∀ b, flag.ReadsBack b) (h : ∀ a ∈ value, c.ReadsBack a) :
    (option flag c).ReadsBack value := by
  cases value with
  | none => exact (hflag false).bind (Reads.pure none)
  | some a => exact (hflag true).bind ((h a rfl).bind_pure rfl)

/-- The number of values, and the values.  A count that cannot fit is refused before any is
read. -/
def list (count : Codec W ε Nat) (c : Codec W ε α) (e : ε) : Codec W ε (List α) where
  put values := count.put values.length ++ values.flatMap c.put
  get := do
    let n ← count.get
    let words ← Fallible.read
    liftM (failIf (words.length < n) e)
    c.get.repeated n

theorem length_le_flatMap {put : α → List W} {values : List α} (h : ∀ a ∈ values, put a ≠ []) :
    values.length ≤ (values.flatMap put).length := by
  induction values with
  | nil => exact Nat.zero_le _
  | cons first rest ih =>
    have hfirst := List.length_pos_iff.mpr (h first List.mem_cons_self)
    have hrest := ih fun a ha => h a (List.mem_cons_of_mem _ ha)
    rw [List.length_cons, List.flatMap_cons, List.length_append]
    omega

/-- A list reads as its values do. -/
theorem list_reads {count : Codec W ε Nat} {c : Codec W ε α} {e : ε} {answer : α → α}
    {values : List α} (hcount : count.ReadsBack values.length)
    (h : ∀ a ∈ values, Reads c.get (c.put a) (answer a)) (hput : ∀ a ∈ values, c.put a ≠ []) :
    Reads (list count c e).get ((list count c e).put values) (values.map answer) := by
  refine Reads.bind hcount fun after => ?_
  have hroom : ¬ (values.flatMap c.put ++ after).length < values.length := by
    have := length_le_flatMap hput
    rw [List.length_append]
    omega
  rw [Fallible.read_bind_run, Fallible.bind_run, Fallible.lift_run, failIf, if_neg hroom]
  exact Reads.repeated h after

/-- A list is refused where one of its values is. -/
theorem list_refuses {count : Codec W ε Nat} {c : Codec W ε α} {e : ε} {answer : α → α}
    {values : List α} (hcount : count.ReadsBack values.length)
    (each : ∀ a ∈ values, Reads c.get (c.put a) (answer a) ∨ Refuses c.get (c.put a))
    (some : ∃ a ∈ values, Refuses c.get (c.put a)) (hput : ∀ a ∈ values, c.put a ≠ []) :
    Refuses (list count c e).get ((list count c e).put values) := by
  refine Reads.bind_refuses hcount fun after => ?_
  have hroom : ¬ (values.flatMap c.put ++ after).length < values.length := by
    have := length_le_flatMap hput
    rw [List.length_append]
    omega
  obtain ⟨error, after', failed⟩ := Refuses.repeated each some after
  refine ⟨error, after', ?_⟩
  rw [Fallible.read_bind_run, Fallible.bind_run, Fallible.lift_run, failIf, if_neg hroom]
  exact failed

theorem list_readsBack {count : Codec W ε Nat} {c : Codec W ε α} {e : ε} {values : List α}
    (hcount : count.ReadsBack values.length) (h : ∀ a ∈ values, c.ReadsBack a)
    (hput : ∀ a ∈ values, c.put a ≠ []) : (list count c e).ReadsBack values := by
  have hlist : Reads (list count c e).get ((list count c e).put values) (values.map id) :=
    list_reads hcount h hput
  rwa [List.map_id] at hlist

/-- The place of a value in the list of all values. -/
def enumeration [DecidableEq α] (number : Codec W ε Nat) (values : List α) (e : ε) :
    Codec W ε α where
  put a := number.put (values.idxOf a)
  get := do
    let n ← number.get
    liftM (okOr values[n]? e)

theorem enumeration_readsBack [DecidableEq α] {number : Codec W ε Nat} {values : List α} {e : ε}
    {a : α} (hnumber : number.ReadsBack (values.idxOf a)) (h : a ∈ values) :
    (enumeration number values e).ReadsBack a := by
  refine Reads.bind_lift hnumber ?_
  rw [okOr_eq_ok]
  exact List.getElem?_idxOf h

end Codec

end Sgfx
