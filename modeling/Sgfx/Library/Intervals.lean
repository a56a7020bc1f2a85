import Mathlib.Data.List.Basic
import Mathlib.Data.List.TakeWhile
import Mathlib.Order.MinMax
import Mathlib.Tactic.Common
import Mathlib.Tactic.Order

/-!
# Sets as rows of intervals

A set of numbers is kept as a row of half-open intervals in ascending order, with a gap between
each and the next.  `insertSpan` adds an interval, and replaces those that it meets or touches;
`coalesce` makes a row of intervals that are sorted by where they start into such a row.

## Main Definitions

* `Span`, `Covered`, `Separated`
* `insertSpan`, `coalesce`

## Main Results

* `Separated.insertSpan`, `covered_insertSpan`
* `separated_coalesce`, `covered_coalesce`
-/

namespace Sgfx

/-- What a monotone test fails from its first failure on. -/
theorem not_of_mem_dropWhile {α : Type} {R : α → α → Prop} {p : α → Bool} {l : List α}
    (ordered : l.Pairwise R) (mono : ∀ x ∈ l, ∀ y ∈ l, R x y → p x = false → p y = false) :
    ∀ x ∈ l.dropWhile p, p x = false := by
  induction l with
  | nil =>
      intro x member
      cases member
  | cons a l ih =>
      have ⟨first, rest⟩ := List.pairwise_cons.mp ordered
      rw [List.dropWhile_cons]
      split
      · exact ih rest fun x hx y hy =>
          mono x (List.mem_cons_of_mem _ hx) y (List.mem_cons_of_mem _ hy)
      · rename_i fails
        have fails : p a = false := by simpa using fails
        intro x member
        rcases List.mem_cons.mp member with rfl | later
        · exact fails
        · exact mono a List.mem_cons_self x member (first x later) fails

/-- A half-open interval. -/
structure Span (α : Type) where
  start : α
  stop : α
deriving DecidableEq, Repr

variable {α : Type} [LinearOrder α]

/-- What is in an interval. -/
def Span.Has (span : Span α) (x : α) : Prop := span.start ≤ x ∧ x < span.stop

/-- What is in some interval of a row. -/
def Covered (spans : List (Span α)) (x : α) : Prop := ∃ span ∈ spans, span.Has x

/-- Ascending intervals with a gap between each and the next. -/
structure Separated (spans : List (Span α)) : Prop where
  ordered : ∀ span ∈ spans, span.start ≤ span.stop
  apart : spans.Pairwise fun a b => a.stop < b.start

section Rows

variable {spans more low middle high : List (Span α)} {span new : Span α} {x : α}

@[simp] theorem covered_nil : ¬ Covered ([] : List (Span α)) x := by
  rintro ⟨_, member, _⟩
  cases member

theorem covered_append : Covered (spans ++ more) x ↔ Covered spans x ∨ Covered more x := by
  simp only [Covered, List.mem_append, or_and_right, exists_or]

theorem covered_cons : Covered (span :: more) x ↔ span.Has x ∨ Covered more x := by
  simp only [Covered, List.mem_cons, or_and_right, exists_or, exists_eq_left]

@[simp] theorem covered_singleton : Covered [span] x ↔ span.Has x := by
  rw [covered_cons]
  simp

theorem covered_perm (perm : spans.Perm more) : Covered spans x ↔ Covered more x := by
  simp only [Covered, perm.mem_iff]

theorem separated_nil : Separated ([] : List (Span α)) where
  ordered := by simp
  apart := .nil

end Rows

/-! ## Adding an interval -/

/-- What an interval that is added becomes, with those that it meets or touches. -/
def joinSpan (rest middle : List (Span α)) (new : Span α) : Span α where
  start := rest.head?.elim new.start fun first => min new.start first.start
  stop := middle.getLast?.elim new.stop fun last => max new.stop last.stop

/-- Add an interval to a row. -/
def insertSpan (spans : List (Span α)) (new : Span α) : List (Span α) :=
  let rest := spans.dropWhile fun span => decide (span.stop < new.start)
  let middle := rest.takeWhile fun span => decide (span.start ≤ new.stop)
  (spans.takeWhile fun span => decide (span.stop < new.start)) ++
    joinSpan rest middle new :: rest.dropWhile fun span => decide (span.start ≤ new.stop)

/-- The three parts of a row around an interval. -/
structure Around (spans : List (Span α)) (new : Span α) (low middle high : List (Span α)) :
    Prop where
  joined : spans = low ++ (middle ++ high)
  low_stop : ∀ span ∈ low, span.stop < new.start
  middle_start : ∀ span ∈ middle, span.start ≤ new.stop
  middle_stop : ∀ span ∈ middle, new.start ≤ span.stop
  high_start : ∀ span ∈ high, new.stop < span.start

section Insert

variable {spans low middle high : List (Span α)} {new : Span α} {x : α}

theorem Separated.around (h : Separated spans) :
    Around spans new (spans.takeWhile fun span => decide (span.stop < new.start))
      ((spans.dropWhile fun span => decide (span.stop < new.start)).takeWhile
        fun span => decide (span.start ≤ new.stop))
      ((spans.dropWhile fun span => decide (span.stop < new.start)).dropWhile
        fun span => decide (span.start ≤ new.stop)) := by
  have sub : (spans.dropWhile fun span => decide (span.stop < new.start)).Sublist spans :=
    List.dropWhile_sublist _
  have rest := not_of_mem_dropWhile (p := fun span => decide (span.stop < new.start)) h.apart
    fun a _ b hb order fails => by
      have := h.ordered b hb
      simp only [decide_eq_false_iff_not, not_lt] at fails ⊢
      order
  have last := not_of_mem_dropWhile (p := fun span => decide (span.start ≤ new.stop))
    (h.apart.sublist sub) fun a ha b _ order fails => by
      have := h.ordered a (sub.subset ha)
      simp only [decide_eq_false_iff_not, not_le] at fails ⊢
      order
  exact {
    joined := by rw [List.takeWhile_append_dropWhile, List.takeWhile_append_dropWhile]
    low_stop := fun span member => by simpa using List.mem_takeWhile_imp member
    middle_start := fun span member => by simpa using List.mem_takeWhile_imp member
    middle_stop := fun span member => by
      simpa using rest span ((List.takeWhile_sublist _).subset member)
    high_start := fun span member => by simpa using last span member }

/-- The first interval of a row starts first. -/
theorem Separated.head_le {first span : Span α} (h : Separated spans)
    (head : spans.head? = some first) (member : span ∈ spans) : first.start ≤ span.start := by
  obtain ⟨tail, rfl⟩ := List.head?_eq_some_iff.mp head
  obtain rfl | later := List.mem_cons.mp member
  · exact le_rfl
  · have := (List.pairwise_cons.mp h.apart).1 span later
    have := h.ordered first List.mem_cons_self
    order

/-- The last interval of a row stops last. -/
theorem Separated.le_last {last span : Span α} (h : Separated spans)
    (final : spans.getLast? = some last) (member : span ∈ spans) : span.stop ≤ last.stop := by
  obtain ⟨init, rfl⟩ := List.getLast?_eq_some_iff.mp final
  obtain earlier | only := List.mem_append.mp member
  · have := (List.pairwise_append.mp h.apart).2.2 span earlier last (by simp)
    have := h.ordered last (by simp)
    order
  · rw [List.mem_singleton.mp only]

theorem Separated.sublist (h : Separated spans) {part : List (Span α)} (sub : part.Sublist spans) :
    Separated part where
  ordered span member := h.ordered span (sub.subset member)
  apart := h.apart.sublist sub

/-- Where the joined interval starts. -/
theorem Around.join_start (around : Around spans new low middle high) (h : Separated spans)
    (order : new.start ≤ new.stop) {bound : α} :
    (joinSpan (middle ++ high) middle new).start ≤ bound ↔
      new.start ≤ bound ∨ ∃ span ∈ middle, span.start ≤ bound := by
  have sub : (middle ++ high).Sublist spans := around.joined ▸ List.sublist_append_right ..
  unfold joinSpan
  cases head : (middle ++ high).head? with
  | none => simp [(List.append_eq_nil_iff.mp (List.head?_eq_none_iff.mp head)).1]
  | some first =>
      simp only [Option.elim_some, min_le_iff]
      constructor
      · rintro (hnew | hfirst)
        · exact .inl hnew
        · obtain inner | outer := List.mem_append.mp (List.mem_of_head? head)
          · exact .inr ⟨first, inner, hfirst⟩
          · have := around.high_start first outer
            exact .inl (by order)
      · rintro (hnew | ⟨span, member, hspan⟩)
        · exact .inl hnew
        · exact .inr (le_trans ((h.sublist sub).head_le head (List.mem_append_left _ member)) hspan)

/-- Where it stops. -/
theorem Around.join_stop (around : Around spans new low middle high) (h : Separated spans)
    {bound : α} :
    bound < (joinSpan (middle ++ high) middle new).stop ↔
      bound < new.stop ∨ ∃ span ∈ middle, bound < span.stop := by
  have sub : middle.Sublist spans := by
    rw [around.joined]
    exact (List.sublist_append_left ..).trans (List.sublist_append_right ..)
  unfold joinSpan
  cases final : middle.getLast? with
  | none => simp [List.getLast?_eq_none_iff.mp final]
  | some last =>
      simp only [Option.elim_some, lt_max_iff]
      refine or_congr_right ⟨fun hlast => ⟨last, List.mem_of_getLast? final, hlast⟩, ?_⟩
      rintro ⟨span, member, hspan⟩
      exact lt_of_lt_of_le hspan ((h.sublist sub).le_last final member)

/-- The joined interval is what was added and the part in the middle together. -/
theorem Around.has_join (around : Around spans new low middle high) (h : Separated spans)
    (order : new.start ≤ new.stop) :
    (joinSpan (middle ++ high) middle new).Has x ↔ new.Has x ∨ Covered middle x := by
  unfold Span.Has
  rw [around.join_start h order, around.join_stop h]
  constructor
  · rintro ⟨hstart, hstop⟩
    -- before, in or after what was added
    rcases lt_or_ge x new.start with before | from_start
    · obtain hnew | ⟨span, member, hspan⟩ := hstart
      · order
      · have := around.middle_stop span member
        exact .inr ⟨span, member, hspan, by order⟩
    · rcases lt_or_ge x new.stop with inside | after
      · exact .inl ⟨from_start, inside⟩
      · obtain hnew | ⟨span, member, hspan⟩ := hstop
        · order
        · have := around.middle_start span member
          exact .inr ⟨span, member, by order, hspan⟩
  · rintro (⟨hstart, hstop⟩ | ⟨span, member, hstart, hstop⟩)
    · exact ⟨.inl hstart, .inl hstop⟩
    · exact ⟨.inr ⟨span, member, hstart⟩, .inr ⟨span, member, hstop⟩⟩

/-- Nothing but the interval is added. -/
theorem covered_insertSpan (h : Separated spans) (order : new.start ≤ new.stop) :
    Covered (insertSpan spans new) x ↔ Covered spans x ∨ new.Has x := by
  have around : Around spans new _ _ _ := h.around
  have hjoin := around.has_join h order (x := x)
  rw [List.takeWhile_append_dropWhile] at hjoin
  have hall : Covered spans x ↔ _ := iff_of_eq (congrArg (Covered · x) around.joined)
  rw [hall, insertSpan, covered_append, covered_cons, hjoin, covered_append, covered_append]
  tauto

theorem joinSpan_stop (rest middle : List (Span α)) (new : Span α) :
    (joinSpan rest middle new).stop = new.stop ∨
      ∃ span ∈ middle, (joinSpan rest middle new).stop = span.stop := by
  unfold joinSpan
  cases final : middle.getLast? with
  | none => exact .inl rfl
  | some last =>
      rcases max_choice new.stop last.stop with here | there
      · exact .inl here
      · exact .inr ⟨last, List.mem_of_getLast? final, there⟩

/-- The joined interval has all of the one that was added. -/
theorem Around.join_bounds (around : Around spans new low middle high) (h : Separated spans)
    (order : new.start ≤ new.stop) :
    (joinSpan (middle ++ high) middle new).start ≤ new.start ∧
      new.stop ≤ (joinSpan (middle ++ high) middle new).stop :=
  ⟨(around.join_start h order).mpr (.inl le_rfl),
    not_lt.mp fun short => lt_irrefl _ ((around.join_stop h).mpr (.inl short))⟩

/-- The intervals of the new row. -/
theorem mem_insertSpan (h : Separated spans) (order : new.start ≤ new.stop) {span : Span α}
    (member : span ∈ insertSpan spans new) :
    span ∈ spans ∨ span.start ≤ new.start ∧ new.stop ≤ span.stop := by
  have around : Around spans new _ _ _ := h.around
  have bounds := around.join_bounds h order
  rw [List.takeWhile_append_dropWhile] at bounds
  rw [insertSpan, List.mem_append, List.mem_cons] at member
  obtain first | rfl | last := member
  · exact .inl ((List.takeWhile_sublist _).subset first)
  · exact .inr bounds
  · exact .inl ((List.dropWhile_sublist _).subset ((List.dropWhile_sublist _).subset last))

/-- The parts around the joined interval are in order. -/
theorem Around.separated (around : Around spans new low middle high) (h : Separated spans)
    (order : new.start ≤ new.stop) :
    Separated (low ++ joinSpan (middle ++ high) middle new :: high) := by
  have parts := h.apart
  rw [around.joined] at parts
  obtain ⟨hlow, hrest, hacross⟩ := List.pairwise_append.mp parts
  obtain ⟨-, hhigh, hmiddle⟩ := List.pairwise_append.mp hrest
  have member (span : Span α) (hspan : span ∈ low ∨ span ∈ high) : span ∈ spans := by
    rw [around.joined, List.mem_append, List.mem_append]
    exact hspan.imp_right .inr
  obtain ⟨hstart, hstop⟩ := around.join_bounds h order
  constructor
  · intro span hspan
    rw [List.mem_append, List.mem_cons] at hspan
    obtain first | rfl | last := hspan
    · exact h.ordered span (member span (.inl first))
    · order
    · exact h.ordered span (member span (.inr last))
  · refine List.pairwise_append.mpr ⟨hlow, List.pairwise_cons.mpr ⟨fun b hb => ?_, hhigh⟩, ?_⟩
    · obtain same | ⟨span, inner, same⟩ := joinSpan_stop (middle ++ high) middle new
      · rw [same]
        exact around.high_start b hb
      · rw [same]
        exact hmiddle span inner b hb
    · intro a ha b hb
      obtain rfl | last := List.mem_cons.mp hb
      · refine not_le.mp fun before => ?_
        obtain hnew | ⟨span, inner, hspan⟩ := (around.join_start h order).mp before
        · have := around.low_stop a ha
          order
        · have := hacross a ha span (List.mem_append_left _ inner)
          order
      · exact hacross a ha b (List.mem_append_right _ last)

/-- The row stays in order. -/
theorem Separated.insertSpan (h : Separated spans) (order : new.start ≤ new.stop) :
    Separated (insertSpan spans new) := by
  have around : Around spans new _ _ _ := h.around
  have separated := around.separated h order
  rwa [List.takeWhile_append_dropWhile] at separated

end Insert

/-! ## Merging intervals that are sorted -/

/-- One interval more, onto the row in descending order. -/
def coalesceStep : List (Span α) → Span α → List (Span α)
  | [], span => [span]
  | top :: rest, span =>
      if span.start ≤ top.stop then { top with stop := max top.stop span.stop } :: rest
      else span :: top :: rest

/-- Merge intervals that are sorted by where they start. -/
def coalesce (spans : List (Span α)) : List (Span α) := (spans.foldl coalesceStep []).reverse

/-- A row in descending order, all of which starts before any of the intervals that follow. -/
structure Stacked (row spans : List (Span α)) : Prop where
  ordered : ∀ span ∈ row, span.start ≤ span.stop
  apart : row.Pairwise fun a b => b.stop < a.start
  before : ∀ a ∈ row, ∀ span ∈ spans, a.start ≤ span.start

section Coalesce

variable {row spans : List (Span α)} {span : Span α} {x : α}

/-- One turn keeps the order. -/
theorem Stacked.step (stacked : Stacked row (span :: spans)) (order : span.start ≤ span.stop)
    (first : ∀ later ∈ spans, span.start ≤ later.start) :
    Stacked (coalesceStep row span) spans := by
  cases row with
  | nil =>
      refine ⟨?_, List.pairwise_singleton .., ?_⟩
      · simpa [coalesceStep] using order
      · simpa [coalesceStep] using first
  | cons top rest =>
      have htop := stacked.ordered top List.mem_cons_self
      obtain ⟨hbelow, hrest⟩ := List.pairwise_cons.mp stacked.apart
      have hordered (a : Span α) (ha : a ∈ rest) : a.start ≤ a.stop :=
        stacked.ordered a (List.mem_cons_of_mem _ ha)
      have hbefore (a : Span α) (ha : a ∈ top :: rest) (later : Span α) (hlater : later ∈ spans) :
          a.start ≤ later.start := stacked.before a ha later (List.mem_cons_of_mem _ hlater)
      rw [coalesceStep]
      split
      · refine ⟨?_, List.pairwise_cons.mpr ⟨hbelow, hrest⟩, ?_⟩
        · intro a ha
          obtain rfl | ha := List.mem_cons.mp ha
          · exact le_max_of_le_left htop
          · exact hordered a ha
        · intro a ha
          obtain rfl | ha := List.mem_cons.mp ha
          · exact hbefore top List.mem_cons_self
          · exact hbefore a (List.mem_cons_of_mem _ ha)
      · rename_i gap
        refine ⟨?_, List.pairwise_cons.mpr ⟨fun b hb => ?_, stacked.apart⟩, ?_⟩
        · intro a ha
          obtain rfl | ha := List.mem_cons.mp ha
          · exact order
          · exact stacked.ordered a ha
        · obtain rfl | hb := List.mem_cons.mp hb
          · exact not_le.mp gap
          · have := hbelow b hb
            order
        · intro a ha
          obtain rfl | ha := List.mem_cons.mp ha
          · exact first
          · exact hbefore a ha

/-- One turn adds the interval. -/
theorem covered_coalesceStep (stacked : Stacked row (span :: spans)) :
    Covered (coalesceStep row span) x ↔ Covered row x ∨ span.Has x := by
  cases row with
  | nil => simp [coalesceStep]
  | cons top rest =>
      have hbefore := stacked.before top List.mem_cons_self span List.mem_cons_self
      rw [coalesceStep]
      split
      · rename_i meets
        have joined : ({ top with stop := max top.stop span.stop } : Span α).Has x ↔
            top.Has x ∨ span.Has x := by
          unfold Span.Has
          rw [lt_max_iff]
          constructor
          · rintro ⟨hstart, hstop | hstop⟩
            · exact .inl ⟨hstart, hstop⟩
            · rcases lt_or_ge x top.stop with inside | after
              · exact .inl ⟨hstart, inside⟩
              · exact .inr ⟨by order, hstop⟩
          · rintro (⟨hstart, hstop⟩ | ⟨hstart, hstop⟩)
            · exact ⟨hstart, .inl hstop⟩
            · exact ⟨by order, .inr hstop⟩
        rw [covered_cons, covered_cons, joined]
        tauto
      · rw [covered_cons, or_comm]

theorem Stacked.foldl (stacked : Stacked row spans)
    (ordered : ∀ span ∈ spans, span.start ≤ span.stop)
    (sorted : spans.Pairwise fun a b => a.start ≤ b.start) :
    Stacked (spans.foldl coalesceStep row) [] := by
  induction spans generalizing row with
  | nil => exact stacked
  | cons span spans ih =>
      obtain ⟨first, rest⟩ := List.pairwise_cons.mp sorted
      exact ih (stacked.step (ordered span List.mem_cons_self) first)
        (fun a ha => ordered a (List.mem_cons_of_mem _ ha)) rest

theorem Stacked.covered_foldl (stacked : Stacked row spans)
    (ordered : ∀ span ∈ spans, span.start ≤ span.stop)
    (sorted : spans.Pairwise fun a b => a.start ≤ b.start) :
    Covered (spans.foldl coalesceStep row) x ↔ Covered row x ∨ Covered spans x := by
  induction spans generalizing row with
  | nil => simp
  | cons span spans ih =>
      obtain ⟨first, rest⟩ := List.pairwise_cons.mp sorted
      rw [List.foldl_cons, ih (stacked.step (ordered span List.mem_cons_self) first)
        (fun a ha => ordered a (List.mem_cons_of_mem _ ha)) rest,
        covered_coalesceStep stacked, covered_cons, or_assoc]

theorem stacked_nil : Stacked [] spans where
  ordered := by simp
  apart := .nil
  before := by simp

/-- Merging sorted intervals gives a row in order. -/
theorem separated_coalesce (ordered : ∀ span ∈ spans, span.start ≤ span.stop)
    (sorted : spans.Pairwise fun a b => a.start ≤ b.start) : Separated (coalesce spans) := by
  have stacked : Stacked (spans.foldl coalesceStep []) [] := stacked_nil.foldl ordered sorted
  exact {
    ordered := fun span member => stacked.ordered span (List.mem_reverse.mp member)
    apart := List.pairwise_reverse.mpr stacked.apart }

/-- Merging keeps what is covered. -/
theorem covered_coalesce (ordered : ∀ span ∈ spans, span.start ≤ span.stop)
    (sorted : spans.Pairwise fun a b => a.start ≤ b.start) :
    Covered (coalesce spans) x ↔ Covered spans x := by
  rw [coalesce, covered_perm (List.reverse_perm _), stacked_nil.covered_foldl ordered sorted]
  simp

/-- The ends of an interval are ends of intervals of the row. -/
def Bounds (spans : List (Span α)) (span : Span α) : Prop :=
  (∃ a ∈ spans, span.start = a.start) ∧ ∃ b ∈ spans, span.stop = b.stop

omit [LinearOrder α] in
theorem Bounds.mono (bounds : Bounds spans span) (h : ∀ a ∈ spans, a ∈ row) : Bounds row span := by
  obtain ⟨⟨a, ha, hstart⟩, b, hb, hstop⟩ := bounds
  exact ⟨⟨a, h a ha, hstart⟩, b, h b hb, hstop⟩

theorem bounds_coalesceStep {a : Span α} (member : a ∈ coalesceStep row span) :
    a ∈ row ∨ Bounds (span :: row) a := by
  have here (b : Span α) (hb : b = span) : Bounds (span :: row) b :=
    ⟨⟨span, List.mem_cons_self, by rw [hb]⟩, span, List.mem_cons_self, by rw [hb]⟩
  cases row with
  | nil => exact .inr (here a (by simpa [coalesceStep] using member))
  | cons top rest =>
      rw [coalesceStep] at member
      have htop : top ∈ span :: top :: rest := List.mem_cons_of_mem _ List.mem_cons_self
      split at member
      · obtain rfl | later := List.mem_cons.mp member
        · refine .inr ⟨⟨top, htop, rfl⟩, ?_⟩
          rcases max_choice top.stop span.stop with same | same
          · exact ⟨top, htop, same⟩
          · exact ⟨span, List.mem_cons_self, same⟩
        · exact .inl (List.mem_cons_of_mem _ later)
      · obtain rfl | later := List.mem_cons.mp member
        · exact .inr (here a rfl)
        · exact .inl later

theorem bounds_foldl {a : Span α} (member : a ∈ spans.foldl coalesceStep row) :
    a ∈ row ∨ Bounds (row ++ spans) a := by
  induction spans generalizing row with
  | nil => exact .inl member
  | cons span spans ih =>
      obtain old | ⟨⟨b, hb, hstart⟩, c, hc, hstop⟩ := ih member
      · obtain older | bounds := bounds_coalesceStep old
        · exact .inl older
        · exact .inr (bounds.mono fun b hb => by
            obtain rfl | hb := List.mem_cons.mp hb
            · simp
            · exact List.mem_append_left _ hb)
      · -- an end of the row of this turn is an end of the row before it, or of the interval
        have back (d : Span α) (hd : d ∈ coalesceStep row span ++ spans) :
            Bounds (row ++ span :: spans) d := by
          obtain hd | hd := List.mem_append.mp hd
          · obtain older | bounds := bounds_coalesceStep hd
            · exact ⟨⟨d, List.mem_append_left _ older, rfl⟩, d, List.mem_append_left _ older, rfl⟩
            · exact bounds.mono fun b hb => by
                obtain rfl | hb := List.mem_cons.mp hb
                · simp
                · exact List.mem_append_left _ hb
          · have hd : d ∈ row ++ span :: spans := by simp [hd]
            exact ⟨⟨d, hd, rfl⟩, d, hd, rfl⟩
        obtain ⟨⟨e, he, hstart'⟩, -⟩ := back b hb
        obtain ⟨-, f, hf, hstop'⟩ := back c hc
        exact .inr ⟨⟨e, he, hstart.trans hstart'⟩, f, hf, hstop.trans hstop'⟩

/-- Merging makes no new ends. -/
theorem bounds_coalesce (member : span ∈ coalesce spans) : Bounds spans span := by
  obtain old | bounds := bounds_foldl (List.mem_reverse.mp member)
  · cases old
  · exact bounds

end Coalesce

end Sgfx
