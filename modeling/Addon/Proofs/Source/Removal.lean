import Addon.Source.Removal

/-!
# Removal — cutting spans out of a text and putting them back

Facts about `ordered`, `applyRemovals`, `removedTexts` and `restore` that hold for every text
and every list of spans.

## The architecture

* **`Span.Before`** — one span ends where another one starts, or earlier. A list of spans is fit for
  a removal when, sorted, each is before all that follow.
* **`ordered_eq_ok_iff`** — what `ordered` checks between neighbours holds between any two spans of
  the sorted list, because `Before` is transitive.
* **`ordered_congr`** — sorting forgets the order of the list, so all four operations see only which
  spans there are.
* **`Row lo spans hi`** — spans that come one behind the other.
* **`refill_remaining`** — the invariant of the walk that puts texts back: the place in the stripped
  text is the place in the original less the nominal lengths of the spans passed so far, also when
  spans reach beyond the end of the text.
-/

namespace Addon.Source

/-! ## The order of spans -/

namespace Span

/-- The span `a` ends before `b` starts, or where it starts. -/
def Before (a b : Span) : Prop :=
  a.stop ≤ b.start

/-- No place belongs to both spans; empty spans may stand at the ends of others. -/
def Apart (a b : Span) : Prop :=
  a.Before b ∨ b.Before a

theorem Before.trans {a b c : Span} (hab : a.Before b) (hbc : b.Before c) : a.Before c :=
  Nat.le_trans hab (Nat.le_trans b.start_le_stop hbc)

theorem Apart.symm {a b : Span} (h : a.Apart b) : b.Apart a :=
  Or.symm h

theorem le_iff (a b : Span) :
    a.le b = true ↔ a.start < b.start ∨ a.start = b.start ∧ a.stop ≤ b.stop := by
  simp [le]

theorem le_trans (a b c : Span) (hab : a.le b) (hbc : b.le c) : a.le c := by
  rw [le_iff] at *
  omega

theorem le_total (a b : Span) : a.le b || b.le a := by
  rw [Bool.or_eq_true, le_iff, le_iff]
  omega

/-- Spans that are equal in the order have the same bounds. -/
theorem le_antisymm {a b : Span} (hab : a.le b) (hba : b.le a) : a = b := by
  rw [le_iff] at hab hba
  cases a
  cases b
  simp only [Span.mk.injEq] at *
  omega

/-- Of two spans that are apart, the lesser one is before the other. An empty span at the start of
another is the lesser of the two. -/
theorem Before.of_le {a b : Span} (hle : a.le b) (h : a.Apart b) : a.Before b := by
  rw [le_iff] at hle
  have ha := a.start_le_stop
  have hb := b.start_le_stop
  unfold Apart Before at *
  omega

end Span

/-! ## The check of neighbours

`checkDisjoint` compares neighbours only; transitivity of `Before` carries
the result to all pairs. -/

/-- A list passes the check exactly when every span is before all that follow it. -/
theorem checkDisjoint_eq_ok_iff (spans : List Span) :
    checkDisjoint spans = .ok () ↔ spans.Pairwise Span.Before := by
  induction spans with
  | nil => simp [checkDisjoint]
  | cons a rest ih =>
    cases rest with
    | nil => simp [checkDisjoint]
    | cons b rest =>
      rw [checkDisjoint]
      split
      · next h =>
        -- the first two overlap, so the list is not in order
        have hnot : ¬ a.Before b := by unfold Span.Before; omega
        simp [hnot]
      · next h =>
        have hab : a.Before b := by unfold Span.Before; omega
        rw [ih, List.pairwise_cons (a := a)]
        constructor
        · intro hrest
          refine ⟨?_, hrest⟩
          intro c hc
          rcases List.mem_cons.mp hc with rfl | hc
          · exact hab
          · exact hab.trans (List.rel_of_pairwise_cons hrest hc)
        · exact fun h => h.2

theorem pairwise_le_mergeSort (spans : List Span) :
    (spans.mergeSort Span.le).Pairwise (fun a b => a.le b) :=
  List.pairwise_mergeSort Span.le_trans Span.le_total spans

/-- The sorted list depends only on which spans there are, and how often. -/
theorem mergeSort_congr {a b : List Span} (h : a.Perm b) :
    a.mergeSort Span.le = b.mergeSort Span.le := by
  refine List.Perm.eq_of_pairwise ?_ (pairwise_le_mergeSort a) (pairwise_le_mergeSort b) ?_
  · intro x y _ _ hxy hyx
    exact Span.le_antisymm hxy hyx
  · exact ((List.mergeSort_perm a _).trans h).trans (List.mergeSort_perm b _).symm

/-- The result of `ordered`: the sorted spans, each before all that follow it. -/
theorem ordered_eq_ok_iff (spans sorted : List Span) :
    ordered spans = .ok sorted ↔
      sorted = spans.mergeSort Span.le ∧ sorted.Pairwise Span.Before := by
  simp only [ordered, bind, Except.bind]
  cases h : checkDisjoint (spans.mergeSort Span.le) with
  | error e =>
    simp only [reduceCtorEq, false_iff, not_and]
    rintro rfl hsorted
    rw [(checkDisjoint_eq_ok_iff _).mpr hsorted] at h
    contradiction
  | ok u =>
    simp only [pure, Except.pure, Except.ok.injEq]
    constructor
    · rintro rfl
      exact ⟨rfl, (checkDisjoint_eq_ok_iff _).mp h⟩
    · exact fun hs => hs.1.symm

theorem ordered_congr {a b : List Span} (h : a.Perm b) : ordered a = ordered b := by
  rw [ordered, ordered, mergeSort_congr h]

/-- Spans that are pairwise apart can be put in order, whatever their order in the list. -/
theorem ordered_of_apart {spans : List Span} (h : spans.Pairwise Span.Apart) :
    ordered spans = .ok (spans.mergeSort Span.le) := by
  rw [ordered_eq_ok_iff]
  refine ⟨rfl, ?_⟩
  have hapart : (spans.mergeSort Span.le).Pairwise Span.Apart :=
    (List.mergeSort_perm spans Span.le).symm.pairwise h fun hab => hab.symm
  exact List.Pairwise.imp₂ (fun _ _ hle hap => Span.Before.of_le hle hap)
    (pairwise_le_mergeSort spans) hapart

/-! ## Spans in a row -/

/-- The spans come one behind the other between two offsets. -/
inductive Row : Nat → List Span → Nat → Prop where
  | nil {lo hi : Nat} (h : lo ≤ hi) : Row lo [] hi
  | cons {lo hi : Nat} {s : Span} {rest : List Span} (h : lo ≤
      s.start) (hrest : Row s.stop rest hi) :
      Row lo (s :: rest) hi

namespace Row

variable {lo mid hi : Nat} {s : Span} {spans others : List Span}

theorem single (hlo : lo ≤ s.start) (hhi : s.stop ≤ hi) : Row lo [s] hi :=
  .cons hlo (.nil hhi)

theorem le (h : Row lo spans hi) : lo ≤ hi := by
  induction h with
  | nil h => exact h
  | @cons _ _ s _ h _ ih => exact Nat.le_trans h (Nat.le_trans s.start_le_stop ih)

theorem widen_left {lo' : Nat} (h : Row lo spans hi) (hlo : lo' ≤ lo) : Row lo' spans hi := by
  cases h with
  | nil h => exact .nil (Nat.le_trans hlo h)
  | cons h hrest => exact .cons (Nat.le_trans hlo h) hrest

theorem append (h : Row lo spans mid) (h' : Row mid others hi) : Row lo (spans ++ others) hi := by
  induction h with
  | nil h => exact h'.widen_left h
  | cons h _ ih => exact .cons h (ih h')

theorem widen_right (h : Row lo spans mid) (hhi : mid ≤ hi) : Row lo spans hi := by
  have := h.append (.nil hhi)
  rwa [List.append_nil] at this

/-- All spans lie between the two offsets. -/
theorem bounds (h : Row lo spans hi) : ∀ s ∈ spans, lo ≤ s.start ∧ s.stop ≤ hi := by
  induction h with
  | nil => simp
  | @cons _ _ s rest h hrest ih =>
    intro u hu
    rcases List.mem_cons.mp hu with rfl | hu
    · exact ⟨h, hrest.le⟩
    · have := ih u hu
      have := s.start_le_stop
      omega

theorem pairwise (h : Row lo spans hi) : spans.Pairwise Span.Before := by
  induction h with
  | nil => exact .nil
  | cons _ hrest ih => exact .cons (fun u hu => (hrest.bounds u hu).1) ih

end Row

/-! ## The walk that puts texts back -/

theorem cut_eq_take_drop (source : List Char) (start stop : Nat) :
    cut source start stop = (source.drop start).take (stop - start) := by
  rw [cut, List.drop_take]

/-- Beyond the end of the text nothing remains. -/
theorem remaining_of_length_le (source : List Char) (offset : Nat) (spans : List Span)
    (hlen : source.length ≤ offset) (hfirst : ∀ s ∈ spans, offset ≤ s.start)
    (hsorted : spans.Pairwise Span.Before) : remaining source offset spans = [] := by
  induction spans generalizing offset with
  | nil => simpa [remaining] using hlen
  | cons s rest ih =>
    obtain ⟨hs, hrest⟩ := List.pairwise_cons.mp hsorted
    have hstart := hfirst s List.mem_cons_self
    have hstop := s.start_le_stop
    rw [remaining, cut_eq_take_drop, List.drop_eq_nil_of_le hlen, ih s.stop (by omega) hs hrest]
    simp

/-- **The invariant of the walk.** Let the walk stand at `offset` in the original text, and at
`offset - removed` in the stripped one, from where on that holds what the spans to come leave. Then
what it writes is the original text from `offset` on. Induction on the spans; the case of a span
that starts beyond the end of the text is apart, because there nominal and actual lengths differ. -/
theorem refill_remaining (source stripped : List Char) (spans : List Span) (offset removed : Nat)
    (hremoved : removed ≤ offset) (hfirst : ∀ s ∈ spans, offset ≤ s.start)
    (hsorted : spans.Pairwise Span.Before)
    (hrest : stripped.drop (offset - removed) = remaining source offset spans) :
    refill stripped (offset - removed) removed spans (spans.map fun s =>
      cut source s.start s.stop) =
      source.drop offset := by
  induction spans generalizing offset removed with
  | nil => simpa [refill, remaining] using hrest
  | cons s rest ih =>
    obtain ⟨hs, hrestSorted⟩ := List.pairwise_cons.mp hsorted
    have hstart := hfirst s List.mem_cons_self
    have hstop := s.start_le_stop
    have hplace : s.stop - (removed + s.length) = s.start - removed := by
      rw [Span.length]
      omega
    rw [remaining, cut_eq_take_drop] at hrest
    -- in the stripped text the walk moves on by as much as in the original
    have hmove : s.start - removed = (offset - removed) + (s.start - offset) := by omega
    have hhead : cut stripped (offset - removed) (s.start - removed) =
        (source.drop offset).take (s.start - offset) := by
      rw [cut_eq_take_drop, hrest, hmove, Nat.add_sub_cancel_left]
      by_cases hin : s.start ≤ source.length
      · rw [List.take_append_of_le_length (by rw [List.length_take, List.length_drop]; omega),
          List.take_take, Nat.min_self]
      · rw [remaining_of_length_le source s.stop rest (by omega) hs hrestSorted, List.append_nil,
          List.take_take, Nat.min_self]
    have htail : stripped.drop (s.start - removed) = remaining source s.stop rest := by
      rw [hmove, ← List.drop_drop, hrest]
      by_cases hin : s.start ≤ source.length
      · rw [List.drop_append_of_le_length (by rw [List.length_take, List.length_drop]; omega),
          List.drop_eq_nil_of_le (List.length_take_le _ _), List.nil_append]
      · rw [remaining_of_length_le source s.stop rest (by omega) hs hrestSorted, List.append_nil]
        exact List.drop_eq_nil_of_le (List.length_take_le _ _)
    have hgo := ih s.stop (removed + s.length) (by rw [Span.length]; omega) hs hrestSorted
      (by rw [hplace]; exact htail)
    rw [hplace] at hgo
    rw [List.map_cons, refill, hhead, hgo, cut_eq_take_drop]
    -- the three pieces of the original join up
    have hjoin : (source.drop s.start).take (s.stop - s.start) ++ source.drop s.stop =
        source.drop s.start := by
      have := List.take_append_drop (s.stop - s.start) (source.drop s.start)
      rwa [List.drop_drop, Nat.add_sub_cancel' hstop] at this
    have hall := List.take_append_drop (s.start - offset) (source.drop offset)
    rw [List.drop_drop, Nat.add_sub_cancel' hstart] at hall
    rw [List.append_assoc, hjoin, hall]

/-! ## The operations on lists of spans in any order -/

theorem applyRemovals_eq_ok_iff (source : List Char) (spans : List Span) (stripped : List Char) :
    applyRemovals source spans = .ok stripped ↔
      ∃ sorted, ordered spans = .ok sorted ∧ remaining source 0 sorted = stripped := by
  simp only [applyRemovals, bind, Except.bind, pure, Except.pure]
  cases ordered spans with
  | error e => simp
  | ok sorted => simp

theorem removedTexts_of_ordered {source : List Char} {spans sorted : List Span}
    (h : ordered spans = .ok sorted) :
    removedTexts source spans = .ok (sorted.map fun s => cut source s.start s.stop) := by
  simp [removedTexts, h, bind, Except.bind, pure, Except.pure]

theorem restore_of_ordered {stripped : List Char} {spans sorted : List Span}
    {texts : List (List Char)} (h : ordered spans = .ok sorted)
    (hlen : sorted.length = texts.length) :
    restore stripped spans texts = .ok (refill stripped 0 0 sorted texts) := by
  simp [restore, h, hlen, bind, Except.bind, pure, Except.pure]

/-- What a removal took out can be put back, also with the spans in another order. -/
theorem restore_removedTexts {source stripped : List Char} {spans others : List Span}
    (h : applyRemovals source spans = .ok stripped) (hperm : others.Perm spans) :
    ∃ texts, removedTexts source others = .ok texts ∧
      restore stripped others texts = .ok source := by
  obtain ⟨sorted, hordered, hstripped⟩ := (applyRemovals_eq_ok_iff _ _ _).mp h
  have hothers : ordered others = .ok sorted := by rw [ordered_congr hperm, hordered]
  have hsorted := ((ordered_eq_ok_iff _ _).mp hordered).2
  refine ⟨_, removedTexts_of_ordered hothers, ?_⟩
  rw [restore_of_ordered hothers (by simp)]
  have hwalk := refill_remaining source stripped sorted 0 0 (Nat.le_refl 0)
    (fun _ _ => Nat.zero_le _) hsorted (by simpa using hstripped.symm)
  simpa using hwalk

end Addon.Source
