import Mathlib
import Addon.Proofs.Source.Removal

/-!
# Coverage — a removal leaves what no span covers

A removal walks over the sorted spans with one cursor and copies what lies between them. Here its
result is said without a walk: the characters whose offsets lie in no span.

## The architecture

* **`Span.Covers`**, **`uncovered`** — the second definition, offset by offset.
* **`Clash`** — two entries of a list that are not apart. `ordered` looks at neighbours
  of the sorted list only; `pairwise_apart_iff` and `ordered_of_apart` lead from all
  pairs to the neighbours.
* **`remaining_eq`** — the walk from an offset on, by induction on the sorted spans. Characters are
  taken with their offsets, so that spans beyond the end of the text are no case of their own.
* **`length_remaining_add`** — the lengths, by the same induction.
-/

namespace Addon.Source

variable {spans : List Span} {source : List Char}

/-! ## Offsets in spans -/

/-- The offset lies in the span. -/
def Span.Covers (s : Span) (i : Nat) : Prop :=
  s.start ≤ i ∧ i < s.stop

instance (s : Span) (i : Nat) : Decidable (s.Covers i) :=
  inferInstanceAs (Decidable (_ ∧ _))

/-- The characters of a text whose offsets lie in none of the spans, in order. -/
def uncovered (source : List Char) (spans : List Span) : List Char :=
  (source.zipIdx.filter fun x => ∀ s ∈ spans, ¬ s.Covers x.2).map Prod.fst

/-- Two entries at different places of the list, neither of which ends before the other starts. -/
def Clash (spans : List Span) : Prop :=
  ∃ (i j : Nat) (a b : Span), i ≠ j ∧ spans[i]? = some a ∧ spans[j]? = some b ∧ ¬ a.stop ≤ b.start ∧
    ¬ b.stop ≤ a.start

/-- All pairs are apart unless two entries clash. -/
theorem pairwise_apart_iff (spans : List Span) : spans.Pairwise Span.Apart ↔ ¬ Clash spans := by
  rw [List.pairwise_iff_getElem]
  constructor
  · rintro h ⟨i, j, a, b, hij, hi, hj, hab, hba⟩
    obtain ⟨hilt, rfl⟩ := List.getElem?_eq_some_iff.mp hi
    obtain ⟨hjlt, rfl⟩ := List.getElem?_eq_some_iff.mp hj
    have hapart : spans[i].Apart spans[j] := by
      rcases Nat.lt_or_gt_of_ne hij with hlt | hlt
      · exact h i j hilt hjlt hlt
      · exact (h j i hjlt hilt hlt).symm
    rcases hapart with h | h
    · exact hab h
    · exact hba h
  · intro h i j hi hj hij
    by_contra hnot
    refine h ⟨i, j, spans[i], spans[j], Nat.ne_of_lt hij, List.getElem?_eq_getElem hi,
      List.getElem?_eq_getElem hj, fun hab => hnot (.inl hab), fun hba => hnot (.inr hba)⟩

theorem uncovered_congr (source : List Char) {others : List Span} (h : others.Perm spans) :
    uncovered source others = uncovered source spans := by
  unfold uncovered
  simp only [h.mem_iff]

/-! ## The walk of a removal -/

theorem le_of_mem_drop_zipIdx {n : Nat} {x : Char × Nat} (h : x ∈ source.zipIdx.drop n) :
    n ≤ x.2 := by
  obtain ⟨i, hi, rfl⟩ := List.getElem_of_mem h
  simp

theorem lt_of_mem_take_zipIdx {n : Nat} {x : Char × Nat} (h : x ∈ source.zipIdx.take n) :
    x.2 < n := by
  obtain ⟨i, hi, rfl⟩ := List.getElem_of_mem h
  have := List.length_take_le n source.zipIdx
  simp only [List.getElem_take, List.getElem_zipIdx]
  omega

/-- What follows an offset, cut at a later one. -/
theorem drop_eq_append_drop {α : Type} (xs : List α) {a b : Nat} (h : a ≤ b) :
    xs.drop a = (xs.take b).drop a ++ xs.drop b := by
  have hsplit := List.take_append_drop (b - a) (xs.drop a)
  rw [List.drop_drop, Nat.add_sub_cancel' h] at hsplit
  rw [List.drop_take, hsplit]

/-- **The walk.** From an offset on, a walk over sorted spans leaves the characters that they do not
cover. Induction on the spans: up to the first span nothing is covered, the span itself is, and
behind it only the other spans count. -/
theorem remaining_eq (source : List Char) (spans : List Span) (offset : Nat)
    (hfirst : ∀ s ∈ spans, offset ≤ s.start) (hsorted : spans.Pairwise Span.Before) :
    remaining source offset spans =
      ((source.zipIdx.drop offset).filter fun x => ∀ s ∈ spans, ¬ s.Covers x.2).map Prod.fst := by
  induction spans generalizing offset with
  | nil => simp [remaining]
  | cons s rest ih =>
    obtain ⟨hs, hrest⟩ := List.pairwise_cons.mp hsorted
    have hstart := hfirst s List.mem_cons_self
    have hbehind : ∀ u ∈ rest, s.start ≤ u.start :=
      fun u hu => Nat.le_trans s.start_le_stop (hs u hu)
    -- the three pieces: up to the span, the span itself, behind it
    have hbefore : ((source.zipIdx.take s.start).drop offset).filter
        (fun x => ∀ u ∈ s :: rest, ¬ u.Covers x.2) = (source.zipIdx.take s.start).drop offset := by
      refine List.filter_eq_self.mpr fun x hx => decide_eq_true fun u hu hcovers => ?_
      have hlt := lt_of_mem_take_zipIdx (List.mem_of_mem_drop hx)
      rcases List.mem_cons.mp hu with rfl | hu
      · exact absurd hcovers.1 (by omega)
      · exact absurd hcovers.1 (by have := hbehind u hu; omega)
    have hwithin : ((source.zipIdx.take s.stop).drop s.start).filter
        (fun x => ∀ u ∈ s :: rest, ¬ u.Covers x.2) = [] := by
      refine List.filter_eq_nil_iff.mpr fun x hx => ?_
      have hlt : x.2 < s.stop := lt_of_mem_take_zipIdx (List.mem_of_mem_drop hx)
      have hle : s.start ≤ x.2 := by
        rw [List.drop_take] at hx
        exact le_of_mem_drop_zipIdx (List.mem_of_mem_take hx)
      simpa using fun hnot : ¬ s.Covers x.2 => absurd ⟨hle, hlt⟩ hnot
    have hafter : (source.zipIdx.drop s.stop).filter (fun x => ∀ u ∈ s :: rest, ¬ u.Covers x.2) =
        (source.zipIdx.drop s.stop).filter fun x => ∀ u ∈ rest, ¬ u.Covers x.2 := by
      refine List.filter_congr fun x hx => ?_
      have hle := le_of_mem_drop_zipIdx hx
      have hnot : ¬ s.Covers x.2 := fun hcovers => absurd hcovers.2 (by omega)
      simp [hnot]
    rw [remaining, ih s.stop hs hrest, drop_eq_append_drop source.zipIdx hstart,
      drop_eq_append_drop source.zipIdx s.start_le_stop, List.filter_append, List.filter_append,
      hbefore, hwithin, hafter, List.nil_append, List.map_append, List.map_drop, List.map_take,
      List.zipIdx_map_fst, cut]

/-- The walk leaves as many characters as there are, less the lengths of the spans. -/
theorem length_remaining_add {offset : Nat} (h : Row offset spans source.length) :
    (remaining source offset spans).length + (spans.map Span.length).sum + offset =
      source.length := by
  generalize hlength : source.length = hi at h
  induction h with
  | nil hle =>
    simp only [remaining, List.length_drop, List.map_nil, List.sum_nil]
    omega
  | @cons lo hi s rest hle hrest ih =>
    have := ih hlength
    have := hrest.le
    have := s.start_le_stop
    simp only [remaining, cut, List.length_append, List.length_drop, List.length_take,
      List.map_cons, List.sum_cons, Span.length]
    omega

/-- Spans in order, each before all that follow it, come in a row up to where they all end. -/
theorem row_of_pairwise {lo hi : Nat} (hsorted : spans.Pairwise Span.Before)
    (hlo : ∀ s ∈ spans, lo ≤ s.start) (hhi : ∀ s ∈ spans, s.stop ≤ hi) (hle : lo ≤ hi) :
    Row lo spans hi := by
  induction spans generalizing lo with
  | nil => exact .nil hle
  | cons s rest ih =>
    obtain ⟨hs, hrest⟩ := List.pairwise_cons.mp hsorted
    refine .cons (hlo s List.mem_cons_self)
      (ih hrest hs (fun u hu => hhi u (List.mem_cons_of_mem s hu)) ?_)
    exact hhi s List.mem_cons_self

/-! ## Removals -/

theorem ordered_of_not_clash (h : ¬ Clash spans) :
    ordered spans = .ok (spans.mergeSort Span.le) :=
  ordered_of_apart ((pairwise_apart_iff spans).mpr h)

theorem pairwise_before_mergeSort (h : ¬ Clash spans) :
    (spans.mergeSort Span.le).Pairwise Span.Before :=
  ((ordered_eq_ok_iff _ _).mp (ordered_of_not_clash h)).2

theorem remaining_mergeSort (source : List Char) (h : ¬ Clash spans) :
    remaining source 0 (spans.mergeSort Span.le) = uncovered source spans := by
  rw [remaining_eq source _ 0 (fun _ _ => Nat.zero_le _) (pairwise_before_mergeSort h),
    List.drop_zero]
  exact uncovered_congr source (List.mergeSort_perm spans Span.le)

/-- Without a clash the removal leaves what no span covers. -/
theorem applyRemovals_of_not_clash (source : List Char) (h : ¬ Clash spans) :
    applyRemovals source spans = .ok (uncovered source spans) :=
  (applyRemovals_eq_ok_iff _ _ _).mpr ⟨_, ordered_of_not_clash h, remaining_mergeSort source h⟩

/-- The neighbours that stop a removal are two of its spans, and they overlap. -/
theorem checkDisjoint_eq_error {e : SpanError} (h : checkDisjoint spans = .error e) :
    ∃ a b, e = .overlapping a b ∧ a ∈ spans ∧ b ∈ spans ∧ b.start < a.stop := by
  induction spans with
  | nil => cases h
  | cons a rest ih =>
    cases rest with
    | nil => cases h
    | cons b rest =>
      rw [checkDisjoint] at h
      split at h
      · next hlt =>
        exact ⟨a, b, (Except.error.inj h).symm, List.mem_cons_self,
          List.mem_cons_of_mem _ List.mem_cons_self, hlt⟩
      · obtain ⟨x, y, he, hx, hy, hlt⟩ := ih h
        exact ⟨x, y, he, List.mem_cons_of_mem a hx, List.mem_cons_of_mem a hy, hlt⟩

theorem applyRemovals_eq_error {e : SpanError} (h : applyRemovals source spans = .error e) :
    ∃ a b, e = .overlapping a b ∧ a ∈ spans ∧ b ∈ spans ∧ b.start < a.stop := by
  simp only [applyRemovals, ordered, bind, Except.bind] at h
  cases hcheck : checkDisjoint (spans.mergeSort Span.le) with
  | ok u =>
    rw [hcheck] at h
    cases h
  | error e' =>
    rw [hcheck] at h
    obtain rfl := Except.error.inj h
    obtain ⟨a, b, he, ha, hb, hlt⟩ := checkDisjoint_eq_error hcheck
    exact ⟨a, b, he, List.mem_mergeSort.mp ha, List.mem_mergeSort.mp hb, hlt⟩

/-- With a clash there is no removal. -/
theorem not_clash_of_applyRemovals {stripped : List Char}
    (h : applyRemovals source spans = .ok stripped) : ¬ Clash spans := by
  obtain ⟨sorted, hordered, -⟩ := (applyRemovals_eq_ok_iff _ _ _).mp h
  obtain ⟨rfl, hsorted⟩ := (ordered_eq_ok_iff _ _).mp hordered
  have hapart : (spans.mergeSort Span.le).Pairwise Span.Apart := hsorted.imp .inl
  exact (pairwise_apart_iff spans).mp
    ((List.mergeSort_perm spans Span.le).pairwise hapart fun hab => hab.symm)

theorem length_uncovered (h : ¬ Clash spans) (hinside : ∀ s ∈ spans, s.stop ≤ source.length) :
    (uncovered source spans).length + (spans.map Span.length).sum = source.length := by
  have hperm := List.mergeSort_perm spans Span.le
  have hrow : Row 0 (spans.mergeSort Span.le) source.length :=
    row_of_pairwise (pairwise_before_mergeSort h) (fun _ _ => Nat.zero_le _)
      (fun s hs => hinside s (hperm.mem_iff.mp hs)) (Nat.zero_le _)
  have hlength := length_remaining_add hrow
  rwa [remaining_mergeSort source h, (hperm.map Span.length).sum_eq, Nat.add_zero] at hlength

/-- **A removal deletes exactly what is covered.** For every text and every list of spans: the
removal fails exactly when two entries at different places of the list are such that neither ends at
or before the start of the other, and then because two spans overlap. Otherwise it leaves the
characters whose offsets lie in no span, in order. The order of the list does not matter. If all
spans lie inside the text, the lengths of the spans are what the text loses. -/
theorem removal_deletes_covered (source : List Char) (spans : List Span) :
    ((∃ e, applyRemovals source spans = .error e) ↔ Clash spans) ∧
    (∀ e, applyRemovals source spans = .error e →
      ∃ a b, e = .overlapping a b ∧ a ∈ spans ∧ b ∈ spans ∧ b.start < a.stop) ∧
    (¬ Clash spans → applyRemovals source spans = .ok (uncovered source spans)) ∧
    (∀ others, others.Perm spans → applyRemovals source others = applyRemovals source spans) ∧
    ∀ stripped, applyRemovals source spans = .ok stripped → (∀ s ∈ spans, s.stop ≤ source.length) →
      stripped.length = source.length - (spans.map Span.length).sum := by
  refine ⟨⟨?_, ?_⟩, fun e he => applyRemovals_eq_error he,
    applyRemovals_of_not_clash source, ?_, ?_⟩
  · rintro ⟨e, he⟩
    by_contra hclash
    rw [applyRemovals_of_not_clash source hclash] at he
    cases he
  · intro hclash
    cases h : applyRemovals source spans with
    | error e => exact ⟨e, rfl⟩
    | ok stripped => exact absurd hclash (not_clash_of_applyRemovals h)
  · intro others hperm
    rw [applyRemovals, applyRemovals, ordered_congr hperm]
  · intro stripped h hinside
    have hclash := not_clash_of_applyRemovals h
    rw [applyRemovals_of_not_clash source hclash] at h
    obtain rfl := Except.ok.inj h
    have := length_uncovered hclash hinside
    omega

/-- Empty spans at the ends of another one, in another order. -/
example : (applyRemovals "abcdef".toList
    [⟨4, 4, by decide⟩, ⟨2, 4, by decide⟩, ⟨2, 2, by decide⟩, ⟨0, 1, by decide⟩]).toOption =
    some "bef".toList := by
  cbv

/-- An empty span inside another one clashes with it. -/
example : (applyRemovals "abcdef".toList [⟨3, 3, by decide⟩, ⟨2, 4, by decide⟩]).toOption =
    none := by
  cbv

end Addon.Source
