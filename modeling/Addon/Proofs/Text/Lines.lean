import Addon.Text.Lines

/-!
# Lines — texts that are cut and put together

`lines` and `unifyLineEnds` look one character ahead, because a carriage return and a line feed that
follow each other are one line end. Both therefore respect a cut through a text exactly when it does
not go through such a pair (`Uncut`).
-/

namespace Addon.Text

variable {c : Char} {a b rest : List Char}

/-- A character that ends a line. -/
def IsLineEnd (c : Char) : Prop :=
  c = '\n' ∨ c = '\r'

instance (c : Char) : Decidable (IsLineEnd c) :=
  inferInstanceAs (Decidable (c = '\n' ∨ c = '\r'))

/-- The cut between two texts goes through no pair of carriage return and line feed. -/
def Uncut (a b : List Char) : Prop :=
  ¬ (a.getLast? = some '\r' ∧ b.head? = some '\n')

@[simp] theorem uncut_nil_left (b : List Char) : Uncut [] b := by
  simp [Uncut]

@[simp] theorem uncut_nil_right (a : List Char) : Uncut a [] := by
  simp [Uncut]

/-- The first character of the left text matters only when it is the last one. -/
theorem uncut_cons_cons (c d : Char) (a b : List Char) :
    Uncut (c :: d :: a) b ↔ Uncut (d :: a) b := by
  simp [Uncut, List.getLast?_cons_cons]

theorem Uncut.of_cons (h : Uncut (c :: a) b) : Uncut a b := by
  cases a with
  | nil => simp
  | cons d a => exact (uncut_cons_cons c d a b).mp h

/-! ## Unified line ends -/

@[simp] theorem unifyLineEnds_nil : unifyLineEnds [] = [] := rfl

@[simp] theorem unifyLineEnds_pair (rest : List Char) :
    unifyLineEnds ('\r' :: '\n' :: rest) = '\n' :: unifyLineEnds rest := rfl

/-- A character that does not start a pair stands for itself, or for a line feed. -/
theorem unifyLineEnds_cons (h : Uncut [c] rest) :
    unifyLineEnds (c :: rest) = (if c = '\r' then '\n' else c) :: unifyLineEnds rest := by
  rw [unifyLineEnds]
  rintro rest' rfl rfl
  simp [Uncut] at h

theorem Uncut.append_right {t : List Char} (hat : Uncut a t) (hb : Uncut (a ++ t) b) :
    Uncut a (t ++ b) := by
  cases t with
  | nil => simpa using hb
  | cons x t => simpa [Uncut] using hat

/-- A character is not cut off if it does not start a pair. -/
theorem Uncut.singleton
    (h : ∀ rest', c = '\r' → rest = '\n' :: rest' → False) : Uncut [c] rest := by
  rintro ⟨hlast, hhead⟩
  obtain ⟨rest', rfl⟩ := List.head?_eq_some_iff.mp hhead
  exact h rest' (by simpa using hlast) rfl

/-- Texts are unified piece by piece, unless a pair is cut. -/
theorem unifyLineEnds_append (h : Uncut a b) :
    unifyLineEnds (a ++ b) = unifyLineEnds a ++ unifyLineEnds b := by
  induction a using unifyLineEnds.induct with
  | case1 => rfl
  | case2 rest ih => simpa using ih h.of_cons.of_cons
  | case3 c rest hpair ih =>
    have hc : Uncut [c] rest := .singleton hpair
    rw [List.cons_append, unifyLineEnds_cons (hc.append_right h), ih h.of_cons,
      unifyLineEnds_cons hc, List.cons_append]

/-- A cut through a unified text comes from a cut through the text itself. -/
theorem exists_uncut_of_unifyLineEnds {source u v : List Char} (h : unifyLineEnds source = u ++ v) :
    ∃ a b, source = a ++ b ∧ Uncut a b ∧ unifyLineEnds a = u ∧ unifyLineEnds b = v := by
  induction source using unifyLineEnds.induct generalizing u with
  | case1 =>
    obtain ⟨rfl, rfl⟩ := List.append_eq_nil_iff.mp h.symm
    exact ⟨[], [], rfl, by simp, rfl, rfl⟩
  | case2 rest ih =>
    -- a pair becomes one character, so it is on one side as a whole
    rw [unifyLineEnds_pair] at h
    cases u with
    | nil => exact ⟨[], _, rfl, by simp, rfl, h⟩
    | cons x u =>
      rw [List.cons_append, List.cons.injEq] at h
      obtain ⟨a, b, rfl, hcut, rfl, rfl⟩ := ih h.2
      refine ⟨'\r' :: '\n' :: a, b, rfl, ?_, by rw [unifyLineEnds_pair, h.1], rfl⟩
      cases a with
      | nil => simp [Uncut]
      | cons d a => rwa [uncut_cons_cons, uncut_cons_cons]
  | case3 c rest hpair ih =>
    have hc : Uncut [c] rest := .singleton hpair
    cases u with
    | nil => exact ⟨[], _, rfl, by simp, rfl, h⟩
    | cons x u =>
      rw [unifyLineEnds_cons hc, List.cons_append, List.cons.injEq] at h
      obtain ⟨a, b, rfl, hcut, rfl, rfl⟩ := ih h.2
      refine ⟨c :: a, b, rfl, ?_, ?_, rfl⟩
      · cases a with
        | nil => simpa using hc
        | cons d a => rwa [uncut_cons_cons]
      · rw [unifyLineEnds_cons, h.1]
        cases a with
        | nil => simp
        | cons d a => simpa [Uncut] using hc

/-! ## Lines -/

@[simp] theorem lines_nil : lines [] = [] := rfl

@[simp] theorem lines_pair (rest : List Char) :
    lines ('\r' :: '\n' :: rest) = ['\r', '\n'] :: lines rest := rfl

/-- A line end on its own closes a line. -/
theorem lines_lineEnd (hc : IsLineEnd c) (h : Uncut [c] rest) :
    lines (c :: rest) = [c] :: lines rest := by
  rw [IsLineEnd] at hc
  rw [lines]
  · rw [if_pos hc]
  · rintro rest' rfl rfl
    simp [Uncut] at h

/-- Any other character goes to the front of the first line. -/
theorem lines_cons (hc : ¬ IsLineEnd c) :
    lines (c :: rest) = (c :: (lines rest).headD []) :: (lines rest).tail := by
  rw [IsLineEnd] at hc
  rw [lines]
  · rw [if_neg hc]
    cases lines rest <;> rfl
  · rintro rest' rfl rfl
    exact hc (Or.inr rfl)

/-- A text without line ends goes to the front of the first line. -/
theorem lines_append {pre : List Char} (hpre : ∀ c ∈ pre, ¬ IsLineEnd c) (hne : pre ≠ []) :
    lines (pre ++ rest) = (pre ++ (lines rest).headD []) :: (lines rest).tail := by
  induction pre with
  | nil => exact absurd rfl hne
  | cons c pre ih =>
    rw [List.cons_append, lines_cons (hpre c List.mem_cons_self)]
    cases pre with
    | nil => rw [List.nil_append, List.cons_append, List.nil_append]
    | cons d pre =>
      rw [ih (fun x hx => hpre x (List.mem_cons_of_mem _ hx)) (by simp)]
      rfl

/-- The lines of a text make up the text. -/
theorem flatten_lines (cs : List Char) : (lines cs).flatten = cs := by
  induction cs using lines.induct with
  | case1 => rfl
  | case2 rest ih => simp [ih]
  | case3 c rest hpair hc ih =>
    rw [lines]
    · rw [if_pos hc]
      simp [ih]
    · exact hpair
  | case4 c rest hpair hc hnil ih =>
    rw [hnil] at ih
    rw [lines_cons hc, hnil]
    simpa using ih
  | case5 c rest hpair hc line others hlines ih =>
    rw [hlines] at ih
    rw [lines_cons hc, hlines]
    simpa using ih

/-- No line is empty. -/
theorem ne_nil_of_mem_lines {cs line : List Char} (h : line ∈ lines cs) : line ≠ [] := by
  induction cs using lines.induct with
  | case1 => simp at h
  | case2 rest ih =>
    rw [lines_pair, List.mem_cons] at h
    rcases h with rfl | h
    · simp
    · exact ih h
  | case3 c rest hpair hc ih =>
    rw [lines, if_pos hc, List.mem_cons] at h
    · rcases h with rfl | h
      · simp
      · exact ih h
    · exact hpair
  | case4 c rest hpair hc hnil ih =>
    rw [lines_cons hc, hnil] at h
    simp at h
    simp [h]
  | case5 c rest hpair hc first others hlines ih =>
    rw [lines_cons hc, hlines, List.mem_cons] at h
    rcases h with rfl | h
    · simp
    · exact ih (by rw [hlines]; exact List.mem_cons_of_mem _ h)

end Addon.Text
