import Addon.Failure

/-!
# Attempts — taking chains of attempts apart

Work that can fail is a chain of attempts. A chain that succeeds had an intermediate result at each
of its links, and one that fails had them up to the link that failed. Later proofs open chains with
these laws and name the intermediate results. `FailsOnly` bounds the errors of a chain link by
link, `Yields` its results.
-/

namespace Addon

variable {ε α β : Type} {x : Except ε α} {f : α → Except ε β} {a : α} {as : List α} {bs : List β}

theorem bind_eq_ok {b : β} :
    x >>= f = .ok b ↔ ∃ a, x = .ok a ∧ f a = .ok b := by
  cases x <;> simp [bind, Except.bind]

theorem bind_eq_error {e : ε} :
    x >>= f = .error e ↔ x = .error e ∨ ∃ a, x = .ok a ∧ f a = .error e := by
  cases x <;> simp [bind, Except.bind]

/-- There is a result, and it has a property. -/
def Gives (x : Except ε α) (P : α → Prop) : Prop :=
  ∃ a, x = .ok a ∧ P a

instance (x : Except ε α) (P : α → Prop) [DecidablePred P] : Decidable (Gives x P) :=
  match x with
  | .ok a => decidable_of_iff (P a) ⟨fun h => ⟨a, rfl, h⟩, fun ⟨_, heq, h⟩ => by cases heq; exact h⟩
  | .error _ => .isFalse fun ⟨_, heq, _⟩ => by cases heq

theorem Gives.of_ok {P : α → Prop} (h : Gives x P) (ha : x = .ok a) : P a := by
  obtain ⟨_, heq, hP⟩ := h
  cases ha.symm.trans heq
  exact hP

/-- A result that is known by what is made of it. -/
theorem exists_of_toOption_map {f : α → β} {b : β} (h : (x.map f).toOption = some b) :
    ∃ a, x = .ok a ∧ f a = b := by
  cases x with
  | error e => cases h
  | ok a => exact ⟨a, rfl, Option.some.inj h⟩

/-- An attempt at each item of a list succeeds when the first one and those at the others do. -/
theorem mapM_cons_eq_ok :
    (a :: as).mapM f = .ok bs ↔ ∃ b rest, f a = .ok b ∧ as.mapM f = .ok rest ∧ bs = b :: rest := by
  rw [List.mapM_cons]
  simp only [bind_eq_ok, pure, Except.pure, Except.ok.injEq]
  constructor
  · rintro ⟨b, hb, rest, hrest, rfl⟩
    exact ⟨b, rest, hb, hrest, rfl⟩
  · rintro ⟨b, rest, hb, hrest, rfl⟩
    exact ⟨b, hb, rest, hrest, rfl⟩

/-- An attempt at each item of a list succeeds when all of them do. -/
theorem exists_mapM_iff (as : List α) :
    (∃ bs, as.mapM f = .ok bs) ↔ ∀ a ∈ as, ∃ b, f a = .ok b := by
  induction as with
  | nil => simp [pure, Except.pure]
  | cons a rest ih =>
    rw [List.forall_mem_cons, ← ih]
    simp only [mapM_cons_eq_ok]
    constructor
    · rintro ⟨-, b, bs, hb, hbs, rfl⟩
      exact ⟨⟨b, hb⟩, bs, hbs⟩
    · rintro ⟨⟨b, hb⟩, bs, hbs⟩
      exact ⟨b :: bs, b, bs, hb, hbs, rfl⟩

/-- What is known of each result is known of all of them. -/
theorem map_eq_of_mapM {γ : Type} {g : β → γ} {g' : α → γ} (hf : ∀ a b, f a = .ok b → g b = g' a)
    (h : as.mapM f = .ok bs) : bs.map g = as.map g' := by
  induction as generalizing bs with
  | nil =>
    obtain rfl := Except.ok.inj h
    rfl
  | cons a rest ih =>
    obtain ⟨b, others, hb, hothers, rfl⟩ := mapM_cons_eq_ok.mp h
    rw [List.map_cons, List.map_cons, hf a b hb, ih hothers]

theorem exists_mem_of_mapM (h : as.mapM f = .ok bs) (ha : a ∈ as) : ∃ b ∈ bs, f a = .ok b := by
  induction as generalizing bs with
  | nil => cases ha
  | cons first rest ih =>
    obtain ⟨b, others, hb, hothers, rfl⟩ := mapM_cons_eq_ok.mp h
    rcases List.mem_cons.mp ha with rfl | ha
    · exact ⟨b, List.mem_cons_self, hb⟩
    · obtain ⟨c, hc, hfc⟩ := ih hothers ha
      exact ⟨c, List.mem_cons_of_mem _ hc, hfc⟩

/-- What is made of each result can be made of all of them at the end. -/
theorem mapM_of_map {γ : Type} {g : α → Except ε γ} {h : β → γ} (hg : ∀ a, g a = (f a).map h)
    (as : List α) : as.mapM g = (as.mapM f).map (List.map h) := by
  induction as with
  | nil => rfl
  | cons a rest ih =>
    rw [List.mapM_cons, List.mapM_cons, ih, hg a]
    cases f a with
    | error e => rfl
    | ok b => cases rest.mapM f <;> rfl

/-! ## Errors

What can be said of the errors of a chain is what can be said of the errors of all its links. -/

/-- If there is an error, it is one of these. -/
def FailsOnly (P : ε → Prop) (x : Except ε α) : Prop :=
  ∀ e, x = .error e → P e

variable {P Q : ε → Prop}

theorem failsOnly_ok (a : α) : FailsOnly P (.ok a) := by
  intro e h
  cases h

theorem failsOnly_error {e : ε} (h : P e) : FailsOnly P (.error e : Except ε α) := by
  rintro _ ⟨⟩
  exact h

theorem FailsOnly.bind_ok (hx : FailsOnly P x) (hf : ∀ a, x = .ok a → FailsOnly P (f a)) :
    FailsOnly P (x >>= f) := by
  intro e h
  rcases bind_eq_error.mp h with h | ⟨a, ha, h⟩
  · exact hx e h
  · exact hf a ha e h

theorem FailsOnly.bind (hx : FailsOnly P x) (hf : ∀ a, FailsOnly P (f a)) : FailsOnly P (x >>= f) :=
  hx.bind_ok fun a _ => hf a

theorem FailsOnly.map (f : α → β) (hx : FailsOnly P x) : FailsOnly P (x.map f) := by
  intro e h
  cases x with
  | ok a => cases h
  | error e' =>
    obtain rfl := Except.error.inj h
    exact hx _ rfl

theorem FailsOnly.mono (hx : FailsOnly P x) (h : ∀ e, P e → Q e) : FailsOnly Q x :=
  fun e he => h e (hx e he)

theorem FailsOnly.ite {c : Prop} [Decidable c] {y : Except ε α} (hx : FailsOnly P x)
    (hy : FailsOnly P y) : FailsOnly P (if c then x else y) := by
  split
  · exact hx
  · exact hy

/-! ## Results

What can be said of the result of a chain is what its links hand on. -/

/-- If there is a result, it has the property. -/
def Yields (P : α → Prop) (x : Except ε α) : Prop :=
  ∀ a, x = .ok a → P a

section Yields

variable {P : α → Prop} {Q : β → Prop}

theorem yields_ok (h : P a) : Yields P (.ok a : Except ε α) := by
  rintro _ ⟨⟩
  exact h

theorem yields_error (e : ε) : Yields P (.error e : Except ε α) := by
  intro a h
  cases h

theorem Yields.bind (hx : Yields P x) (hf : ∀ a, P a → Yields Q (f a)) : Yields Q (x >>= f) := by
  intro b h
  obtain ⟨a, ha, h⟩ := bind_eq_ok.mp h
  exact hf a (hx a ha) b h

theorem yields_bind (hf : ∀ a, Yields Q (f a)) : Yields Q (x >>= f) := by
  intro b h
  obtain ⟨a, -, h⟩ := bind_eq_ok.mp h
  exact hf a b h

theorem yields_map {f : α → β} (hf : ∀ a, Q (f a)) : Yields Q (x.map f) := by
  intro b h
  cases x with
  | error e => cases h
  | ok a =>
    obtain rfl := Except.ok.inj h
    exact hf a

theorem Yields.ite {c : Prop} [Decidable c] {y : Except ε α} (hx : Yields P x) (hy : Yields P y) :
    Yields P (if c then x else y) := by
  split
  · exact hx
  · exact hy

end Yields

/-! ## Results of other work -/

/-- A complaint is no result. -/
theorem complain_ne_ok {scope : Scope} {v : Violation} {place : Option Source.Mark} :
    complain scope v place ≠ .ok a := by
  unfold complain
  split <;> simp

theorem Attempt.ofValue_eq_ok {x : Except Fault α} : Attempt.ofValue x = .ok a ↔ x = .ok a := by
  cases x <;> simp [Attempt.ofValue]

theorem Attempt.ofParse_eq_ok {x : Except Script.ParseError α} :
    Attempt.ofParse x = .ok a ↔ x = .ok a := by
  rcases x with (_ | _ | _) | _ <;> simp [Attempt.ofParse]

theorem Attempt.ofMisfit_eq_ok {x : Except Misfit α} : Attempt.ofMisfit x = .ok a ↔ x = .ok a := by
  cases x <;> simp [Attempt.ofMisfit]

theorem Attempt.ofWrite_eq_ok {x : Except Json.WriteError α} :
    Attempt.ofWrite x = .ok a ↔ x = .ok a := by
  cases x <;> simp [Attempt.ofWrite]

end Addon
