import Addon.Build.Builder

/-!
# Steps — taking runs of a build apart

A build is a chain of steps on a session, and its writing a chain of steps on the files. Both are
programs that keep their state when they fail, so one law opens the chains of either kind: where a
chain comes to its end, both of its halves did; where it fails, one of them did.
-/

namespace Addon.Build

variable {ε σ α β : Type}

theorem run_bind (x : EStateM ε σ α) (f : α → EStateM ε σ β) (s : σ) :
    (x >>= f) s = match x s with
      | .ok a s' => f a s'
      | .error e s' => .error e s' := rfl

theorem run_bind_eq_ok {x : EStateM ε σ α} {f : α → EStateM ε σ β} {s s' : σ} {b : β} :
    (x >>= f) s = .ok b s' ↔ ∃ a s₁, x s = .ok a s₁ ∧ f a s₁ = .ok b s' := by
  rw [run_bind]
  cases x s <;> grind

theorem run_bind_eq_error {x : EStateM ε σ α} {f : α → EStateM ε σ β} {s s' : σ} {e : ε} :
    (x >>= f) s = .error e s' ↔
      x s = .error e s' ∨ ∃ a s₁, x s = .ok a s₁ ∧ f a s₁ = .error e s' := by
  rw [run_bind]
  cases x s <;> grind

theorem run_bind_assoc {γ : Type} (x : EStateM ε σ α) (f : α → EStateM ε σ β)
    (g : β → EStateM ε σ γ) : x >>= f >>= g = x >>= fun a => f a >>= g := by
  funext s
  simp only [run_bind]
  cases x s <;> rfl

/-- The state that is left, after a success or a failure. -/
def left : EStateM.Result ε σ α → σ
  | .ok _ s => s
  | .error _ s => s

theorem left_of_ok {r : EStateM.Result ε σ α} {a : α} {s : σ} (h : r = .ok a s) :
    left r = s := by
  rw [h]
  rfl

theorem left_of_error {r : EStateM.Result ε σ α} {e : ε} {s : σ} (h : r = .error e s) :
    left r = s := by
  rw [h]
  rfl

/-- A run can be checked by running it: that it succeeds, and what it gives. -/
theorem exists_eq_ok {r : EStateM.Result ε σ α} {P : α → σ → Prop} [∀ a s, Decidable (P a s)]
    (h : (match r with
      | .ok a s => decide (P a s)
      | .error _ _ => false) = true) : ∃ a s, r = .ok a s ∧ P a s := by
  cases r with
  | ok a s => exact ⟨a, s, rfl, of_decide_eq_true h⟩
  | error e s => cases h

/-- A run that does not fail. -/
def Completes (r : EStateM.Result ε σ α) : Prop :=
  ∃ a s, r = .ok a s

instance (r : EStateM.Result ε σ α) : Decidable (Completes r) :=
  match r with
  | .ok a s => .isTrue ⟨a, s, rfl⟩
  | .error _ _ => .isFalse fun ⟨_, _, h⟩ => by cases h

/-- A run that does not fail, with a property of its result and of the state that it leaves. -/
def Achieves (r : EStateM.Result ε σ α) (P : α → σ → Prop) : Prop :=
  ∃ a s, r = .ok a s ∧ P a s

instance (r : EStateM.Result ε σ α) (P : α → σ → Prop) [∀ a s, Decidable (P a s)] :
    Decidable (Achieves r P) :=
  match r with
  | .ok a s => decidable_of_iff (P a s)
      ⟨fun h => ⟨a, s, rfl, h⟩, fun ⟨_, _, heq, h⟩ => by cases heq; exact h⟩
  | .error _ _ => .isFalse fun ⟨_, _, heq, _⟩ => by cases heq

theorem Achieves.of_ok {r : EStateM.Result ε σ α} {P : α → σ → Prop} {a : α} {s : σ}
    (h : Achieves r P) (hr : r = .ok a s) : P a s := by
  obtain ⟨_, _, heq, hP⟩ := h
  cases hr.symm.trans heq
  exact hP

/-- A step that only looks at the files succeeds when its look does, and
leaves everything as it is. -/
theorem Step.look_eq_ok {f : File.Tree → Attempt α} {s s' : Session} {a : α} :
    Step.look f s = .ok a s' ↔ f s.tree = .ok a ∧ s' = s := by
  rw [Step.look]
  cases f s.tree <;> simp [eq_comm]

end Addon.Build
