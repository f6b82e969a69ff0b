import Addon.Proofs.Ace.Registry

/-!
# Enrolment — registrations up to the first that fails

The reading of a script asks for registrations one after the other and stops at the first that
is refused. `enroll` is that run: unlike `attemptAll` it does not go on behind a failure. It
gets through exactly when no key is asked for twice, be it in the run or before it, and this
does not depend on the order.

## The architecture

* **`enroll`** — the run, with `enroll_append` for runs in two parts.
* **`exists_enrolled_prefix`** — wherever the run stops, it has registered a
  prefix of what was asked for.
* **`Tracks.enroll`**, **`Tracks.enroll_eq_none_iff`** — the invariant of the registry along a run,
  and when a run gets through.
* **`Tracks.bucket_perm`**, **`Tracks.dispatch_eq`** — registries with the same
  calls in different orders.
-/

namespace Addon.Ace.Registry

open Registration

/-- Registers calls in turn, up to the first that fails. Gives the registry that is reached and the
violation that ends the run, if there is one. -/
def enroll (r : Registry) : List Registration → Registry × Option Violation
  | [] => (r, none)
  | c :: rest =>
    match register c.record c.ref c.moduleName r with
    | .ok _ next => next.enroll rest
    | .error v after => (after, some v)

theorem enroll_append (r : Registry) (calls more : List Registration) :
    r.enroll (calls ++ more) =
      if (r.enroll calls).2 = none then (r.enroll calls).1.enroll more else r.enroll calls := by
  induction calls generalizing r with
  | nil => rfl
  | cons c rest ih =>
    rw [List.cons_append, enroll, enroll]
    cases register c.record c.ref c.moduleName r with
    | ok _ next => exact ih next
    | error v after => rfl

/-- Wherever a run stops, what it reached is reached by a prefix of its calls that gets through. -/
theorem exists_enrolled_prefix (r : Registry) (calls : List Registration) :
    ∃ done, done <+: calls ∧ r.enroll done = ((r.enroll calls).1, none) := by
  induction calls generalizing r with
  | nil => exact ⟨[], List.prefix_rfl, rfl⟩
  | cons c rest ih =>
    rw [enroll]
    cases hc : register c.record c.ref c.moduleName r with
    | error v after => exact ⟨[], List.nil_prefix, by rw [eq_of_register_error hc]; rfl⟩
    | ok _ next =>
      obtain ⟨done, hprefix, hdone⟩ := ih next
      refine ⟨c :: done, List.prefix_cons_inj c |>.mpr hprefix, ?_⟩
      rw [enroll, hc]
      exact hdone

/-! ## When a run gets through -/

/-- **The run.** A run that gets through adds all its calls to the list. -/
theorem Tracks.enroll {r : Registry} {done : List Registration} (h : r.Tracks done)
    {calls : List Registration} (hcalls : (r.enroll calls).2 = none) :
    (r.enroll calls).1.Tracks (done ++ calls) := by
  induction calls generalizing r done with
  | nil => rwa [List.append_nil]
  | cons c rest ih =>
    rw [Registry.enroll] at hcalls ⊢
    cases hc : register c.record c.ref c.moduleName r with
    | error v after =>
      rw [hc] at hcalls
      cases hcalls
    | ok _ next =>
      rw [hc] at hcalls
      have := ih (tracks_register h hc) hcalls
      rwa [List.append_assoc, List.singleton_append] at this

/-- A run gets through exactly when no key is asked for twice, neither in it nor before it. -/
theorem Tracks.enroll_eq_none_iff {r : Registry} {done : List Registration} (h : r.Tracks done)
    (calls : List Registration) : (r.enroll calls).2 = none ↔ ((done ++ calls).map key).Nodup := by
  constructor
  · intro hcalls
    exact (h.enroll hcalls).distinct
  · intro hnodup
    induction calls generalizing r done with
    | nil => rfl
    | cons c rest ih =>
      rw [Registry.enroll]
      cases hc : register c.record c.ref c.moduleName r with
      | ok _ next =>
        refine ih (tracks_register h hc) ?_
        rwa [List.append_assoc, List.singleton_append]
      | error v after =>
        -- a refused call repeats a key of one before it
        have hmem := (h.register_error_iff c).mp ⟨v, after, hc⟩
        rw [List.map_append, List.nodup_append] at hnodup
        exact absurd rfl (hnodup.2.2 c.key hmem c.key List.mem_cons_self)

/-! ## The same calls in another order -/

theorem Tracks.bucket_perm {r r' : Registry} {done done' : List Registration} (h : r.Tracks done)
    (h' : r'.Tracks done') (hperm : done.Perm done') (category : String) (kind : Kind) :
    ((r.bucket category).get kind).Perm ((r'.bucket category).get kind) := by
  rw [h.bucket, h'.bucket]
  exact (hperm.filter _).map _

/-- In both registries an id leads to the same method, or to none. -/
theorem Tracks.dispatch_eq {r r' : Registry} {done done' : List Registration} (h : r.Tracks done)
    (h' : r'.Tracks done') (hperm : done.Perm done') (kind : Kind) (id : String) :
    (r.dispatch.get kind).get? id = (r'.dispatch.get kind).get? id := by
  refine Fields.get?_perm ?_ ?_ id
  · rw [h.dispatch, Fields.keys, List.map_map]
    exact h.ids_nodup kind
  · rw [h.dispatch, h'.dispatch]
    exact (hperm.filter _).map _

end Addon.Ace.Registry
