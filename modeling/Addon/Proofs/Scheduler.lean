import Addon.Scheduler

/-!
# Scheduler — what a request runs, and how it leaves the scheduler

A request to an idle scheduler runs builds until none is asked for any more. The code that it
runs can make requests of its own, and can end in a problem at several places. What follows
is about every such code.

## The architecture

* **`Jobs.watched`** — the jobs with every start, answer and ending noted, so that the log of a
  request tells all that happened in it. Watching changes nothing else.
* **`Round`** — what one run can look like: the build with what is called after it, and
  the problem that ends it.
* **`Series`** — rounds one after another, each of which but the last asks for the next.
* **`runOnce_running`** — the step: a run is a round, and another one is asked for exactly when
  a request was made in it.
* **`runAll_running`** — the run, by induction on the number of builds that are allowed.
* **`requests_coalesce`**, **`requests_leave_idle`** — what this means for a request that comes
  back, and for requests one after another.
-/

namespace Addon.Scheduler

variable {ω ρ ε α : Type}
  {jobs : Jobs ω ρ ε} {s : Scheduler} {o : Outcome ω ε} {runs run : Nat} {problem : Option ε}

/-! ## Watching -/

/-- What can be seen of a request. -/
inductive Event (ω ρ ε : Type) where
  /-- A build starts; it has a number. -/
  | began (run : Nat)
  /-- Something is noted by the code itself. -/
  | noted (w : ω)
  /-- A request made by the code is answered. -/
  | asked (answer busy : Bool)
  /-- A build ends. -/
  | built (ending : Ending ρ ε)
  /-- What is called after a success ends. -/
  | succeeded (problem : Option ε)
  /-- What is called after a problem ends. -/
  | handled (problem : Option ε)

namespace Event

def isBegan : Event ω ρ ε → Bool
  | .began _ => true
  | _ => false

def isAsked : Event ω ρ ε → Bool
  | .asked .. => true
  | _ => false

/-- What the code noted itself. -/
def noted? : Event ω ρ ε → Option ω
  | .noted w => some w
  | _ => none

/-- An event inside of code: something noted, or a request that is put off. -/
def IsInner : Event ω ρ ε → Prop
  | .noted _ => True
  | .asked answer busy => answer = false ∧ busy = true
  | _ => False

end Event

/-- The code with its requests and its ending noted. -/
def Code.watch (ending : α → Event ω ρ ε) : Code ω α → Code (Event ω ρ ε) α
  | .done a => .note (ending a) (.done a)
  | .note w next => .note (.noted w) (next.watch ending)
  | .request next => .request fun answer busy =>
    .note (.asked answer busy) ((next answer busy).watch ending)

/-- The jobs with all that happens in them noted. -/
def Jobs.watched (jobs : Jobs ω ρ ε) : Jobs (Event ω ρ ε) ρ ε where
  build run := .note (.began run) ((jobs.build run).watch .built)
  onSuccess := jobs.onSuccess.map fun f run r => (f run r).watch .succeeded
  onProblem := jobs.onProblem.map fun f run e => (f run e).watch .handled

/-- The request comes back, with an outcome. -/
def Returns (jobs : Jobs ω ρ ε) (s : Scheduler) (o : Outcome ω ε) : Prop :=
  ∃ fuel, request jobs fuel s = some o

theorem runAll_succ {fuel : Nat} {log : List ω}
    (h : runAll jobs fuel s log = some o) : runAll jobs (fuel + 1) s log = some o := by
  induction fuel generalizing s log with
  | zero => cases h
  | succ fuel ih =>
    rw [runAll] at h ⊢
    split
    · next heq => rwa [heq] at h
    · next heq =>
      rw [heq] at h
      dsimp only at h
      split
      · next hpending => exact ih (by rwa [if_pos hpending] at h)
      · next hpending => rwa [if_neg hpending] at h

/-- A request comes back in one way only. -/
theorem Returns.unique {o' : Outcome ω ε} (h : Returns jobs s o) (h' : Returns jobs s o') :
    o = o' := by
  obtain ⟨fuel, h⟩ := h
  obtain ⟨fuel', h'⟩ := h'
  unfold request at h h'
  cases hs : s.enter with
  | marked s =>
    rw [hs] at h h'
    exact Option.some.inj (h.symm.trans h')
  | started s =>
    rw [hs] at h h'
    have hmore : ∀ {fuel o}, runAll jobs fuel s [] = some o →
        ∀ n, runAll jobs (fuel + n) s [] = some o := by
      intro fuel o h n
      induction n with
      | zero => exact h
      | succ n ih => exact runAll_succ ih
    have hsum := hmore h' fuel
    rw [Nat.add_comm] at hsum
    exact Option.some.inj ((hmore h fuel').symm.trans hsum)

/-! ## Rounds -/

/-- What comes behind a build that ended: nothing, or what is called after it. A
problem may end the run. -/
inductive After (jobs : Jobs ω ρ ε) : Ending ρ ε → List (Event ω ρ ε) → Option ε → Prop where
  | halted (e : ε) : After jobs (.halt e) [] (some e)
  | built (r : ρ) (hjobs : jobs.onSuccess = none) : After jobs (.result r) [] none
  | failed (e : ε) (hjobs : jobs.onProblem = none) : After jobs (.problem e) [] (some e)
  | succeeded {inner : List (Event ω ρ ε)} (h : ∀ event ∈ inner, event.IsInner) (r : ρ)
      (problem : Option ε) : After jobs (.result r) (inner ++ [.succeeded problem]) problem
  | handled {inner : List (Event ω ρ ε)} (h : ∀ event ∈ inner, event.IsInner) (e : ε)
      (problem : Option ε) : After jobs (.problem e) (inner ++ [.handled problem]) problem

/-- What one run looks like, and the problem that ends it. -/
inductive Round (jobs : Jobs ω ρ ε) (run : Nat) : List (Event ω ρ ε) → Option ε → Prop where
  | mk {inner after : List (Event ω ρ ε)} {ending : Ending ρ ε} {problem : Option ε}
      (hinner : ∀ event ∈ inner, event.IsInner) (hafter : After jobs ending after problem) :
      Round jobs run (.began run :: (inner ++ .built ending :: after)) problem

/-- Running code while a build is running: its requests are put off, and another build is asked for
if there is one among them. -/
theorem perform_running (runs : Nat) (pending : Bool) (code : Code ω α) :
    ∃ (inner : List (Event ω ρ ε)) (a : α), (∀ event ∈ inner, event.IsInner) ∧
      (∀ log, perform ⟨true, pending, runs⟩ log code =
        (⟨true, pending || inner.any Event.isAsked, runs⟩, log ++ inner.filterMap Event.noted?,
          some a)) ∧
      ∀ (ending : α → Event ω ρ ε) log, perform ⟨true, pending, runs⟩ log (code.watch ending) =
        (⟨true, pending || inner.any Event.isAsked, runs⟩, log ++ (inner ++ [ending a]),
          some a) := by
  induction code generalizing pending with
  | done a =>
    exact ⟨[], a, by simp, fun log => by simp [perform],
      fun ending log => by simp [perform, Code.watch]⟩
  | note w next ih =>
    obtain ⟨inner, a, hinner, hrun, hwatch⟩ := ih pending
    refine ⟨.noted w :: inner, a, ?_, fun log => ?_, fun ending log => ?_⟩
    · simpa [Event.IsInner] using hinner
    · rw [perform, hrun]
      simp [Event.isAsked, Event.noted?]
    · rw [Code.watch, perform, hwatch]
      simp [Event.isAsked]
  | request next ih =>
    obtain ⟨inner, a, hinner, hrun, hwatch⟩ := ih false true true
    refine ⟨.asked false true :: inner, a, ?_, fun log => ?_, fun ending log => ?_⟩
    · simpa [Event.IsInner] using hinner
    · have hstep : perform ⟨true, pending, runs⟩ log (.request next) =
          perform ⟨true, true, runs⟩ log (next false true) := rfl
      rw [hstep, hrun]
      simp [Event.isAsked, Event.noted?, List.filterMap_cons]
    · have hstep : perform ⟨true, pending, runs⟩ log (Code.watch ending (.request next)) =
          perform ⟨true, true, runs⟩ (log ++ [.asked false true])
          ((next false true).watch ending) := rfl
      rw [hstep, hwatch]
      simp [Event.isAsked]

/-- Running what is called after a build, if there is anything. -/
theorem performAfter_running (runs : Nat) (pending : Bool) (code : Code ω (Option ε)) :
    ∃ (inner : List (Event ω ρ ε)) (problem : Option ε), (∀ event ∈ inner, event.IsInner) ∧
      (∀ log missing, performAfter ⟨true, pending, runs⟩ log (some code) missing =
        (⟨true, pending || inner.any Event.isAsked, runs⟩, log ++ inner.filterMap Event.noted?,
          problem)) ∧
      ∀ (ending : Option ε → Event ω ρ ε) log missing,
        performAfter ⟨true, pending, runs⟩ log (some (code.watch ending)) missing =
        (⟨true, pending || inner.any Event.isAsked, runs⟩, log ++ (inner ++ [ending problem]),
          problem) := by
  obtain ⟨inner, problem, hinner, hrun, hwatch⟩ := perform_running (ρ := ρ) runs pending code
  refine ⟨inner, problem, hinner, fun log missing => ?_, fun ending log missing => ?_⟩
  · rw [performAfter, hrun]
    rfl
  · rw [performAfter, hwatch]
    rfl

/-- **The step.** A run is a round. Another one is asked for exactly when a request was made in it,
and watching only adds to what is noted. -/
theorem runOnce_running (jobs : Jobs ω ρ ε) (pending : Bool) (runs : Nat) :
    ∃ round problem, Round jobs (runs + 1) round problem ∧
      (∀ log, runOnce jobs ⟨true, pending, runs⟩ log =
        (⟨true, round.any Event.isAsked, runs + 1⟩, log ++ round.filterMap Event.noted?, problem)) ∧
      ∀ log, runOnce jobs.watched ⟨true, pending, runs⟩ log =
        (⟨true, round.any Event.isAsked, runs + 1⟩, log ++ round, problem) := by
  obtain ⟨inner, ending, hinner, hrun, hwatch⟩ :=
    perform_running (ρ := ρ) (ε := ε) (runs + 1) false (jobs.build (runs + 1))
  have hwatch' : ∀ log, perform ⟨true, false, runs + 1⟩ log (jobs.watched.build (runs + 1)) =
      (⟨true, inner.any Event.isAsked, runs + 1⟩,
        log ++ .began (runs + 1) :: (inner ++ [.built ending]), some ending) := by
    intro log
    rw [Jobs.watched, perform, hwatch]
    simp
  rw [Bool.false_or] at hrun
  -- a case for each end of a build, with a job for it or without one
  cases ending with
  | halt e =>
    refine ⟨_, _, .mk hinner (.halted e), fun log => ?_, fun log => ?_⟩
    · rw [runOnce, hrun]
      simp [Event.isAsked, Event.noted?, List.filterMap_cons]
    · rw [runOnce, hwatch']
      simp [Event.isAsked]
  | result r =>
    cases hjobs : jobs.onSuccess with
    | none =>
      refine ⟨_, _, .mk hinner (.built r hjobs), fun log => ?_, fun log => ?_⟩
      · rw [runOnce, hrun, hjobs]
        simp [Event.isAsked, Event.noted?, List.filterMap_cons, performAfter]
      · rw [runOnce, hwatch', Jobs.watched, hjobs]
        simp [Event.isAsked, performAfter]
    | some f =>
      obtain ⟨inner', problem, hinner', hafter, hafter'⟩ :=
        performAfter_running (ρ := ρ) (runs + 1) (inner.any Event.isAsked) (f (runs + 1) r)
      refine ⟨_, _, .mk hinner (.succeeded hinner' r problem), fun log => ?_, fun log => ?_⟩
      · rw [runOnce, hrun, hjobs]
        simp [Event.isAsked, Event.noted?, List.filterMap_cons, hafter]
      · rw [runOnce, hwatch', Jobs.watched, hjobs]
        simp [Event.isAsked, hafter']
  | problem e =>
    cases hjobs : jobs.onProblem with
    | none =>
      refine ⟨_, _, .mk hinner (.failed e hjobs), fun log => ?_, fun log => ?_⟩
      · rw [runOnce, hrun, hjobs]
        simp [Event.isAsked, Event.noted?, List.filterMap_cons, performAfter]
      · rw [runOnce, hwatch', Jobs.watched, hjobs]
        simp [Event.isAsked, performAfter]
    | some f =>
      obtain ⟨inner', problem, hinner', hafter, hafter'⟩ :=
        performAfter_running (ρ := ρ) (runs + 1) (inner.any Event.isAsked) (f (runs + 1) e)
      refine ⟨_, _, .mk hinner (.handled hinner' e problem), fun log => ?_, fun log => ?_⟩
      · rw [runOnce, hrun, hjobs]
        simp [Event.isAsked, Event.noted?, List.filterMap_cons, hafter]
      · rw [runOnce, hwatch', Jobs.watched, hjobs]
        simp [Event.isAsked, hafter']

/-! ## Series of rounds -/

/-- Rounds one after another, behind so many builds. A round in which a request was made is followed
by another, unless a problem ended it. -/
inductive Series (jobs : Jobs ω ρ ε) : Nat → List (List (Event ω ρ ε)) → Option ε → Prop where
  | last {runs : Nat} {round : List (Event ω ρ ε)} (h : Round jobs (runs + 1) round none)
      (hasked : round.any Event.isAsked = false) : Series jobs runs [round] none
  | ended {runs : Nat} {round : List (Event ω ρ ε)} {e : ε}
      (h : Round jobs (runs + 1) round (some e)) :
      Series jobs runs [round] (some e)
  | again {runs : Nat} {round : List (Event ω ρ ε)} {rounds : List (List (Event ω ρ ε))}
      {problem : Option ε}
      (h : Round jobs (runs + 1) round none) (hasked : round.any Event.isAsked = true)
      (hrest : Series jobs (runs + 1) rounds problem) : Series jobs runs (round :: rounds) problem

/-- The answer of a request whose runs were ended by a problem or not. -/
def answerOf : Option ε → Except ε Bool
  | none => .ok true
  | some e => .error e

/-- **The run.** Whatever builds a request runs, they are a series of rounds, behind which
the scheduler is idle. -/
theorem runAll_running {fuel : Nat} {pending : Bool} {log : List ω}
    (h : runAll jobs fuel ⟨true, pending, runs⟩ log = some o) (log' : List (Event ω ρ ε)) :
    ∃ rounds problem, Series jobs runs rounds problem ∧
      o = ⟨⟨false, false, runs + rounds.length⟩, log ++ rounds.flatten.filterMap Event.noted?,
        answerOf problem⟩ ∧
      runAll jobs.watched fuel ⟨true, pending, runs⟩ log' =
        some ⟨o.scheduler, log' ++ rounds.flatten, o.ran⟩ := by
  induction fuel generalizing pending runs log log' with
  | zero => cases h
  | succ fuel ih =>
    obtain ⟨round, problem, hround, hrun, hwatch⟩ := runOnce_running jobs pending runs
    rw [runAll, hrun] at h
    rw [runAll, hwatch]
    cases problem with
    | some e =>
      obtain rfl := Option.some.inj h
      exact ⟨[round], some e, .ended hround, by simp [idle, answerOf], by simp [idle]⟩
    | none =>
      dsimp only at h ⊢
      cases hasked : round.any Event.isAsked with
      | false =>
        rw [hasked] at h
        obtain rfl := Option.some.inj h
        exact ⟨[round], none, .last hround hasked, by simp [answerOf], by simp⟩
      | true =>
        rw [hasked] at h
        obtain ⟨rounds, problem, hseries, ho, hwatched⟩ := ih h (log' ++ round)
        have hruns : runs + 1 + rounds.length = runs + (rounds.length + 1) := by omega
        refine ⟨round :: rounds, problem, .again hround hasked hseries, ?_, ?_⟩
        · rw [ho]
          simp [hruns]
        · simpa using hwatched

/-- A request to a scheduler at rest runs a series of rounds. -/
theorem Returns.exists_series (hs : s.running = false) (h : Returns jobs s o) :
    ∃ rounds problem, Series jobs s.runs rounds problem ∧
      o = ⟨⟨false, false, s.runs + rounds.length⟩, rounds.flatten.filterMap Event.noted?,
        answerOf problem⟩ ∧
      Returns jobs.watched s ⟨o.scheduler, rounds.flatten, o.ran⟩ := by
  obtain ⟨fuel, h⟩ := h
  obtain ⟨running, pending, runs⟩ := s
  obtain rfl : running = false := hs
  obtain ⟨rounds, problem, hseries, ho, hwatched⟩ := runAll_running h []
  exact ⟨rounds, problem, hseries, ho, fuel, hwatched⟩

/-! ## Coalescing -/

/-- Behind a build no other one starts, and requests are put off. -/
theorem After.inner {ending : Ending ρ ε} {after : List (Event ω ρ ε)}
    (h : After jobs ending after problem) {event : Event ω ρ ε} (hevent : event ∈ after) :
    event.IsInner ∨ ∃ problem, event = .succeeded problem ∨ event = .handled problem := by
  cases h with
  | halted | built | failed => cases hevent
  | succeeded h r problem =>
    rcases List.mem_append.mp hevent with hevent | hevent
    · exact .inl (h event hevent)
    · exact .inr ⟨problem, .inl (List.mem_singleton.mp hevent)⟩
  | handled h e problem =>
    rcases List.mem_append.mp hevent with hevent | hevent
    · exact .inl (h event hevent)
    · exact .inr ⟨problem, .inr (List.mem_singleton.mp hevent)⟩

variable {round : List (Event ω ρ ε)}

/-- A round starts with its build, which comes to an end, and starts no other. -/
theorem Round.shape (h : Round jobs run round problem) :
    ∃ rest, round = .began run :: rest ∧ (∀ event ∈ rest, event.isBegan = false) ∧
      ∃ ending, .built ending ∈ rest := by
  obtain ⟨hinner, hafter⟩ := h
  refine ⟨_, rfl, ?_, _, List.mem_append_right _ List.mem_cons_self⟩
  have hquiet : ∀ event : Event ω ρ ε, event.IsInner → event.isBegan = false := by
    intro event hevent
    cases event <;> first | rfl | cases hevent
  rw [List.forall_mem_append, List.forall_mem_cons]
  refine ⟨fun event hevent => hquiet event (hinner event hevent), rfl, fun event hevent => ?_⟩
  rcases hafter.inner hevent with hevent | ⟨problem, rfl | rfl⟩
  · exact hquiet event hevent
  · rfl
  · rfl

/-- The requests of a round are put off. -/
theorem Round.answers (h : Round jobs run round problem) {answer busy : Bool}
    (hasked : .asked answer busy ∈ round) :
    answer = false ∧ busy = true := by
  obtain ⟨hinner, hafter⟩ := h
  simp only [List.mem_cons, List.mem_append, reduceCtorEq, false_or] at hasked
  rcases hasked with hasked | hasked
  · exact hinner _ hasked
  · rcases hafter.inner hasked with hasked | ⟨problem, heq | heq⟩
    · exact hasked
    · cases heq
    · cases heq

/-- How requests made during a request coalesce. Its runs are given, and the
number of its first build. -/
structure Coalesced (first : Nat) (rounds : List (List (Event ω ρ ε))) : Prop where
  /-- Each run starts with its build, which comes to an end, and no other build starts in it. -/
  builds : ∀ (i : Nat) (round : List (Event ω ρ ε)), rounds[i]? = some round →
    ∃ rest, round = .began (first + i) :: rest ∧ (∀ event ∈ rest, event.isBegan = false) ∧
      ∃ ending, .built ending ∈ rest
  /-- Every request made in a run is put off. -/
  answers : ∀ answer busy, .asked answer busy ∈ rounds.flatten → answer = false ∧ busy = true
  /-- In every run but the last a request was made. -/
  again : ∀ round ∈ rounds.dropLast, round.any Event.isAsked = true
  /-- In the last run none was made. -/
  last : ∃ round, rounds.getLast? = some round ∧ round.any Event.isAsked = false
  /-- There is one run more than runs with requests. -/
  count : rounds.length = 1 + rounds.countP fun round => round.any Event.isAsked
  /-- Behind every request a build starts and comes to its end. -/
  rebuilt : ∀ before answer busy after, rounds.flatten = before ++ .asked answer busy :: after →
    ∃ run ending, [.began run, .built ending].Sublist after

variable {rounds : List (List (Event ω ρ ε))}

/-- A series holds a whole build. -/
theorem Series.exists_build (h : Series jobs runs rounds problem) :
    ∃ run ending, [.began run, .built ending].Sublist rounds.flatten := by
  have hround : ∀ {round problem}, Round jobs (runs + 1) round problem →
      ∀ others : List (List (Event ω ρ ε)),
      ∃ run ending, [.began run, .built ending].Sublist (round :: others).flatten := by
    intro round problem hround others
    obtain ⟨rest, rfl, -, ending, hending⟩ := hround.shape
    have hbuilt : [.built ending].Sublist rest := List.singleton_sublist.mpr hending
    rw [List.flatten_cons]
    exact ⟨runs + 1, ending, (hbuilt.cons_cons _).trans (List.sublist_append_left _ _)⟩
  cases h with
  | last h | ended h | again h => exact hround h _

/-- **A series without a problem.** Induction along the rounds; a request in the first of them is
followed by all the others. -/
theorem Series.coalesced (h : Series jobs runs rounds none) : Coalesced (runs + 1) rounds := by
  generalize hproblem : (none : Option ε) = problem at h
  induction h with
  | @last runs round h hasked =>
    have hnone : ∀ answer busy, .asked answer busy ∉ round := by
      intro answer busy hmem
      have := List.any_eq_false.mp hasked _ hmem
      exact this rfl
    refine ⟨?_, ?_, by simp, ⟨round, rfl, hasked⟩, by simp [hasked], ?_⟩
    · intro i round' hi
      obtain ⟨rfl, rfl⟩ : i = 0 ∧ round = round' := by simpa [List.getElem?_singleton] using hi
      exact h.shape
    · intro answer busy hmem
      exact absurd (by simpa using hmem) (hnone answer busy)
    · intro before answer busy after heq
      refine absurd ?_ (hnone answer busy)
      rw [List.flatten_cons, List.flatten_nil, List.append_nil] at heq
      rw [heq]
      exact List.mem_append_right _ List.mem_cons_self
  | ended => cases hproblem
  | @again runs round rounds problem h hasked hrest ih =>
    have hothers := ih hproblem
    obtain ⟨final, hfinal, hquiet⟩ := hothers.last
    have hne : rounds ≠ [] := by
      rintro rfl
      cases hfinal
    refine ⟨?_, ?_, ?_, ⟨final, ?_, hquiet⟩, ?_, ?_⟩
    · intro i round' hi
      cases i with
      | zero =>
        obtain rfl := Option.some.inj hi
        exact h.shape
      | succ i =>
        have hnumber : runs + 1 + (i + 1) = runs + 1 + 1 + i := by omega
        rw [hnumber]
        exact hothers.builds i round' hi
    · intro answer busy hmem
      rw [List.flatten_cons, List.mem_append] at hmem
      rcases hmem with hmem | hmem
      · exact h.answers hmem
      · exact hothers.answers answer busy hmem
    · rw [List.dropLast_cons_of_ne_nil hne, List.forall_mem_cons]
      exact ⟨hasked, hothers.again⟩
    · rw [List.getLast?_cons, hfinal]
      rfl
    · have hcount := hothers.count
      rw [List.length_cons, List.countP_cons]
      simp only [hasked, if_true]
      omega
    · intro before answer busy after heq
      rw [List.flatten_cons] at heq
      rcases List.append_eq_append_iff.mp heq with ⟨middle, rfl, hmiddle⟩ | ⟨middle, rfl, hmiddle⟩
      · exact hothers.rebuilt middle answer busy after hmiddle
      · -- the request was made in the first round, or is the first event of the others
        cases middle with
        | nil => exact hothers.rebuilt [] answer busy after hmiddle.symm
        | cons event middle =>
          obtain ⟨-, rfl⟩ := List.cons.inj hmiddle
          obtain ⟨run, ending, hbuild⟩ := hrest.exists_build
          exact ⟨run, ending, hbuild.trans (List.sublist_append_right _ _)⟩

/-- **Requests coalesce and none is lost.** For any jobs and a scheduler at rest: if a request
comes back without a problem, its answer is that it ran builds. Its runs can be told apart in
what happened. Every request that the code of the jobs makes is put off and starts nothing. In
every run but the last one such a request was made, in the last one none, so that the number
of builds is one more than that of runs with requests; and behind every request a build starts
and comes to its end. -/
theorem requests_coalesce (jobs : Jobs ω ρ ε) (s : Scheduler) (hs : s.running = false)
    (o : Outcome ω ε) (ho : Returns jobs s o) (answer : Bool) (hanswer : o.ran = .ok answer) :
    answer = true ∧
    ∃ rounds : List (List (Event ω ρ ε)),
      Returns jobs.watched s ⟨o.scheduler, rounds.flatten, .ok true⟩ ∧
      o.log = rounds.flatten.filterMap Event.noted? ∧ o.scheduler.runs = s.runs + rounds.length ∧
      Coalesced (s.runs + 1) rounds := by
  obtain ⟨rounds, problem, hseries, rfl, hwatched⟩ := ho.exists_series hs
  cases problem with
  | some e => cases hanswer
  | none =>
    obtain rfl := Except.ok.inj hanswer
    exact ⟨rfl, rounds, hwatched, rfl, rfl, hseries.coalesced⟩

/-! ### Requests in a build and in what is called after one -/

/-- Makes so many requests and goes on. -/
def asking : Nat → Code ω α → Code ω α
  | 0, next => next
  | n + 1, next => .request fun _ _ => asking n next

/-- The first build makes three requests, and what is called after the second one makes another. -/
def askingJobs : Jobs Nat Unit String where
  build run := .note run (asking (if run = 1 then 3 else 0) (.done (.result ())))
  onSuccess := some fun run _ => asking (if run = 2 then 1 else 0) (.done none)
  onProblem := none

/-- Four requests in two of the runs: three builds. -/
theorem requests_coalesce_asking :
    Returns askingJobs {} ⟨⟨false, false, 3⟩, [1, 2, 3], .ok true⟩ ∧
    ∃ rounds : List (List (Event Nat Unit String)),
      Returns askingJobs.watched {} ⟨⟨false, false, 3⟩, rounds.flatten, .ok true⟩ ∧
        rounds.length = 3 ∧
      Coalesced 1 rounds := by
  have hreturns : Returns askingJobs {} ⟨⟨false, false, 3⟩, [1, 2, 3], .ok true⟩ := ⟨3, rfl⟩
  obtain ⟨-, rounds, hwatched, -, hruns, hcoalesced⟩ :=
    requests_coalesce askingJobs {} rfl _ hreturns true rfl
  have hlength : 3 = 0 + rounds.length := hruns
  exact ⟨hreturns, rounds, hwatched, by omega, hcoalesced⟩

/-! ## Coming back to rest -/

/-- The schedulers that requests one after another lead to, whether they came back with
a problem or without. -/
inductive Reached (jobs : Jobs ω ρ ε) : Scheduler → Prop where
  | new : Reached jobs {}
  | request {s : Scheduler} {o : Outcome ω ε} (h : Reached jobs s) (ho : Returns jobs s o) :
      Reached jobs o.scheduler

/-- The event with which a problem leaves a request. -/
def Event.Leaves (jobs : Jobs ω ρ ε) (e : ε) (event : Event ω ρ ε) : Prop :=
  event = .built (.halt e) ∨ (event = .built (.problem e) ∧ jobs.onProblem = none) ∨
    event = .succeeded (some e) ∨ event = .handled (some e)

/-- How a request leaves a scheduler that was at rest before, by all that happened in it. -/
structure Settled (jobs : Jobs ω ρ ε) (s : Scheduler) (o : Outcome ω ε)
    (events : List (Event ω ρ ε)) :
    Prop where
  watched : Returns jobs.watched s ⟨o.scheduler, events, o.ran⟩
  running : o.scheduler.running = false
  pending : o.scheduler.pending = false
  /-- Every build that started is counted. -/
  counted : o.scheduler.runs = s.runs + events.countP Event.isBegan
  /-- At least one build started. -/
  starts : 1 ≤ events.countP Event.isBegan
  answer : ∀ answer, o.ran = .ok answer → answer = true
  /-- A problem that leaves the request ended its last run. -/
  leaves : ∀ e, o.ran = .error e → ∃ event, events.getLast? = some event ∧ event.Leaves jobs e
  /-- If problems of builds are handled, and no handling ends in a problem itself, then only
  interruptions of builds and problems after successes leave the request. -/
  contained : jobs.onProblem.isSome = true →
    (∀ problem, .handled problem ∈ events → problem = none) →
    ∀ e, o.ran = .error e → events.getLast? = some (.built (.halt e)) ∨
      events.getLast? = some (.succeeded (some e))

theorem Round.countP_isBegan (h : Round jobs run round problem) :
    round.countP Event.isBegan = 1 := by
  obtain ⟨rest, rfl, hrest, -⟩ := h.shape
  have hnone : rest.countP Event.isBegan = 0 := by
    rw [List.countP_eq_zero]
    intro event hevent
    rw [hrest event hevent]
    exact Bool.false_ne_true
  rw [List.countP_cons, hnone]
  rfl

/-- A problem that ends a round is in its last event. -/
theorem Round.exists_leaves {e : ε} (h : Round jobs run round (some e)) :
    ∃ event, round.getLast? = some event ∧ event.Leaves jobs e := by
  generalize hproblem : some e = problem at h
  obtain ⟨-, hafter⟩ := h
  cases hafter with
  | halted e' =>
    obtain rfl := Option.some.inj hproblem
    exact ⟨.built (.halt e), by simp [List.getLast?_cons], .inl rfl⟩
  | built => cases hproblem
  | failed e' hjobs =>
    obtain rfl := Option.some.inj hproblem
    exact ⟨.built (.problem e), by simp [List.getLast?_cons], .inr (.inl ⟨rfl, hjobs⟩)⟩
  | succeeded h r problem =>
    subst hproblem
    exact ⟨.succeeded (some e), by simp [List.getLast?_cons], .inr (.inr (.inl rfl))⟩
  | handled h e' problem =>
    subst hproblem
    exact ⟨.handled (some e), by simp [List.getLast?_cons], .inr (.inr (.inr rfl))⟩

theorem Series.countP_isBegan (h : Series jobs runs rounds problem) :
    rounds.flatten.countP Event.isBegan = rounds.length := by
  induction h with
  | last h | ended h => simpa using h.countP_isBegan
  | again h _ _ ih =>
    rw [List.flatten_cons, List.countP_append, h.countP_isBegan, ih, List.length_cons, Nat.add_comm]

theorem Series.length_pos (h : Series jobs runs rounds problem) : 0 < rounds.length := by
  cases h <;> simp

theorem Series.exists_leaves {e : ε} (h : Series jobs runs rounds (some e)) :
    ∃ event, rounds.flatten.getLast? = some event ∧ event.Leaves jobs e := by
  generalize hproblem : some e = problem at h
  induction h with
  | last => cases hproblem
  | ended h =>
    obtain rfl := Option.some.inj hproblem
    simpa using h.exists_leaves
  | again h _ _ ih =>
    obtain ⟨event, hlast, hleaves⟩ := ih hproblem
    exact ⟨event, by rw [List.flatten_cons, List.getLast?_append, hlast, Option.some_or], hleaves⟩

/-- A series of rounds leaves the scheduler at rest. -/
theorem Returns.exists_settled
    (hs : s.running = false) (h : Returns jobs s o) : ∃ events, Settled jobs s o events := by
  obtain ⟨rounds, problem, hseries, rfl, hwatched⟩ := h.exists_series hs
  have hleaves : ∀ e, answerOf problem = .error e →
      ∃ event, rounds.flatten.getLast? = some event ∧ event.Leaves jobs e := by
    intro e he
    cases problem with
    | none => cases he
    | some e' =>
      obtain rfl := Except.error.inj he
      exact hseries.exists_leaves
  refine ⟨rounds.flatten, hwatched, rfl, rfl, ?_, ?_, ?_, hleaves, ?_⟩
  · rw [hseries.countP_isBegan]
  · rw [hseries.countP_isBegan]
    exact hseries.length_pos
  · intro answer hanswer
    cases problem with
    | none => exact (Except.ok.inj hanswer).symm
    | some e => cases hanswer
  · intro hjobs hhandled e he
    obtain ⟨event, hlast, rfl | ⟨rfl, hnone⟩ | rfl | rfl⟩ := hleaves e he
    · exact .inl hlast
    · rw [hnone] at hjobs
      cases hjobs
    · exact .inr hlast
    · cases hhandled _ (List.mem_of_getLast? hlast)

/-- The schedulers that are reached are at rest. -/
theorem Reached.idle (h : Reached jobs s) :
    s.running = false ∧ s.pending = false := by
  induction h with
  | new => exact ⟨rfl, rfl⟩
  | request _ ho ih =>
    obtain ⟨events, hsettled⟩ := ho.exists_settled ih.1
    exact ⟨hsettled.running, hsettled.pending⟩

/-- **The scheduler always comes back to rest.** For any jobs and any requests one after another:
whenever one of them has come back, with a problem or without, nothing is running and nothing is
asked for. The next one starts a build, and every build that starts in it is counted, whatever ends
it. Only the last run of a request can end in a problem that leaves the request, and problems of
builds that are handled without another one do not. -/
theorem requests_leave_idle (jobs : Jobs ω ρ ε) (s : Scheduler) (hs : Reached jobs s) :
    s.running = false ∧ s.pending = false ∧
      ∀ o : Outcome ω ε, Returns jobs s o → ∃ events, Settled jobs s o events :=
  ⟨hs.idle.1, hs.idle.2, fun _ ho => ho.exists_settled hs.idle.1⟩

/-! ### A problem that is handled, and an interruption -/

/-- The first build makes a request and ends in a problem, which is handled; the second one makes a
request and is interrupted. -/
def haltingJobs : Jobs String Unit String where
  build run := match run with
    | 1 => asking 1 (.done (.problem "broken"))
    | 2 => asking 1 (.done (.halt "stopped"))
    | _ => .done (.result ())
  onSuccess := none
  onProblem := some fun _ e => .note e (.done none)

/-- The interruption leaves the request and the scheduler at rest, and the next
request runs a build. -/
theorem requests_leave_idle_halting :
    Returns haltingJobs {} ⟨⟨false, false, 2⟩, ["broken"], .error "stopped"⟩ ∧
    Reached haltingJobs ⟨false, false, 2⟩ ∧
    ∃ events, Settled haltingJobs ⟨false, false, 2⟩ ⟨⟨false, false, 3⟩, [], .ok true⟩ events := by
  have hfirst : Returns haltingJobs {} ⟨⟨false, false, 2⟩, ["broken"], .error "stopped"⟩ := ⟨2, rfl⟩
  have hreached : Reached haltingJobs ⟨false, false, 2⟩ := .request .new hfirst
  have hsecond : Returns haltingJobs ⟨false, false, 2⟩ ⟨⟨false, false, 3⟩, [], .ok true⟩ := ⟨1, rfl⟩
  exact ⟨hfirst, hreached, (requests_leave_idle haltingJobs _ hreached).2.2 _ hsecond⟩

end Addon.Scheduler
