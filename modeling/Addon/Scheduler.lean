/-!
# The scheduler

Runs one build at a time. A request that comes while a build is running starts nothing: it only asks
for another run after this one, and several such requests ask for a single run. Whatever ends a run
early ends the whole request and leaves the scheduler idle.

The code that is run, that is the build and what is called after it, is given as a tree of what it
does, so that it can make requests itself and can go by the answers.
-/

namespace Addon

/-- Whether a build is running, whether another one is asked for, and how many were started. -/
structure Scheduler where
  running : Bool := false
  pending : Bool := false
  runs : Nat := 0
deriving DecidableEq, Repr

namespace Scheduler

/-- Code that can make requests and note things. -/
inductive Code (ω α : Type) where
  /-- Ends with a result. -/
  | done (a : α)
  /-- Notes something. -/
  | note (w : ω) (next : Code ω α)
  /-- Makes a request. Goes on with its answer and whether the scheduler is busy. -/
  | request (next : Bool → Bool → Code ω α)

/-- How a build ends. -/
inductive Ending (ρ ε : Type) where
  | result (r : ρ)
  /-- A problem that can be handled. -/
  | problem (e : ε)
  /-- An interruption that is not to be handled. -/
  | halt (e : ε)

/-- What a scheduler runs. The number of a run is that of builds started up to then. What is called
after a build may end with a problem of its own. -/
structure Jobs (ω ρ ε : Type) where
  build : Nat → Code ω (Ending ρ ε)
  onSuccess : Option (Nat → ρ → Code ω (Option ε))
  onProblem : Option (Nat → ε → Code ω (Option ε))

/-- What comes of a request before anything is run. -/
inductive Entry where
  /-- A build is running; another one is asked for. -/
  | marked (s : Scheduler)
  /-- Builds are to be run. -/
  | started (s : Scheduler)

/-- Takes a request. -/
def enter (s : Scheduler) : Entry :=
  if s.running then .marked { s with pending := true }
  else .started { s with running := true }

/-- The scheduler when nothing is left to do. -/
def idle (s : Scheduler) : Scheduler :=
  { s with running := false, pending := false }

variable {ω ρ ε α : Type}

/-- Runs code. Gives the scheduler, what was noted, and the result; there is none if a request of
the code would have to run builds itself. -/
def perform (s : Scheduler) (log : List ω) : Code ω α → Scheduler × List ω × Option α
  | .done a => (s, log, some a)
  | .note w next => perform s (log ++ [w]) next
  | .request next =>
    match s.enter with
    | .marked s => perform s log (next false s.running)
    | .started s => (s, log, none)

/-- Runs the code that is called after a build, if there is any. -/
def performAfter (s : Scheduler) (log : List ω) (code : Option (Code ω (Option ε)))
    (missing : Option ε) :
    Scheduler × List ω × Option ε :=
  match code with
  | none => (s, log, missing)
  | some code =>
    let (s, log, result) := perform s log code
    (s, log, result.join)

/-- Runs one build with what is called after it. Gives the problem that
ended it, if there is one. -/
def runOnce (jobs : Jobs ω ρ ε) (s : Scheduler) (log : List ω) : Scheduler × List ω × Option ε :=
  let s := { s with pending := false, runs := s.runs + 1 }
  match perform s log (jobs.build s.runs) with
  | (s, log, none) => (s, log, none)
  | (s, log, some (.halt e)) => (s, log, some e)
  | (s, log, some (.problem e)) =>
    performAfter s log (jobs.onProblem.map fun f => f s.runs e) (some e)
  | (s, log, some (.result r)) =>
    performAfter s log (jobs.onSuccess.map fun f => f s.runs r) none

/-- What comes of a request. -/
structure Outcome (ω ε : Type) where
  scheduler : Scheduler
  log : List ω
  /-- Whether the request ran builds, or the problem that ended it. -/
  ran : Except ε Bool

/-- Runs builds until none is asked for any more, at most so many. -/
def runAll (jobs : Jobs ω ρ ε) : Nat → Scheduler → List ω → Option (Outcome ω ε)
  | 0, _, _ => none
  | fuel + 1, s, log =>
    match runOnce jobs s log with
    | (s, log, some e) => some ⟨s.idle, log, .error e⟩
    | (s, log, none) =>
      if s.pending then runAll jobs fuel s log
      else some ⟨{ s with running := false }, log, .ok true⟩

/-- A request to a scheduler. There is no outcome if more builds than allowed would be run. -/
def request (jobs : Jobs ω ρ ε) (fuel : Nat) (s : Scheduler) : Option (Outcome ω ε) :=
  match s.enter with
  | .marked s => some ⟨s, [], .ok false⟩
  | .started s => runAll jobs fuel s []

end Scheduler

end Addon
