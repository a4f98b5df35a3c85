import VmsLite.Async.Promises
import VmsLite.Async.Transition

/-!
# The pool of the health checks

`runWithConcurrencyLimit` down to the queue of jobs. The loop runs as far as the promise that it
awaits; from there on it is one job after another, and between any two of them the promise of a
check that has begun may be resolved or rejected. Which checks have begun is recorded, and no branch
reads it. An item has no identity here but its place in the list, and the promise of its check that
of the promises.

The pool keeps what it promises as long as no callback rejects; a callback that does ends the loop
at the next race, and the checks that are in flight are not waited for. The callback of
`pollAllCameras` catches what a check throws.
-/

set_option autoImplicit false

namespace VmsLite.Health

open VmsLite.Async

variable {Item Err : Type}

/-! ### The pool -/

/-- What runs when a promise is settled. -/
inductive Reaction (Item : Type)
  /-- `() => fn(item)`. -/
  | call (item : Item) (check : ℕ)
  | clean (check : ℕ)
  /-- A race is settled as the check is. -/
  | race (race check : ℕ)
  /-- The loop goes on behind its `await`. -/
  | resume
  /-- The element of a check in `Promise.all`. -/
  | join (all check : ℕ)
  /-- The function returns behind its last `await`. -/
  | finish
  deriving DecidableEq

structure Pool (Item Err : Type) where
  /-- The items that the loop has not come to. -/
  rest : List Item
  executing : List ℕ := []
  heap : Promises (Reaction Item) Err := {}
  /-- The elements of `Promise.all` that have not been resolved. -/
  remaining : ℕ := 0
  /-- How the promise of the function was settled. -/
  result : Option (Except Err Unit) := none
  /-- The items for which `fn` was called, each with the promise of its check. -/
  started : List (Item × ℕ) := []

namespace Pool

variable (pool : Pool Item Err)

/-- The promise of an item, its callback and what cleans up behind it. -/
def push (item : Item) (rest : List Item) : Pool Item Err :=
  let check := pool.heap.fresh
  { pool with
    rest
    executing := pool.executing ++ [check]
    -- `Promise.resolve()` is settled, so that the callback is a job at once
    heap := (pool.heap.create.enqueue (.call item check) (.ok ())).andThen check (.clean check) }

/-- `await Promise.race(executing)`. -/
def awaitRace : Pool Item Err :=
  let race := pool.heap.fresh
  { pool with
    heap := (pool.heap.create.andThenAll pool.executing (.race race)).andThen race .resume }

/-- `await Promise.all(executing)`. -/
def awaitAll : Pool Item Err :=
  let all := pool.heap.fresh
  let heap := pool.heap.create.andThenAll pool.executing (.join all)
  { pool with
    heap := (if pool.executing = [] then heap.settle all (.ok ()) else heap).andThen all .finish
    remaining := pool.executing.length }

/-- The loop over the items, as far as it goes without awaiting. -/
def loop (limit : ℕ) : List Item → Pool Item Err → Pool Item Err
  | [], pool => pool.awaitAll
  | item :: rest, pool =>
    let pushed := pool.push item rest
    if limit ≤ pushed.executing.length then pushed.awaitRace else loop limit rest pushed

def runWithConcurrencyLimit (items : List Item) (limit : ℕ) : Pool Item Err :=
  loop limit items { rest := items }

/-- One job. -/
def run (limit : ℕ) (outcome : Except Err Unit) : Reaction Item → Pool Item Err
  | .call item check => { pool with started := pool.started ++ [(item, check)] }
  | .clean check => { pool with executing := pool.executing.erase check }
  | .race race _ => { pool with heap := pool.heap.settle race outcome }
  | .resume =>
    match outcome with
    | .ok () => loop limit pool.rest pool
    | .error error => { pool with result := some (.error error) }
  | .join all _ =>
    match outcome with
    | .ok () =>
      { pool with
        heap := if pool.remaining - 1 = 0 then pool.heap.settle all (.ok ()) else pool.heap
        remaining := pool.remaining - 1 }
    | .error error => { pool with heap := pool.heap.settle all (.error error) }
  | .finish => { pool with result := some outcome }

/-- The checks that have begun and are not over. -/
def inFlight : List (Item × ℕ) := pool.started.filter fun entry ↦ pool.heap.isPending entry.2

end Pool

/-! ### Runs -/

inductive PoolMove (Err : Type)
  /-- The next job runs. -/
  | job
  /-- The promise of a check that has begun is resolved or rejected. -/
  | settle (check : ℕ) (outcome : Except Err Unit)

namespace Pool

def next (limit : ℕ) (pool : Pool Item Err) : PoolMove Err → Pool Item Err
  | .job =>
    match pool.heap.jobs with
    | [] => pool
    | (reaction, outcome) :: jobs =>
      run { pool with heap := { pool.heap with jobs } } limit outcome reaction
  | .settle check outcome =>
    if check ∈ pool.started.map Prod.snd then { pool with heap := pool.heap.settle check outcome }
    else pool

end Pool

/-- A move that does something: there is a job, or the check is in flight. -/
def IsEffective (pool : Pool Item Err) : PoolMove Err → Prop
  | .job => pool.heap.jobs ≠ []
  | .settle check _ => check ∈ pool.inFlight.map Prod.snd

/-- The callback that `pollAllCameras` hands over: a check whose error is caught. -/
def caught : Except Err Unit → Except Err Unit
  | .ok () => .ok ()
  | .error _ => .ok ()

/-- A move of the poller: what `checkCamera` comes to, behind the callback. -/
def PoolMove.ofCheck : PoolMove Err → PoolMove Err
  | .job => .job
  | .settle check outcome => .settle check (caught outcome)

/-! ### What the pool promises -/

/-- The checks begin in the order of the items and each once, no more than the limit are in flight,
and a pool that has settled has begun all of them and has none in flight. -/
structure IsComplete (limit : ℕ) (items : List Item) (pool : Pool Item Err) : Prop where
  inOrder : pool.started.map Prod.fst <+: items
  bounded : pool.inFlight.length ≤ limit
  settledLast : pool.result ≠ none → pool.started.map Prod.fst = items ∧ pool.inFlight = []

/-- What holds whether checks reject or not: a pool resolves when all the checks have begun and are
over, it rejects with the error of a check, and until then it goes on. -/
structure IsDependable (limit : ℕ) (items : List Item) (pool : Pool Item Err) : Prop where
  inOrder : pool.started.map Prod.fst <+: items
  bounded : pool.inFlight.length ≤ limit
  resolves : pool.result = some (.ok ()) →
    pool.started.map Prod.fst = items ∧ pool.inFlight = []
  rejects : ∀ error, pool.result = some (.error error) → ∃ entry ∈ pool.started,
    pool.heap.promises[entry.2]? = some (.settled (.error error))
  goesOn : pool.result = none → pool.heap.jobs ≠ [] ∨ pool.inFlight ≠ []

/-! ### A check rejects -/

/-- Of two checks, one at a time, the first rejects: the second never begins. -/
def rejectingRun : List (PoolMove String) :=
  [.job, .settle 0 (.error "probe failed"), .job, .job, .job]

theorem not_isComplete_rejected :
    ¬ EachState (Pool.next 1) (IsComplete 1 ["gate", "yard"])
      (Pool.runWithConcurrencyLimit ["gate", "yard"] 1) rejectingRun := by
  intro heach
  have hsettled := (heach rejectingRun List.prefix_rfl).settledLast
  have hbegun : (runMoves (Pool.next 1) (Pool.runWithConcurrencyLimit ["gate", "yard"] 1)
      rejectingRun).started.map Prod.fst = ["gate"] := rfl
  have hresult : (runMoves (Pool.next 1) (Pool.runWithConcurrencyLimit ["gate", "yard"] 1)
      rejectingRun).result = some (.error "probe failed") := rfl
  rw [hbegun, hresult] at hsettled
  have hall := (hsettled nofun).1
  simp at hall

end VmsLite.Health
