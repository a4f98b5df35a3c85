import Mathlib.Data.List.Perm.Basic
import VmsLite.Data.Positions

/-!
# Promises and the queue of jobs

A promise is pending, with the reactions that wait for it, or settled. Settling it makes its
reactions jobs, in the order in which they were registered, behind the jobs that are there, and a
reaction to a settled promise is a job at once. What is outstanding, waiting or queued, changes only
where a reaction is registered or a job is taken (`outstanding_settle`, `outstanding_andThen`,
`outstanding_take`).
-/

set_option autoImplicit false

namespace VmsLite.Async

variable {Reaction Err : Type}

inductive Promise (Reaction Err : Type)
  | pending (reactions : List Reaction)
  | settled (outcome : Except Err Unit)

def Promise.reactions : Promise Reaction Err → List Reaction
  | .pending reactions => reactions
  | .settled _ => []

/-- The promises, each under its place, and the jobs, the next one first. -/
structure Promises (Reaction Err : Type) where
  promises : List (Promise Reaction Err) := []
  jobs : List (Reaction × Except Err Unit) := []

namespace Promises

variable (heap : Promises Reaction Err)

/-- The place of the next promise. -/
def fresh : ℕ := heap.promises.length

def create : Promises Reaction Err := { heap with promises := heap.promises ++ [.pending []] }

def enqueue (reaction : Reaction) (outcome : Except Err Unit) : Promises Reaction Err :=
  { heap with jobs := heap.jobs ++ [(reaction, outcome)] }

/-- `promise.then`. -/
def andThen (id : ℕ) (reaction : Reaction) : Promises Reaction Err :=
  match heap.promises[id]? with
  | some (.pending reactions) =>
    { heap with promises := heap.promises.set id (.pending (reactions ++ [reaction])) }
  | some (.settled outcome) => heap.enqueue reaction outcome
  | none => heap

/-- A reaction to each of some promises, in their order. -/
def andThenAll (ids : List ℕ) (reaction : ℕ → Reaction) : Promises Reaction Err :=
  ids.foldl (fun heap id ↦ heap.andThen id (reaction id)) heap

/-- The resolving functions of a promise, of which the first call counts. -/
def settle (id : ℕ) (outcome : Except Err Unit) : Promises Reaction Err :=
  match heap.promises[id]? with
  | some (.pending reactions) =>
    { promises := heap.promises.set id (.settled outcome)
      jobs := heap.jobs ++ reactions.map fun reaction ↦ (reaction, outcome) }
  | _ => heap

def isPending (id : ℕ) : Bool :=
  match heap.promises[id]? with
  | some (.pending _) => true
  | _ => false

/-- How a promise was settled, if it was. -/
def outcomeOf (id : ℕ) : Option (Except Err Unit) :=
  match heap.promises[id]? with
  | some (.settled outcome) => some outcome
  | _ => none

/-- The reactions that wait for a promise. -/
def waitingOn (id : ℕ) : List Reaction := (heap.promises[id]?.map Promise.reactions).getD []

/-- The reactions that wait for some promise. -/
def waiting : List Reaction := heap.promises.flatMap Promise.reactions

/-- The reactions that have not run. -/
def outstanding : List Reaction := heap.waiting ++ heap.jobs.map Prod.fst

variable {heap} {id other : ℕ} {reaction : Reaction} {outcome : Except Err Unit}

/-! ### What a promise is after an operation -/

theorem isPending_or_outcome (hid : id < heap.fresh) :
    heap.isPending id = true ∨ ∃ outcome, heap.outcomeOf id = some outcome := by
  unfold isPending outcomeOf
  rw [List.getElem?_eq_getElem hid]
  cases heap.promises[id] with
  | pending reactions => exact Or.inl rfl
  | settled outcome => exact Or.inr ⟨outcome, rfl⟩

theorem outcomeOf_of_isPending (hid : heap.isPending id = true) : heap.outcomeOf id = none := by
  unfold isPending at hid
  unfold outcomeOf
  split at hid
  · rename_i reactions hpromise
    rw [hpromise]
  · cases hid

theorem lt_of_isPending (hid : heap.isPending id = true) : id < heap.fresh := by
  unfold isPending at hid
  by_contra hbound
  rw [List.getElem?_eq_none (Nat.le_of_not_lt hbound)] at hid
  cases hid

theorem lt_of_outcomeOf (hid : heap.outcomeOf id = some outcome) : id < heap.fresh := by
  unfold outcomeOf at hid
  by_contra hbound
  rw [List.getElem?_eq_none (Nat.le_of_not_lt hbound)] at hid
  cases hid

theorem waitingOn_of_not_pending (hid : heap.isPending id = false) : heap.waitingOn id = [] := by
  unfold isPending at hid
  unfold waitingOn
  cases hpromise : heap.promises[id]? with
  | none => rfl
  | some promise =>
    cases promise with
    | pending reactions =>
      rw [hpromise] at hid
      cases hid
    | settled outcome => rfl

section Create

theorem getElem?_create (id : ℕ) : heap.create.promises[id]? =
    if id = heap.fresh then some (.pending []) else heap.promises[id]? := by
  unfold create fresh
  dsimp only
  split_ifs with hid
  · rw [hid, List.getElem?_concat_length]
  · by_cases hbound : id < heap.promises.length
    · rw [List.getElem?_append_left hbound]
    · rw [List.getElem?_eq_none (Nat.le_of_not_lt hbound), List.getElem?_eq_none]
      rw [List.length_append, List.length_singleton]
      omega

@[simp] theorem isPending_create (id : ℕ) : heap.create.isPending id =
    (decide (id = heap.fresh) || heap.isPending id) := by
  unfold isPending
  rw [getElem?_create]
  split_ifs with hid
  · simp [hid]
  · simp [hid]

@[simp] theorem outcomeOf_create (id : ℕ) : heap.create.outcomeOf id = heap.outcomeOf id := by
  unfold outcomeOf
  rw [getElem?_create]
  split_ifs with hid
  · rw [hid, fresh, List.getElem?_eq_none (Nat.le_refl _)]
  · rfl

@[simp] theorem waitingOn_create (id : ℕ) : heap.create.waitingOn id = heap.waitingOn id := by
  unfold waitingOn
  rw [getElem?_create]
  split_ifs with hid
  · rw [hid, fresh, List.getElem?_eq_none (Nat.le_refl _)]
    rfl
  · rfl

@[simp] theorem fresh_create : heap.create.fresh = heap.fresh + 1 := List.length_append

@[simp] theorem jobs_create : heap.create.jobs = heap.jobs := rfl

@[simp] theorem waiting_create : heap.create.waiting = heap.waiting := by
  unfold waiting create
  simp [Promise.reactions]

@[simp] theorem outstanding_create : heap.create.outstanding = heap.outstanding := by
  unfold outstanding
  rw [waiting_create, jobs_create]

end Create

section Enqueue

@[simp] theorem isPending_enqueue (id : ℕ) :
    (heap.enqueue reaction outcome).isPending id = heap.isPending id := rfl

@[simp] theorem outcomeOf_enqueue (id : ℕ) :
    (heap.enqueue reaction outcome).outcomeOf id = heap.outcomeOf id := rfl

@[simp] theorem waitingOn_enqueue (id : ℕ) :
    (heap.enqueue reaction outcome).waitingOn id = heap.waitingOn id := rfl

@[simp] theorem fresh_enqueue : (heap.enqueue reaction outcome).fresh = heap.fresh := rfl

@[simp] theorem jobs_enqueue :
    (heap.enqueue reaction outcome).jobs = heap.jobs ++ [(reaction, outcome)] := rfl

@[simp] theorem waiting_enqueue : (heap.enqueue reaction outcome).waiting = heap.waiting := rfl

theorem outstanding_enqueue :
    (heap.enqueue reaction outcome).outstanding = heap.outstanding ++ [reaction] := by
  unfold outstanding
  rw [waiting_enqueue, jobs_enqueue, List.map_append, ← List.append_assoc]
  rfl

end Enqueue

/-- Where a pending promise is, and what is around it. -/
theorem split_of_pending (hid : heap.isPending id = true) :
    ∃ before after, heap.promises = before ++ .pending (heap.waitingOn id) :: after ∧
      before.length = id := by
  unfold isPending at hid
  split at hid
  · rename_i reactions hpromise
    unfold waitingOn
    rw [hpromise]
    exact Data.split_of_getElem? hpromise
  · cases hid

theorem getElem?_of_pending (hid : heap.isPending id = true) :
    heap.promises[id]? = some (.pending (heap.waitingOn id)) := by
  unfold isPending at hid
  split at hid
  · rename_i reactions hpromise
    unfold waitingOn
    rw [hpromise]
    rfl
  · cases hid

theorem andThen_of_pending (hid : heap.isPending id = true) : heap.andThen id reaction =
    { heap with promises := heap.promises.set id (.pending
          (heap.waitingOn id ++ [reaction])) } := by
  unfold andThen
  rw [getElem?_of_pending hid]

theorem andThen_of_outcome (hid : heap.outcomeOf id = some outcome) :
    heap.andThen id reaction = heap.enqueue reaction outcome := by
  unfold outcomeOf at hid
  unfold andThen
  split at hid
  · rename_i found hpromise
    obtain rfl := Option.some.inj hid
    rw [hpromise]
  · cases hid

theorem settle_of_pending (hid : heap.isPending id = true) : heap.settle id outcome =
    { promises := heap.promises.set id (.settled outcome)
      jobs := heap.jobs ++ (heap.waitingOn id).map fun reaction ↦ (reaction, outcome) } := by
  unfold settle
  rw [getElem?_of_pending hid]

/-- A promise that is settled stays as it is. -/
theorem settle_of_not_pending (hid : heap.isPending id = false) :
    heap.settle id outcome = heap := by
  unfold isPending at hid
  unfold settle
  cases hpromise : heap.promises[id]? with
  | none => rfl
  | some promise =>
    cases promise with
    | pending reactions =>
      rw [hpromise] at hid
      cases hid
    | settled found => rfl

section Change

/-- A pending promise is replaced. -/
theorem getElem?_set_of_pending (hid : heap.isPending id = true)
    (promise : Promise Reaction Err) (other : ℕ) : (heap.promises.set id promise)[other]? =
      if other = id then some promise else heap.promises[other]? := by
  by_cases hsame : other = id
  · rw [if_pos hsame, hsame]
    exact List.getElem?_set_self (lt_of_isPending hid)
  · rw [if_neg hsame]
    exact List.getElem?_set_ne (Ne.symm hsame)

/-- A reaction waits, or it is a job at once. -/
theorem andThen_cases (hid : id < heap.fresh) :
    heap.isPending id = true ∧ heap.andThen id reaction =
        { heap with promises :=
            heap.promises.set id (.pending (heap.waitingOn id ++ [reaction])) } ∨
      ∃ outcome, heap.outcomeOf id = some outcome ∧
        heap.andThen id reaction = heap.enqueue reaction outcome := by
  rcases isPending_or_outcome hid with hpending | ⟨outcome, houtcome⟩
  · exact Or.inl ⟨hpending, andThen_of_pending hpending⟩
  · exact Or.inr ⟨outcome, houtcome, andThen_of_outcome houtcome⟩

@[simp] theorem fresh_andThen (hid : id < heap.fresh) :
    (heap.andThen id reaction).fresh = heap.fresh := by
  rcases @andThen_cases _ _ heap id reaction hid with ⟨-, hthen⟩ | ⟨outcome, -, hthen⟩
  · rw [hthen]
    exact List.length_set
  · rw [hthen]
    rfl

@[simp] theorem isPending_andThen (hid : id < heap.fresh) (other : ℕ) :
    (heap.andThen id reaction).isPending other = heap.isPending other := by
  rcases @andThen_cases _ _ heap id reaction hid with ⟨hpending, hthen⟩ | ⟨outcome, -, hthen⟩
  · rw [hthen]
    unfold isPending
    dsimp only
    rw [getElem?_set_of_pending hpending]
    split_ifs with hsame
    · rw [hsame, getElem?_of_pending hpending]
    · rfl
  · rw [hthen]
    rfl

@[simp] theorem outcomeOf_andThen (hid : id < heap.fresh) (other : ℕ) :
    (heap.andThen id reaction).outcomeOf other = heap.outcomeOf other := by
  rcases @andThen_cases _ _ heap id reaction hid with ⟨hpending, hthen⟩ | ⟨outcome, -, hthen⟩
  · rw [hthen]
    unfold outcomeOf
    dsimp only
    rw [getElem?_set_of_pending hpending]
    split_ifs with hsame
    · rw [hsame, getElem?_of_pending hpending]
    · rfl
  · rw [hthen]
    rfl

theorem waitingOn_andThen_self (hpending : heap.isPending id = true) :
    (heap.andThen id reaction).waitingOn id = heap.waitingOn id ++ [reaction] := by
  rw [andThen_of_pending hpending]
  unfold waitingOn
  dsimp only
  rw [getElem?_set_of_pending hpending, if_pos rfl]
  rfl

theorem waitingOn_andThen_ne (hid : id < heap.fresh) (hne : other ≠ id) :
    (heap.andThen id reaction).waitingOn other = heap.waitingOn other := by
  rcases @andThen_cases _ _ heap id reaction hid with ⟨hpending, hthen⟩ | ⟨outcome, -, hthen⟩
  · rw [hthen]
    unfold waitingOn
    dsimp only
    rw [getElem?_set_of_pending hpending, if_neg hne]
  · rw [hthen]
    rfl

theorem jobs_andThen_of_pending (hpending : heap.isPending id = true) :
    (heap.andThen id reaction).jobs = heap.jobs := by
  rw [andThen_of_pending hpending]

@[simp] theorem fresh_settle : (heap.settle id outcome).fresh = heap.fresh := by
  cases hpending : heap.isPending id with
  | true =>
    rw [settle_of_pending hpending]
    exact List.length_set
  | false => rw [settle_of_not_pending hpending]

@[simp] theorem isPending_settle (other : ℕ) : (heap.settle id outcome).isPending other =
    (heap.isPending other && decide (other ≠ id)) := by
  cases hpending : heap.isPending id with
  | true =>
    rw [settle_of_pending hpending]
    unfold isPending
    dsimp only
    rw [getElem?_set_of_pending hpending]
    split_ifs with hsame
    · simp [hsame]
    · simp [hsame]
  | false =>
    rw [settle_of_not_pending hpending]
    by_cases hsame : other = id
    · rw [hsame, hpending]
      rfl
    · simp [hsame]

theorem outcomeOf_settle_of_pending (hpending : heap.isPending id = true) :
    (heap.settle id outcome).outcomeOf id = some outcome := by
  rw [settle_of_pending hpending]
  unfold outcomeOf
  dsimp only
  rw [getElem?_set_of_pending hpending, if_pos rfl]

theorem outcomeOf_settle_ne (hne : other ≠ id) :
    (heap.settle id outcome).outcomeOf other = heap.outcomeOf other := by
  cases hpending : heap.isPending id with
  | true =>
    rw [settle_of_pending hpending]
    unfold outcomeOf
    dsimp only
    rw [getElem?_set_of_pending hpending, if_neg hne]
  | false => rw [settle_of_not_pending hpending]

/-- An outcome is for good. -/
theorem outcomeOf_settle_of_some {found : Except Err Unit}
    (hfound : heap.outcomeOf other = some found) :
    (heap.settle id outcome).outcomeOf other = some found := by
  cases hpending : heap.isPending id with
  | true =>
    have hne : other ≠ id := by
      rintro rfl
      cases (outcomeOf_of_isPending hpending).symm.trans hfound
    exact (outcomeOf_settle_ne hne).trans hfound
  | false =>
    rw [settle_of_not_pending hpending]
    exact hfound

theorem waitingOn_settle_ne (hne : other ≠ id) :
    (heap.settle id outcome).waitingOn other = heap.waitingOn other := by
  cases hpending : heap.isPending id with
  | true =>
    rw [settle_of_pending hpending]
    unfold waitingOn
    dsimp only
    rw [getElem?_set_of_pending hpending, if_neg hne]
  | false => rw [settle_of_not_pending hpending]

@[simp] theorem waitingOn_settle_self : (heap.settle id outcome).waitingOn id = [] := by
  refine waitingOn_of_not_pending ?_
  rw [isPending_settle]
  simp

/-- The reactions to a promise are the jobs of its settlement. -/
@[simp] theorem jobs_settle : (heap.settle id outcome).jobs =
    heap.jobs ++ (heap.waitingOn id).map fun reaction ↦ (reaction, outcome) := by
  cases hpending : heap.isPending id with
  | true => rw [settle_of_pending hpending]
  | false =>
    rw [settle_of_not_pending hpending, waitingOn_of_not_pending hpending]
    exact (List.append_nil _).symm

end Change

/-! ### What is outstanding -/

section Outstanding

theorem mem_waiting : reaction ∈ heap.waiting ↔ ∃ id, reaction ∈ heap.waitingOn id := by
  unfold waiting waitingOn
  rw [List.mem_flatMap]
  constructor
  · rintro ⟨promise, hpromise, hreaction⟩
    obtain ⟨id, hid⟩ := List.mem_iff_getElem?.mp hpromise
    exact ⟨id, by rw [hid]; exact hreaction⟩
  · rintro ⟨id, hreaction⟩
    cases hpromise : heap.promises[id]? with
    | none =>
      rw [hpromise] at hreaction
      cases hreaction
    | some promise =>
      rw [hpromise] at hreaction
      exact ⟨promise, List.mem_of_getElem? hpromise, hreaction⟩

theorem mem_outstanding : reaction ∈ heap.outstanding ↔
    (∃ id, reaction ∈ heap.waitingOn id) ∨ ∃ outcome, (reaction, outcome) ∈ heap.jobs := by
  unfold outstanding
  rw [List.mem_append, mem_waiting]
  exact or_congr Iff.rfl ⟨fun hmem ↦ by
    obtain ⟨⟨found, outcome⟩, hjob, rfl⟩ := List.mem_map.mp hmem
    exact ⟨outcome, hjob⟩, fun ⟨outcome, hjob⟩ ↦ List.mem_map_of_mem hjob⟩

/-- A settlement makes jobs of what was waiting, and so leaves what is outstanding. -/
theorem outstanding_settle : (heap.settle id outcome).outstanding.Perm heap.outstanding := by
  cases hpending : heap.isPending id with
  | false => rw [settle_of_not_pending hpending]
  | true =>
    obtain ⟨before, after, hpromises, rfl⟩ := split_of_pending hpending
    rw [settle_of_pending hpending]
    unfold outstanding waiting
    dsimp only
    rw [hpromises, Data.set_split]
    simp only [List.flatMap_append, List.flatMap_cons, Promise.reactions, List.nil_append,
      List.map_append, List.map_map, Function.comp_def, List.map_id', List.append_assoc]
    refine List.Perm.append_left _ ?_
    rw [← List.append_assoc]
    exact List.perm_append_comm

theorem outstanding_andThen (hid : id < heap.fresh) :
    (heap.andThen id reaction).outstanding.Perm (reaction :: heap.outstanding) := by
  rcases @andThen_cases _ _ heap id reaction hid with ⟨hpending, hthen⟩ | ⟨outcome, -, hthen⟩
  · obtain ⟨before, after, hpromises, rfl⟩ := split_of_pending hpending
    rw [hthen]
    unfold outstanding waiting
    dsimp only
    rw [hpromises, Data.set_split]
    simp only [List.flatMap_append, List.flatMap_cons, Promise.reactions, List.append_assoc,
      List.singleton_append]
    rw [← List.append_assoc, ← List.append_assoc (before.flatMap Promise.reactions)]
    exact List.perm_middle
  · rw [hthen, outstanding_enqueue]
    exact List.perm_append_singleton _ _

/-- The next job is taken. -/
theorem outstanding_take {jobs : List (Reaction × Except Err Unit)}
    (hjobs : heap.jobs = (reaction, outcome) :: jobs) :
    heap.outstanding.Perm (reaction :: { heap with jobs }.outstanding) := by
  unfold outstanding waiting
  rw [hjobs]
  exact List.perm_middle

/-- A settlement leaves fewer reactions waiting. -/
theorem length_waiting_settle (hpending : heap.isPending id = true) :
    (heap.settle id outcome).waiting.length + (heap.waitingOn id).length =
      heap.waiting.length := by
  obtain ⟨before, after, hpromises, rfl⟩ := split_of_pending hpending
  rw [settle_of_pending hpending]
  unfold waiting
  dsimp only
  rw [hpromises, Data.set_split]
  simp only [List.flatMap_append, List.flatMap_cons, Promise.reactions, List.length_append,
    List.length_nil]
  omega

theorem length_waiting_settle_le : (heap.settle id outcome).waiting.length ≤
    heap.waiting.length := by
  cases hpending : heap.isPending id with
  | false => exact Nat.le_of_eq (by rw [settle_of_not_pending hpending])
  | true =>
    have hlength := @length_waiting_settle _ _ heap id outcome hpending
    omega

theorem length_waiting_andThen_le (hid : id < heap.fresh) :
    (heap.andThen id reaction).waiting.length ≤ heap.waiting.length + 1 := by
  rcases @andThen_cases _ _ heap id reaction hid with ⟨hpending, hthen⟩ | ⟨outcome, -, hthen⟩
  · obtain ⟨before, after, hpromises, rfl⟩ := split_of_pending hpending
    rw [hthen]
    unfold waiting
    dsimp only
    rw [hpromises, Data.set_split]
    simp only [List.flatMap_append, List.flatMap_cons, Promise.reactions, List.length_append,
      List.length_singleton]
    omega
  · rw [hthen, waiting_enqueue]
    exact Nat.le_succ _

end Outstanding

/-! ### A reaction to each of some promises -/

section All

variable {ids : List ℕ} {reactions : ℕ → Reaction}

theorem andThenAll_cons (id : ℕ) : heap.andThenAll (id :: ids) reactions =
    (heap.andThen id (reactions id)).andThenAll ids reactions := rfl

theorem andThenAll_spec (hids : ∀ id ∈ ids, id < heap.fresh) :
    (heap.andThenAll ids reactions).fresh = heap.fresh ∧
      (∀ other, (heap.andThenAll ids reactions).isPending other = heap.isPending other) ∧
      ∀ other, (heap.andThenAll ids reactions).outcomeOf other = heap.outcomeOf other := by
  induction ids generalizing heap with
  | nil => exact ⟨rfl, fun _ ↦ rfl, fun _ ↦ rfl⟩
  | cons id ids ih =>
    obtain ⟨hid, hrest⟩ := List.forall_mem_cons.mp hids
    have hfresh := @fresh_andThen _ _ heap id (reactions id) hid
    obtain ⟨hsame, hpending, houtcome⟩ := @ih (heap.andThen id (reactions id))
      fun other hother ↦ hfresh ▸ hrest other hother
    rw [andThenAll_cons]
    exact ⟨hsame.trans hfresh, fun other ↦ (hpending other).trans (isPending_andThen hid other),
      fun other ↦ (houtcome other).trans (outcomeOf_andThen hid other)⟩

theorem waitingOn_andThenAll_of_not_mem (hids : ∀ id ∈ ids, id < heap.fresh)
    (hother : other ∉ ids) :
    (heap.andThenAll ids reactions).waitingOn other = heap.waitingOn other := by
  induction ids generalizing heap with
  | nil => rfl
  | cons id ids ih =>
    obtain ⟨hid, hrest⟩ := List.forall_mem_cons.mp hids
    rw [List.mem_cons, not_or] at hother
    rw [andThenAll_cons, ih (fun later hlater ↦ ?_) hother.2]
    · exact waitingOn_andThen_ne hid hother.1
    · rw [fresh_andThen hid]
      exact hrest later hlater

/-- Each pending promise has its reaction behind those that wait already. -/
theorem waitingOn_andThenAll_of_mem (hids : ∀ id ∈ ids, id < heap.fresh) (hnodup : ids.Nodup)
    (hid : id ∈ ids) (hpending : heap.isPending id = true) :
    (heap.andThenAll ids reactions).waitingOn id = heap.waitingOn id ++ [reactions id] := by
  induction ids generalizing heap with
  | nil => cases hid
  | cons head ids ih =>
    obtain ⟨hhead, hrest⟩ := List.forall_mem_cons.mp hids
    obtain ⟨hnew, hnodup⟩ := List.nodup_cons.mp hnodup
    have hlater : ∀ later ∈ ids, later < (heap.andThen head (reactions head)).fresh := by
      intro later hlater
      rw [fresh_andThen hhead]
      exact hrest later hlater
    rw [andThenAll_cons]
    rcases List.mem_cons.mp hid with rfl | hmem
    · rw [waitingOn_andThenAll_of_not_mem hlater hnew, waitingOn_andThen_self hpending]
    · have hne : id ≠ head := by
        rintro rfl
        exact hnew hmem
      rw [ih hlater hnodup hmem ((isPending_andThen hhead id).trans hpending),
        waitingOn_andThen_ne hhead hne]

/-- The reactions to the promises that are settled are jobs at once. -/
theorem jobs_andThenAll (hids : ∀ id ∈ ids, id < heap.fresh) :
    ∃ new, (heap.andThenAll ids reactions).jobs = heap.jobs ++ new ∧ ∀ job ∈ new,
      ∃ id ∈ ids, job.1 = reactions id ∧ heap.outcomeOf id = some job.2 := by
  induction ids generalizing heap with
  | nil => exact ⟨[], (List.append_nil _).symm, nofun⟩
  | cons id ids ih =>
    obtain ⟨hid, hrest⟩ := List.forall_mem_cons.mp hids
    obtain ⟨new, hnew, hjobs⟩ := @ih (heap.andThen id (reactions id)) fun later hlater ↦
      (@fresh_andThen _ _ heap id (reactions id) hid).symm ▸ hrest later hlater
    have hlater : ∀ job ∈ new, ∃ found ∈ id :: ids, job.1 = reactions found ∧
        heap.outcomeOf found = some job.2 := by
      intro job hjob
      obtain ⟨found, hfound, hreaction, houtcome⟩ := hjobs job hjob
      exact ⟨found, List.mem_cons_of_mem _ hfound, hreaction,
        (outcomeOf_andThen hid found).symm.trans houtcome⟩
    rw [andThenAll_cons, hnew]
    rcases @andThen_cases _ _ heap id (reactions id) hid with
      ⟨-, hthen⟩ | ⟨outcome, houtcome, hthen⟩
    · exact ⟨new, by rw [hthen], hlater⟩
    · refine ⟨(reactions id, outcome) :: new, by rw [hthen]; simp, fun job hjob ↦ ?_⟩
      rcases List.mem_cons.mp hjob with rfl | hmem
      · exact ⟨id, List.mem_cons_self, rfl, houtcome⟩
      · exact hlater job hmem

theorem outstanding_andThenAll (hids : ∀ id ∈ ids, id < heap.fresh) :
    (heap.andThenAll ids reactions).outstanding.Perm (ids.map reactions ++ heap.outstanding) := by
  induction ids generalizing heap with
  | nil => exact List.Perm.refl _
  | cons id ids ih =>
    obtain ⟨hid, hrest⟩ := List.forall_mem_cons.mp hids
    rw [andThenAll_cons]
    refine (ih fun later hlater ↦ ?_).trans ?_
    · rw [fresh_andThen hid]
      exact hrest later hlater
    · exact ((outstanding_andThen hid).append_left _).trans List.perm_middle

theorem length_waiting_andThenAll_le (hids : ∀ id ∈ ids, id < heap.fresh) :
    (heap.andThenAll ids reactions).waiting.length ≤ heap.waiting.length + ids.length := by
  induction ids generalizing heap with
  | nil => exact Nat.le_refl _
  | cons id ids ih =>
    obtain ⟨hid, hrest⟩ := List.forall_mem_cons.mp hids
    have hone := @length_waiting_andThen_le _ _ heap id (reactions id) hid
    have hmore := @ih (heap.andThen id (reactions id)) fun later hlater ↦
      (@fresh_andThen _ _ heap id (reactions id) hid).symm ▸ hrest later hlater
    rw [andThenAll_cons, List.length_cons]
    omega

end All

/-! ### Awaiting a new promise that depends on others -/

/-- A promise is created, others are given a reaction that may settle it, and one reaction waits
for it. -/
structure Awaited (heap : Promises Reaction Err) (ids : List ℕ) (reactions : ℕ → Reaction)
    (last : Reaction) (after : Promises Reaction Err) : Prop where
  fresh : after.fresh = heap.fresh + 1
  isPending : ∀ other, after.isPending other = (decide (other = heap.fresh) || heap.isPending other)
  outcomeOf : ∀ other, after.outcomeOf other = heap.outcomeOf other
  waitingOn_fresh : after.waitingOn heap.fresh = [last]
  waitingOn_mem : ∀ id ∈ ids, heap.isPending id = true →
    after.waitingOn id = heap.waitingOn id ++ [reactions id]
  waitingOn_other : ∀ other, other ∉ ids → other ≠ heap.fresh →
    after.waitingOn other = heap.waitingOn other
  jobs : ∃ new, after.jobs = heap.jobs ++ new ∧ ∀ job ∈ new, ∃ id ∈ ids,
    job.1 = reactions id ∧ heap.outcomeOf id = some job.2
  outstanding : after.outstanding.Perm (last :: (ids.map reactions ++ heap.outstanding))
  waiting : after.waiting.length ≤ heap.waiting.length + ids.length + 1

theorem awaited {ids : List ℕ} (hids : ∀ id ∈ ids, id < heap.fresh) (hnodup : ids.Nodup)
    (reactions : ℕ → Reaction) (last : Reaction) : Awaited heap ids reactions last
      ((heap.create.andThenAll ids reactions).andThen heap.fresh last) := by
  have hbefore : ∀ id ∈ ids, id < heap.create.fresh := fun id hid ↦ by
    rw [fresh_create]
    exact Nat.lt_succ_of_lt (hids id hid)
  have hne : ∀ id ∈ ids, id ≠ heap.fresh := fun id hid ↦ Nat.ne_of_lt (hids id hid)
  obtain ⟨hfresh, hpending, houtcome⟩ :=
    @andThenAll_spec _ _ heap.create ids reactions hbefore
  have hlast : heap.fresh < (heap.create.andThenAll ids reactions).fresh := by
    rw [hfresh, fresh_create]
    exact Nat.lt_succ_self _
  have hopen : (heap.create.andThenAll ids reactions).isPending heap.fresh = true := by
    rw [hpending, isPending_create]
    simp
  have hempty : heap.waitingOn heap.fresh = [] := by
    refine waitingOn_of_not_pending ?_
    by_contra hpending
    exact Nat.lt_irrefl _ (lt_of_isPending (eq_true_of_ne_false hpending))
  refine ⟨?_, fun other ↦ ?_, fun other ↦ ?_, ?_, fun id hid hwaits ↦ ?_,
    fun other hother hapart ↦ ?_, ?_, ?_, ?_⟩
  · rw [fresh_andThen hlast, hfresh, fresh_create]
  · rw [isPending_andThen hlast, hpending, isPending_create]
  · rw [outcomeOf_andThen hlast, houtcome, outcomeOf_create]
  · rw [waitingOn_andThen_self hopen, waitingOn_andThenAll_of_not_mem hbefore, waitingOn_create,
      hempty]
    · rfl
    · exact fun hmem ↦ hne _ hmem rfl
  · have hwaiting : heap.create.isPending id = true := by
      rw [isPending_create, hwaits]
      exact Bool.or_true _
    rw [waitingOn_andThen_ne hlast (hne id hid),
      waitingOn_andThenAll_of_mem hbefore hnodup hid hwaiting, waitingOn_create]
  · rw [waitingOn_andThen_ne hlast hapart, waitingOn_andThenAll_of_not_mem hbefore hother,
      waitingOn_create]
  · obtain ⟨new, hnew, hjobs⟩ := @jobs_andThenAll _ _ heap.create ids reactions hbefore
    refine ⟨new, by rw [jobs_andThen_of_pending hopen, hnew, jobs_create], fun job hjob ↦ ?_⟩
    obtain ⟨id, hid, hreaction, hsettled⟩ := hjobs job hjob
    exact ⟨id, hid, hreaction, (outcomeOf_create id).symm.trans hsettled⟩
  · refine (outstanding_andThen hlast).trans (List.Perm.cons _ ?_)
    have hall := @outstanding_andThenAll _ _ heap.create ids reactions hbefore
    rwa [outstanding_create] at hall
  · have hone := @length_waiting_andThen_le _ _ _ _ last hlast
    have hmany := @length_waiting_andThenAll_le _ _ heap.create ids reactions hbefore
    rw [waiting_create] at hmany
    omega

/-- What waits for a promise now, waited before or was given to it. -/
theorem Awaited.mem_waitingOn {ids : List ℕ} {reactions : ℕ → Reaction} {last : Reaction}
    {after : Promises Reaction Err} (hawaited : Awaited heap ids reactions last after)
    (hmem : reaction ∈ after.waitingOn id) :
    reaction = last ∧ id = heap.fresh ∨ reaction ∈ heap.waitingOn id ∨ reaction = reactions id := by
  by_cases hfresh : id = heap.fresh
  · rw [hfresh, hawaited.waitingOn_fresh] at hmem
    exact Or.inl ⟨List.mem_singleton.mp hmem, hfresh⟩
  right
  by_cases hid : id ∈ ids
  · cases hpending : heap.isPending id with
    | true =>
      rw [hawaited.waitingOn_mem id hid hpending] at hmem
      exact (List.mem_append.mp hmem).imp_right List.mem_singleton.mp
    | false =>
      have hafter : after.isPending id = false := by
        rw [hawaited.isPending, hpending, decide_eq_false hfresh]
        rfl
      rw [waitingOn_of_not_pending hafter] at hmem
      cases hmem
  · rw [hawaited.waitingOn_other id hid hfresh] at hmem
    exact Or.inl hmem

/-- A reaction to a promise that was just settled is the job that it is when it comes first. -/
theorem settle_andThen (hpending : heap.isPending id = true) (hempty : heap.waitingOn id = []) :
    (heap.settle id outcome).andThen id reaction =
      (heap.andThen id reaction).settle id outcome := by
  have hsettled : (heap.settle id outcome).outcomeOf id = some outcome :=
    outcomeOf_settle_of_pending hpending
  have hwaits : (heap.andThen id reaction).isPending id = true := by
    rw [isPending_andThen (lt_of_isPending hpending), hpending]
  rw [andThen_of_outcome hsettled, settle_of_pending hwaits, waitingOn_andThen_self hpending,
    andThen_of_pending hpending, settle_of_pending hpending, hempty, List.set_set]
  simp [enqueue]

theorem isPending_of_outcomeOf (hid : heap.outcomeOf id = some outcome) :
    heap.isPending id = false := by
  by_contra hpending
  cases (outcomeOf_of_isPending (eq_true_of_ne_false hpending)).symm.trans hid

theorem getElem?_of_outcomeOf (hid : heap.outcomeOf id = some outcome) :
    heap.promises[id]? = some (.settled outcome) := by
  unfold outcomeOf at hid
  split at hid
  · rename_i found hpromise
    rw [hpromise, Option.some.inj hid]
  · cases hid

/-! ### What every outcome meets -/

/-- Every promise that is settled, and every job, has an outcome of a kind. -/
structure Meets (condition : Except Err Unit → Prop) (heap : Promises Reaction Err) : Prop where
  settled : ∀ id outcome, heap.outcomeOf id = some outcome → condition outcome
  queued : ∀ job ∈ heap.jobs, condition job.2

theorem Meets.empty {condition : Except Err Unit → Prop} :
    Meets condition ({} : Promises Reaction Err) :=
  ⟨fun _ _ hid ↦ absurd (lt_of_outcomeOf hid) (Nat.not_lt_zero _), nofun⟩

section Meets

variable {condition : Except Err Unit → Prop} (hmeets : Meets condition heap)

include hmeets

theorem Meets.create : Meets condition heap.create :=
  ⟨fun id outcome hid ↦ hmeets.settled id outcome ((outcomeOf_create id).symm.trans hid),
    hmeets.queued⟩

theorem Meets.enqueue (houtcome : condition outcome) :
    Meets condition (heap.enqueue reaction outcome) := by
  refine ⟨hmeets.settled, fun job hjob ↦ ?_⟩
  rcases List.mem_append.mp hjob with hold | hnew
  · exact hmeets.queued job hold
  · rw [List.mem_singleton.mp hnew]
    exact houtcome

/-- A reaction to a settled promise is queued with its outcome. -/
theorem Meets.andThen (id : ℕ) (reaction : Reaction) :
    Meets condition (heap.andThen id reaction) := by
  by_cases hid : id < heap.fresh
  · rcases @andThen_cases _ _ heap id reaction hid with ⟨hpending, -⟩ | ⟨found, hfound, hthen⟩
    · refine ⟨fun other outcome hother ↦ ?_, fun job hjob ↦ ?_⟩
      · exact hmeets.settled other outcome ((outcomeOf_andThen hid other).symm.trans hother)
      · rw [jobs_andThen_of_pending hpending] at hjob
        exact hmeets.queued job hjob
    · rw [hthen]
      exact hmeets.enqueue (hmeets.settled id found hfound)
  · unfold Promises.andThen
    rw [List.getElem?_eq_none (Nat.le_of_not_lt hid)]
    exact hmeets

theorem Meets.andThenAll (ids : List ℕ) (reactions : ℕ → Reaction) :
    Meets condition (heap.andThenAll ids reactions) := by
  induction ids generalizing heap with
  | nil => exact hmeets
  | cons id ids ih => exact ih (hmeets.andThen id (reactions id))

theorem Meets.settle (id : ℕ) (houtcome : condition outcome) :
    Meets condition (heap.settle id outcome) := by
  cases hpending : heap.isPending id with
  | false =>
    rw [settle_of_not_pending hpending]
    exact hmeets
  | true =>
    refine ⟨fun other found hfound ↦ ?_, fun job hjob ↦ ?_⟩
    · by_cases hsame : other = id
      · rw [hsame, outcomeOf_settle_of_pending hpending] at hfound
        exact Option.some.inj hfound ▸ houtcome
      · rw [outcomeOf_settle_ne hsame] at hfound
        exact hmeets.settled other found hfound
    · rw [jobs_settle] at hjob
      rcases List.mem_append.mp hjob with hold | hnew
      · exact hmeets.queued job hold
      · obtain ⟨reaction, -, rfl⟩ := List.mem_map.mp hnew
        exact houtcome

end Meets

end Promises

end VmsLite.Async
