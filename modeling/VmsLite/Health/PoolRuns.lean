import VmsLite.Health.PoolAwaits

/-!
# Runs of the pool

Every move keeps what is known of the checks and of the place where the function awaits
(`kept_next`), and uses up some of a bounded stock, so that a run comes to its end (`isDependable`).
-/

set_option autoImplicit false

namespace VmsLite.Health

open VmsLite.Async Promises

variable {Item Err : Type} {limit : ℕ} {items : List Item}

variable {pool : Pool Item Err}

/-! ### One job -/

section Job

variable {reaction : Reaction Item} {outcome : Except Err Unit}
  {jobs : List (Reaction Item × Except Err Unit)} {after : Pool Item Err}

/-- What a job that does not go on with the function leaves as it is. -/
structure Taken (reaction : Reaction Item) (jobs : List (Reaction Item × Except Err Unit))
    (pool after : Pool Item Err) : Prop where
  heap : after.heap = { pool.heap with jobs }
  rest : after.rest = pool.rest
  remaining : after.remaining = pool.remaining
  result : after.result = pool.result
  pushed : after.pushed = pool.pushed
  calls : after.calls ⊆ pool.calls
  started : pool.started ⊆ after.started
  executing : (∀ check, reaction ≠ .clean check) ∧ after.executing = pool.executing ∨
    ∃ check, reaction = .clean check ∧ after.executing = pool.executing.erase check

theorem Taken.outstanding (htaken : Taken reaction jobs pool after)
    (hjobs : pool.heap.jobs = (reaction, outcome) :: jobs) :
    pool.heap.outstanding.Perm (reaction :: after.heap.outstanding) := by
  rw [htaken.heap]
  exact outstanding_take hjobs

theorem Taken.checks (htaken : Taken reaction jobs pool after) : after.checks = pool.checks :=
  congrArg (List.map Prod.snd) htaken.pushed

theorem Taken.tended (htaken : Taken reaction jobs pool after) (htended : Tended limit items pool)
    (hjobs : pool.heap.jobs = (reaction, outcome) :: jobs) : Tended limit items after :=
  htended.take hjobs htaken.heap htaken.rest htaken.pushed htaken.calls htaken.started
    htaken.executing

theorem calls_taken (hjobs : pool.heap.jobs = (reaction, outcome) :: jobs)
    (hheap : after.heap = { pool.heap with jobs }) :
    pool.calls = reaction.called.toList ++ after.calls := by
  unfold Pool.calls
  rw [hjobs, hheap, List.filterMap_cons]
  cases reaction <;> rfl

/-- A callback runs. -/
theorem taken_call {item : Item} {check : ℕ}
    (hjobs : pool.heap.jobs = (.call item check, outcome) :: jobs) :
    Taken (.call item check) jobs pool { pool with
      heap := { pool.heap with jobs }
      started := pool.started ++ [(item, check)] } := by
  have hcalls := @calls_taken _ _ pool _ _ _ { pool with
    heap := { pool.heap with jobs }
    started := pool.started ++ [(item, check)] } hjobs rfl
  refine ⟨rfl, rfl, rfl, rfl, ?_, ?_, List.subset_append_left _ _, Or.inl ⟨nofun, rfl⟩⟩
  · unfold Pool.pushed
    rw [hcalls, List.append_assoc]
    rfl
  · rw [hcalls]
    exact List.subset_append_right _ _

theorem taken_clean {check : ℕ} (hjobs : pool.heap.jobs = (.clean check, outcome) :: jobs) :
    Taken (.clean check) jobs pool { pool with
      heap := { pool.heap with jobs }
      executing := pool.executing.erase check } := by
  have hcalls := @calls_taken _ _ pool _ _ _ { pool with
    heap := { pool.heap with jobs }
    executing := pool.executing.erase check } hjobs rfl
  refine ⟨rfl, rfl, rfl, rfl, ?_, hcalls ▸ List.Subset.refl _, List.Subset.refl _,
    Or.inr ⟨check, rfl, rfl⟩⟩
  unfold Pool.pushed
  rw [hcalls]
  rfl

/-- Any other job is taken before it runs. -/
theorem taken_other (hjobs : pool.heap.jobs = (reaction, outcome) :: jobs)
    (hcall : ∀ item check, reaction ≠ .call item check)
    (hclean : ∀ check, reaction ≠ .clean check) :
    Taken reaction jobs pool { pool with heap := { pool.heap with jobs } } := by
  have hcalls : pool.calls = { pool with heap := { pool.heap with jobs } }.calls := by
    rw [@calls_taken _ _ pool _ _ _ { pool with heap := { pool.heap with jobs } } hjobs rfl]
    cases reaction with
    | call item check => exact absurd rfl (hcall item check)
    | _ => rfl
  refine ⟨rfl, rfl, rfl, rfl, ?_, hcalls ▸ List.Subset.refl _, List.Subset.refl _,
    Or.inl ⟨hclean, rfl⟩⟩
  unfold Pool.pushed
  rw [hcalls]

theorem Taken.only (htaken : Taken reaction jobs pool after)
    (hjobs : pool.heap.jobs = (reaction, outcome) :: jobs) (hquiet : reaction.continues = false) :
    after.continuations.Perm pool.continuations :=
  continuations_take hjobs htaken.heap hquiet

theorem Racing.take (hracing : Racing limit pool) (htended : Tended limit items pool)
    (htaken : Taken reaction jobs pool after)
    (hjobs : pool.heap.jobs = (reaction, outcome) :: jobs) (hquiet : reaction.continues = false)
    (hrace : ∀ race check, reaction = .race race check → .resume ∉ pool.heap.waitingOn race) :
    Racing limit after := by
  have hperm := htaken.outstanding hjobs
  have hmem : ∀ {found}, found ∈ after.heap.outstanding → found ∈ pool.heap.outstanding :=
    fun hfound ↦ hperm.mem_iff.mpr (List.mem_cons_of_mem _ hfound)
  have hfewer : after.executing.length ≤ pool.executing.length := by
    rcases htaken.executing with ⟨-, hsame⟩ | ⟨check, -, herased⟩
    · exact Nat.le_of_eq (congrArg List.length hsame)
    · exact herased ▸ List.erase_sublist.length_le
  refine ⟨htaken.result.trans hracing.running, ?_, fun id check hjoin ↦ ?_, fun found hfound ↦ ?_,
    fun race hresume ↦ ?_⟩
  · exact List.perm_singleton.mp (hracing.only ▸ htaken.only hjobs hquiet)
  · exact hracing.early id check (hmem hjoin)
  · refine Nat.lt_of_le_of_lt hfewer (hracing.ready found ?_)
    rw [htaken.heap] at hfound
    exact hjobs ▸ List.mem_cons_of_mem _ hfound
  · have hwaits : .resume ∈ pool.heap.waitingOn race := by
      rw [htaken.heap] at hresume
      exact hresume
    obtain ⟨⟨check, hcheck⟩, hall⟩ := hracing.races race hwaits
    constructor
    · refine ⟨check, (List.mem_cons.mp (hperm.mem_iff.mp hcheck)).resolve_left ?_⟩
      exact fun hsame ↦ hrace race check hsame.symm hwaits
    · intro other hother
      rcases hall other (hmem hother) with hexecuting | hroom
      · rcases htaken.executing with ⟨-, hsame⟩ | ⟨cleaned, -, herased⟩
        · exact Or.inl (hsame ▸ hexecuting)
        · by_cases hsame : other = cleaned
          · -- the check itself leaves its place
            right
            have hone := List.length_erase_of_mem (hsame ▸ hexecuting : cleaned ∈ pool.executing)
            have hpositive := List.length_pos_of_mem hexecuting
            have hbound := htended.executing_le
            rw [herased]
            omega
          · exact Or.inl (herased ▸ htended.executing_nodup.mem_erase_iff.mpr ⟨hsame, hexecuting⟩)
      · exact Or.inr (Nat.lt_of_le_of_lt hfewer hroom)

theorem Joining.take (hjoining : Joining pool) (htaken : Taken reaction jobs pool after)
    (hjobs : pool.heap.jobs = (reaction, outcome) :: jobs) (hquiet : reaction.continues = false)
    (hjoin : reaction.isJoin = false) : Joining after := by
  have hperm := htaken.outstanding hjobs
  have hmem : ∀ {found}, found ∈ after.heap.outstanding → found ∈ pool.heap.outstanding :=
    fun hfound ↦ hperm.mem_iff.mpr (List.mem_cons_of_mem _ hfound)
  have hchecks := htaken.checks
  refine ⟨htaken.result.trans hjoining.running, ?_, htaken.rest.trans hjoining.noneLeft,
    fun hfinish check hcheck ↦ ?_, fun all hall ↦ ?_⟩
  · exact List.perm_singleton.mp (hjoining.only ▸ htaken.only hjobs hquiet)
  · rw [htaken.heap] at hfinish ⊢
    exact hjoining.resolved (hjobs ▸ List.mem_cons_of_mem _ hfinish) check (hchecks ▸ hcheck)
  · have hwaits : .finish ∈ pool.heap.waitingOn all := by
      rw [htaken.heap] at hall
      exact hall
    obtain ⟨hraces, hjoins, hpositive, hcount, hpending⟩ := hjoining.awaited all hwaits
    refine ⟨fun race check hrace ↦ hraces race check (hmem hrace),
      fun id check hfound ↦ hjoins id check (hmem hfound), htaken.remaining ▸ hpositive, ?_,
      fun check hcheck hopen ↦ ?_⟩
    · rw [htaken.remaining, hcount, hperm.countP_eq, List.countP_cons_of_neg (by simp [hjoin])]
    · rw [htaken.heap] at hopen ⊢
      exact hpending check (hchecks ▸ hcheck) hopen

theorem Settled.take {found : Except Err Unit} (hsettled : Settled pool found)
    (htaken : Taken reaction jobs pool after)
    (hjobs : pool.heap.jobs = (reaction, outcome) :: jobs)
    (hquiet : reaction.continues = false) : Settled after found := by
  have hchecks := htaken.checks
  refine ⟨htaken.result.trans hsettled.result, ?_, fun hok ↦ ?_, fun error hfailed ↦ ?_⟩
  · exact List.perm_nil.mp (hsettled.only ▸ htaken.only hjobs hquiet)
  · refine ⟨htaken.rest.trans (hsettled.resolved hok).1, fun check hcheck ↦ ?_⟩
    rw [htaken.heap]
    exact (hsettled.resolved hok).2 check (hchecks ▸ hcheck)
  · obtain ⟨entry, hentry, houtcome⟩ := hsettled.rejected error hfailed
    refine ⟨entry, htaken.started hentry, ?_⟩
    rw [htaken.heap]
    exact houtcome

end Job

/-- What the pool knows between two moves. -/
structure Kept (limit : ℕ) (items : List Item) (pool : Pool Item Err) : Prop where
  tended : Tended limit items pool
  stands : Stands limit pool

section Moves

variable {outcome : Except Err Unit} {jobs : List (Reaction Item × Except Err Unit)}

/-- A job runs with which neither the function goes on nor a promise is settled. -/
theorem kept_taken (hkept : Kept limit items pool) {reaction : Reaction Item}
    {after : Pool Item Err} (htaken : Taken reaction jobs pool after)
    (hjobs : pool.heap.jobs = (reaction, outcome) :: jobs) (hquiet : reaction.continues = false)
    (hrace : ∀ race check, reaction ≠ .race race check) (hjoin : reaction.isJoin = false) :
    Kept limit items after := by
  refine ⟨htaken.tended hkept.tended hjobs, ?_⟩
  cases hkept.stands with
  | racing hracing =>
    exact .racing (hracing.take hkept.tended htaken hjobs hquiet fun race check hsame ↦
      absurd hsame (hrace race check))
  | joining hjoining => exact .joining (hjoining.take htaken hjobs hquiet hjoin)
  | settled found hfound => exact .settled found (hfound.take htaken hjobs hquiet)

/-- A race is settled as a check is. -/
theorem kept_race (hkept : Kept limit items pool) {race check : ℕ}
    (hjobs : pool.heap.jobs = (.race race check, outcome) :: jobs) :
    Kept limit items { pool with heap := { pool.heap with jobs }.settle race outcome } := by
  obtain ⟨htended, hstands⟩ := hkept
  have htaken := taken_other hjobs nofun nofun
  have hafter := htaken.tended htended hjobs
  have hqueued : .race race check ∈ pool.heap.outstanding :=
    mem_outstanding.mpr (Or.inr ⟨outcome, hjobs ▸ List.mem_cons_self⟩)
  have hnot : race ∉ pool.checks := (htended.targets _ hqueued race check (Or.inl rfl)).1
  have herror : ∀ error, outcome = .error error → ∃ entry ∈ pool.started,
      ({ pool.heap with jobs }.settle race outcome).outcomeOf entry.2 = some (.error error) := by
    intro error hfailed
    obtain ⟨entry, hentry, hfound⟩ :=
      htended.errors _ (hjobs ▸ List.mem_cons_self) error hfailed
    exact ⟨entry, hentry, outcomeOf_settle_of_some hfound⟩
  refine ⟨hafter.settle (fun hcheck ↦ ?_) herror, ?_⟩
  · exact absurd (htaken.checks ▸ hcheck : race ∈ pool.checks) hnot
  have hgoes : ∀ reaction ∈ pool.heap.waitingOn race, reaction.continues = true :=
    htended.others race hnot
  cases hstands with
  | racing hracing =>
    by_cases hresume : .resume ∈ pool.heap.waitingOn race
    · -- the check has left its place, and the loop is to go on
      have hroom : pool.executing.length < limit :=
        ((hracing.races race hresume).2 check hqueued).resolve_left (htended.not_executing hjobs)
      have hmem : ∀ {reaction}, reaction ∈
          ({ pool.heap with jobs }.settle race outcome).outstanding →
            reaction ∈ pool.heap.outstanding := fun hfound ↦
        (htaken.outstanding hjobs).mem_iff.mpr
          (List.mem_cons_of_mem _ (outstanding_settle.mem_iff.mp hfound))
      have honly : { pool with heap :=
          { pool.heap with jobs }.settle race outcome }.continuations = [.resume] :=
        List.perm_singleton.mp (hracing.only ▸
          (continuations_settle race outcome).trans (htaken.only hjobs rfl))
      have hjob : (.resume, outcome) ∈ ({ pool.heap with jobs }.settle race outcome).jobs := by
        rw [jobs_settle]
        exact List.mem_append_right _ (List.mem_map_of_mem hresume)
      exact .racing ⟨hracing.running, honly,
        fun id other hjoin ↦ hracing.early id other (hmem hjoin), fun _ _ ↦ hroom,
        fun other hother ↦ (not_waiting_of_job honly hother rfl hjob rfl).elim⟩
    · refine (Stands.racing (hracing.take htended htaken hjobs rfl ?_)).settle hafter
        fun reaction hmem ↦ ?_
      · rintro _ _ ⟨⟩
        exact hresume
      · have hsole := @continues_of_waiting _ _ pool _ _ hmem (hgoes reaction hmem)
        rw [hracing.only, List.mem_singleton] at hsole
        exact absurd (hsole ▸ hmem) hresume
  | joining hjoining =>
    refine (Stands.joining (hjoining.take htaken hjobs rfl rfl)).settle hafter
      fun reaction hmem ↦ ?_
    have hsole := @continues_of_waiting _ _ pool _ _ hmem (hgoes reaction hmem)
    rw [hjoining.only, List.mem_singleton] at hsole
    exact absurd rfl ((hjoining.awaited race (hsole ▸ hmem)).1 race check hqueued)
  | settled found hfound =>
    refine (Stands.settled found (hfound.take htaken hjobs rfl)).settle hafter
      fun reaction hmem ↦ ?_
    have hsole := @continues_of_waiting _ _ pool _ _ hmem (hgoes reaction hmem)
    rw [hfound.only] at hsole
    cases hsole

section Join

variable {all check : ℕ} (hkept : Kept limit items pool)
  (hjobs : pool.heap.jobs = (.join all check, outcome) :: jobs)

include hkept hjobs

/-- The state once the element has been taken. -/
theorem tended_join (remaining : ℕ) :
    Tended limit items { pool with heap := { pool.heap with jobs }, remaining } :=
  ((taken_other hjobs nofun nofun).tended hkept.tended hjobs).withResult remaining pool.result

theorem target_join : all ∉ pool.checks :=
  (hkept.tended.targets _ (mem_outstanding.mpr (Or.inr ⟨outcome, hjobs ▸ List.mem_cons_self⟩)) all
    check (Or.inr rfl)).1

/-- An element comes while the function awaits `Promise.all`, or later. -/
theorem joining_or_settled : Joining pool ∨ ∃ found, Settled pool found := by
  cases hkept.stands with
  | racing hracing =>
    exact absurd (mem_outstanding.mpr (Or.inr ⟨outcome, hjobs ▸ List.mem_cons_self⟩))
      (hracing.early all check)
  | joining hjoining => exact Or.inl hjoining
  | settled found hfound => exact Or.inr ⟨found, hfound⟩

omit hkept in
theorem mem_of_join {reaction : Reaction Item}
    (hmem : reaction ∈ { pool.heap with jobs }.outstanding) :
    reaction ∈ pool.heap.outstanding :=
  (outstanding_take hjobs).mem_iff.mpr (List.mem_cons_of_mem _ hmem)

/-- An element that comes too late for the promise of `Promise.all`. -/
theorem stands_late (hlate : .finish ∉ pool.heap.waitingOn all) (remaining : ℕ) :
    Stands limit { pool with heap := { pool.heap with jobs }, remaining } := by
  have htaken := taken_other hjobs nofun nofun
  rcases joining_or_settled hkept hjobs with hjoining | ⟨found, hfound⟩
  · refine .joining ⟨hjoining.running, ?_, hjoining.noneLeft, fun hfinish other hother ↦ ?_,
      fun other hother ↦ ?_⟩
    · exact List.perm_singleton.mp (hjoining.only ▸ htaken.only hjobs rfl)
    · have hmem : other ∈ { pool with heap := { pool.heap with jobs } }.checks := hother
      exact hjoining.resolved (hjobs ▸ List.mem_cons_of_mem _ hfinish) other
        (htaken.checks ▸ hmem)
    · have hsame := (hjoining.awaited other hother).2.1 all check
        (mem_outstanding.mpr (Or.inr ⟨outcome, hjobs ▸ List.mem_cons_self⟩))
      exact absurd (hsame ▸ hother) hlate
  · have hafter := hfound.take htaken hjobs rfl
    exact .settled found ⟨hafter.result, hafter.only, hafter.resolved, hafter.rejected⟩

/-- With an element `Promise.all` may be settled: it was already, or the element rejects, or it is
the last one. -/
theorem kept_settleAll {found : Except Err Unit} (remaining : ℕ)
    (herror : ∀ error, found = .error error → outcome = .error error)
    (hlast : found = .ok () → .finish ∈ pool.heap.waitingOn all →
      ∀ other ∈ pool.checks, pool.heap.isPending other = false) :
    Kept limit items
      { pool with heap := { pool.heap with jobs }.settle all found, remaining } := by
  have htaken := taken_other hjobs nofun nofun
  have hchecks := htaken.checks
  have hafter := tended_join hkept hjobs remaining
  have htarget := target_join hkept hjobs
  refine ⟨hafter.settle (fun hcheck ↦ ?_) fun error hfailed ↦ ?_, ?_⟩
  · exact absurd (hchecks ▸ hcheck : all ∈ pool.checks) htarget
  · obtain ⟨entry, hentry, houtcome⟩ := hkept.tended.errors _ (hjobs ▸ List.mem_cons_self) error
      (herror error hfailed)
    exact ⟨entry, hentry, outcomeOf_settle_of_some houtcome⟩
  by_cases hwaits : .finish ∈ pool.heap.waitingOn all
  · rcases joining_or_settled hkept hjobs with hjoining | ⟨settled, hsettled⟩
    · refine .joining (joining_settle (htaken.tended hkept.tended hjobs) hjoining.running ?_
        hjoining.noneLeft hwaits fun hok other hother ↦ ?_)
      · exact List.perm_singleton.mp (hjoining.only ▸ htaken.only hjobs rfl)
      · exact hlast hok hwaits other (hchecks ▸ hother)
    · have hsole := continues_of_waiting hwaits rfl
      rw [hsettled.only] at hsole
      cases hsole
  · refine (stands_late hkept hjobs hwaits remaining).settle hafter fun reaction hmem ↦ ?_
    by_contra hcontinues
    have hsole := @continues_of_waiting _ _ pool _ _ hmem (eq_true_of_ne_false hcontinues)
    rcases joining_or_settled hkept hjobs with hjoining | ⟨settled, hsettled⟩
    · rw [hjoining.only, List.mem_singleton] at hsole
      exact hwaits (hsole ▸ hmem)
    · rw [hsettled.only] at hsole
      cases hsole

/-- An element of `Promise.all` is resolved. -/
theorem kept_join : Kept limit items { pool with
    heap := if pool.remaining - 1 = 0 then { pool.heap with jobs }.settle all (.ok ())
      else { pool.heap with jobs }
    remaining := pool.remaining - 1 } := by
  have htake := (outstanding_take hjobs).countP_eq Reaction.isJoin
  rw [List.countP_cons_of_pos rfl] at htake
  split_ifs with hzero
  · refine kept_settleAll hkept hjobs _ nofun fun _ hwaits other hother ↦ ?_
    -- no element is outstanding, so that no check is pending
    rcases joining_or_settled hkept hjobs with hjoining | ⟨settled, hsettled⟩
    · obtain ⟨-, -, -, hcount, hpending⟩ := hjoining.awaited all hwaits
      by_contra hopen
      have hmem : .join all other ∈ { pool.heap with jobs }.outstanding :=
        mem_outstanding.mpr (Or.inl ⟨other, hpending other hother (eq_true_of_ne_false hopen)⟩)
      have hpositive := List.countP_pos_iff.mpr ⟨_, hmem, (rfl : (Reaction.join all other :
        Reaction Item).isJoin = true)⟩
      rw [hcount, htake] at hzero
      exact absurd hzero (Nat.ne_of_gt hpositive)
    · have hsole := continues_of_waiting hwaits rfl
      rw [hsettled.only] at hsole
      cases hsole
  · refine ⟨tended_join hkept hjobs _, ?_⟩
    by_cases hwaits : .finish ∈ pool.heap.waitingOn all
    · rcases joining_or_settled hkept hjobs with hjoining | ⟨settled, hsettled⟩
      · have htaken := taken_other hjobs nofun nofun
        have hchecks := htaken.checks
        refine .joining ⟨hjoining.running, ?_, hjoining.noneLeft, fun hfinish other hother ↦ ?_,
          fun other hother ↦ ?_⟩
        · exact List.perm_singleton.mp (hjoining.only ▸ htaken.only hjobs rfl)
        · exact hjoining.resolved (hjobs ▸ List.mem_cons_of_mem _ hfinish) other
            (hchecks ▸ hother)
        · obtain ⟨hraces, hjoins, -, hcount, hpending⟩ := hjoining.awaited other hother
          refine ⟨fun race found hrace ↦ hraces race found (mem_of_join hjobs hrace),
            fun id found hjoin ↦ hjoins id found (mem_of_join hjobs hjoin), ?_, ?_,
            fun found hfound hopen ↦ hpending found (hchecks ▸ hfound) hopen⟩
          · exact Nat.pos_of_ne_zero hzero
          · dsimp only
            omega
      · have hsole := continues_of_waiting hwaits rfl
        rw [hsettled.only] at hsole
        cases hsole
    · exact stands_late hkept hjobs hwaits _

end Join

/-! ### The function goes on -/

section Goes

variable {reaction last : Reaction Item} (hkept : Kept limit items pool)
  (hjobs : pool.heap.jobs = (reaction, outcome) :: jobs)

include hjobs

/-- The one reaction with which the function goes on is taken. -/
theorem continuations_gone (hcontinues : reaction.continues = true)
    (honly : pool.continuations = [last]) :
    reaction = last ∧ { pool with heap := { pool.heap with jobs } }.continuations = [] := by
  have hperm := (outstanding_take hjobs).filter Reaction.continues
  rw [List.filter_cons_of_pos hcontinues] at hperm
  have hsame : [last].Perm (reaction ::
      { pool with heap := { pool.heap with jobs } }.continuations) := honly ▸ hperm
  obtain ⟨hlast, hnone⟩ := List.cons.inj (List.perm_singleton.mp hsame.symm)
  exact ⟨hlast, hnone⟩

theorem queued_of_jobs : reaction ∈ pool.heap.outstanding :=
  mem_outstanding.mpr (Or.inr ⟨outcome, hjobs ▸ List.mem_cons_self⟩)

include hkept

/-- The function goes on only where it waits. -/
theorem running_of_continues (hcontinues : reaction.continues = true) :
    Racing limit pool ∨ Joining pool := by
  cases hkept.stands with
  | racing hracing => exact Or.inl hracing
  | joining hjoining => exact Or.inr hjoining
  | settled found hfound =>
    have hmem := mem_continuations.mpr ⟨queued_of_jobs hjobs, hcontinues⟩
    rw [hfound.only] at hmem
    cases hmem

/-- What a rejection comes from. -/
theorem rejected_of_job {error : Err} (hfailed : outcome = .error error) :
    ∃ entry ∈ pool.started, pool.heap.outcomeOf entry.2 = some (.error error) :=
  hkept.tended.errors _ (hjobs ▸ List.mem_cons_self) error hfailed

end Goes

/-- The loop goes on behind a race, or what the race rejects with is thrown. -/
theorem kept_resume (hlimit : 1 ≤ limit) (hkept : Kept limit items pool)
    (hjobs : pool.heap.jobs = (.resume, outcome) :: jobs) : Kept limit items
      (Pool.run { pool with heap := { pool.heap with jobs } } limit outcome .resume) := by
  have htaken := taken_other hjobs nofun nofun
  have hafter := htaken.tended hkept.tended hjobs
  rcases running_of_continues hkept hjobs rfl with hracing | hjoining
  · obtain ⟨-, hnone⟩ := continuations_gone hjobs rfl hracing.only
    cases outcome with
    | ok value =>
      have hlooping : Looping { pool with heap := { pool.heap with jobs } } :=
        ⟨hracing.running, hnone, fun id check hjoin ↦ hracing.early id check
          ((outstanding_take hjobs).mem_iff.mpr (List.mem_cons_of_mem _ hjoin))⟩
      have hroom := hracing.ready _ (hjobs ▸ List.mem_cons_self)
      obtain ⟨htended, hstands⟩ := stands_loop hlimit hafter hlooping rfl hroom
      exact ⟨htended, hstands⟩
    | error error =>
      refine ⟨hafter.withResult _ _, .settled (.error error) ⟨rfl, hnone, nofun, ?_⟩⟩
      rintro found ⟨⟩
      exact rejected_of_job hkept hjobs rfl
  · cases (continuations_gone hjobs rfl hjoining.only).1

/-- The function returns, or what `Promise.all` rejects with is thrown. -/
theorem kept_finish (hkept : Kept limit items pool)
    (hjobs : pool.heap.jobs = (.finish, outcome) :: jobs) : Kept limit items
      (Pool.run { pool with heap := { pool.heap with jobs } } limit outcome .finish) := by
  have htaken := taken_other hjobs nofun nofun
  have hchecks := htaken.checks
  have hafter := htaken.tended hkept.tended hjobs
  rcases running_of_continues hkept hjobs rfl with hracing | hjoining
  · cases (continuations_gone hjobs rfl hracing.only).1
  · obtain ⟨-, hnone⟩ := continuations_gone hjobs rfl hjoining.only
    refine ⟨hafter.withResult _ _, .settled outcome ⟨rfl, hnone, fun hok ↦ ⟨hjoining.noneLeft, ?_⟩,
      fun error hfailed ↦ rejected_of_job hkept hjobs hfailed⟩⟩
    intro check hcheck
    refine hjoining.resolved (hok ▸ hjobs ▸ List.mem_cons_self) check ?_
    exact hchecks ▸ hcheck

/-! ### One move -/

/-- One case for each reaction. -/
theorem kept_job (hlimit : 1 ≤ limit) (hkept : Kept limit items pool) {reaction : Reaction Item}
    (hjobs : pool.heap.jobs = (reaction, outcome) :: jobs) : Kept limit items
      (Pool.run { pool with heap := { pool.heap with jobs } } limit outcome reaction) := by
  cases reaction with
  | call item check => exact kept_taken hkept (taken_call hjobs) hjobs rfl nofun rfl
  | clean check => exact kept_taken hkept (taken_clean hjobs) hjobs rfl nofun rfl
  | race race check => exact kept_race hkept hjobs
  | resume => exact kept_resume hlimit hkept hjobs
  | join all check =>
    cases outcome with
    | ok value =>
      have hjoined := kept_join hkept hjobs
      exact hjoined
    | error error =>
      exact kept_settleAll hkept hjobs pool.remaining (fun _ hfailed ↦ hfailed) nofun
  | finish => exact kept_finish hkept hjobs

/-- A check that has begun is over. -/
theorem kept_settle (hkept : Kept limit items pool) {check : ℕ}
    (hcheck : check ∈ pool.started.map Prod.snd) :
    Kept limit items { pool with heap := pool.heap.settle check outcome } := by
  obtain ⟨entry, hentry, rfl⟩ := List.mem_map.mp hcheck
  have hknown : entry.2 ∈ pool.checks := List.mem_map_of_mem (List.mem_append_left _ hentry)
  cases hpending : pool.heap.isPending entry.2 with
  | false =>
    rw [settle_of_not_pending hpending]
    exact hkept
  | true =>
    refine ⟨hkept.tended.settle (fun _ ↦ ⟨entry, hentry, rfl⟩) fun error hfailed ↦ ?_,
      hkept.stands.settle hkept.tended fun reaction hreaction ↦ ?_⟩
    · exact ⟨entry, hentry, (outcomeOf_settle_of_pending hpending).trans (congrArg some hfailed)⟩
    · exact hkept.tended.quiet_of_check hknown hreaction

theorem kept_next (hlimit : 1 ≤ limit) (hkept : Kept limit items pool) (move : PoolMove Err) :
    Kept limit items (pool.next limit move) := by
  cases move with
  | job =>
    cases hjobs : pool.heap.jobs with
    | nil =>
      unfold Pool.next
      rw [hjobs]
      exact hkept
    | cons job jobs =>
      unfold Pool.next
      rw [hjobs]
      exact kept_job hlimit hkept hjobs
  | settle check outcome =>
    unfold Pool.next
    dsimp only
    split_ifs with hcheck
    · exact kept_settle hkept hcheck
    · exact hkept

/-- The pool before the loop begins. -/
theorem tended_initial : Tended limit items ({ rest := items } : Pool Item Err) :=
  ⟨rfl, List.nodup_nil, nofun, nofun, List.nodup_nil, nofun, Nat.zero_le _, nofun, nofun, nofun,
    nofun, nofun, nofun, nofun, List.Pairwise.nil, nofun⟩

theorem kept_initial (hlimit : 1 ≤ limit) (items : List Item) :
    Kept limit items (Pool.runWithConcurrencyLimit items limit : Pool Item Err) := by
  have hlooping : Looping ({ rest := items } : Pool Item Err) := ⟨rfl, rfl, nofun⟩
  obtain ⟨hafter, hstands⟩ := stands_loop hlimit tended_initial hlooping rfl hlimit
  exact ⟨hafter, hstands⟩

end Moves

end VmsLite.Health
