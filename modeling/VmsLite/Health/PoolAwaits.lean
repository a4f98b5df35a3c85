import VmsLite.Health.PoolChecks

/-!
# Where the pool awaits

Between two moves the function awaits a race, it awaits all checks, or it has settled (`Stands`).
The loop runs from one `await` to the next (`stands_loop`); it goes on behind a race with a place
left.
-/

set_option autoImplicit false

namespace VmsLite.Health

open VmsLite.Async Promises

variable {Item Err : Type} {limit : ℕ} {items : List Item}

/-! ### Where the function awaits -/

/-- The reactions with which the function is to go on. -/
def Pool.continuations (pool : Pool Item Err) : List (Reaction Item) :=
  pool.heap.outstanding.filter Reaction.continues

/-- The function awaits a race: when the loop goes on, there is a place left. -/
structure Racing (limit : ℕ) (pool : Pool Item Err) : Prop where
  running : pool.result = none
  only : pool.continuations = [.resume]
  early : ∀ id check, .join id check ∉ pool.heap.outstanding
  ready : ∀ outcome, (.resume, outcome) ∈ pool.heap.jobs → pool.executing.length < limit
  races : ∀ race, .resume ∈ pool.heap.waitingOn race →
    (∃ check, .race race check ∈ pool.heap.outstanding) ∧
      ∀ check, .race race check ∈ pool.heap.outstanding →
        check ∈ pool.executing ∨ pool.executing.length < limit

/-- The function awaits all checks. -/
structure Joining (pool : Pool Item Err) : Prop where
  running : pool.result = none
  only : pool.continuations = [.finish]
  noneLeft : pool.rest = []
  resolved : (.finish, .ok ()) ∈ pool.heap.jobs →
    ∀ check ∈ pool.checks, pool.heap.isPending check = false
  awaited : ∀ all, .finish ∈ pool.heap.waitingOn all →
    (∀ race check, .race race check ∈ pool.heap.outstanding → race ≠ all) ∧
      (∀ id check, .join id check ∈ pool.heap.outstanding → id = all) ∧
        0 < pool.remaining ∧ pool.remaining = pool.heap.outstanding.countP Reaction.isJoin ∧
          ∀ check ∈ pool.checks, pool.heap.isPending check = true →
            .join all check ∈ pool.heap.waitingOn check

/-- The function has returned or thrown. -/
structure Settled (pool : Pool Item Err) (outcome : Except Err Unit) : Prop where
  result : pool.result = some outcome
  only : pool.continuations = []
  resolved : outcome = .ok () →
    pool.rest = [] ∧ ∀ check ∈ pool.checks, pool.heap.isPending check = false
  rejected : ∀ error, outcome = .error error → ∃ entry ∈ pool.started,
    pool.heap.outcomeOf entry.2 = some (.error error)

/-- Where the function is between two moves. -/
inductive Stands (limit : ℕ) (pool : Pool Item Err) : Prop
  | racing (h : Racing limit pool)
  | joining (h : Joining pool)
  | settled (outcome : Except Err Unit) (h : Settled pool outcome)

section Stands

variable {pool : Pool Item Err}

theorem Tended.withResult (htended : Tended limit items pool) (remaining : ℕ)
    (result : Option (Except Err Unit)) :
    Tended limit items { pool with remaining, result } :=
  ⟨htended.inOrder, htended.nodup, htended.known, htended.called, htended.executing_nodup,
    htended.executing_known, htended.executing_le, htended.pending, htended.cleaned, htended.waits,
    htended.others, htended.targets, htended.named, htended.queued, htended.order, htended.errors⟩

/-- What waits for the promise of a check does not go on with the function. -/
theorem Tended.quiet_of_check (htended : Tended limit items pool) {check : ℕ}
    (hcheck : check ∈ pool.checks) {reaction : Reaction Item}
    (hreaction : reaction ∈ pool.heap.waitingOn check) : reaction.continues = false := by
  have hpending : pool.heap.isPending check = true := by
    by_contra hsettled
    rw [waitingOn_of_not_pending (eq_false_of_ne_true hsettled)] at hreaction
    cases hreaction
  obtain ⟨others, hwaits, hothers⟩ := htended.waits check hcheck hpending
  rw [hwaits] at hreaction
  rcases List.mem_cons.mp hreaction with rfl | hother
  · rfl
  · obtain ⟨id, rfl | rfl⟩ := hothers _ hother
    · rfl
    · rfl

theorem mem_continuations {reaction : Reaction Item} :
    reaction ∈ pool.continuations ↔
      reaction ∈ pool.heap.outstanding ∧ reaction.continues = true := List.mem_filter

theorem continues_of_waiting {reaction : Reaction Item} {id : ℕ}
    (hmem : reaction ∈ pool.heap.waitingOn id) (hcontinues : reaction.continues = true) :
    reaction ∈ pool.continuations :=
  mem_continuations.mpr ⟨mem_outstanding.mpr (Or.inl ⟨id, hmem⟩), hcontinues⟩

/-- The one reaction with which the function goes on does not both wait and stand in the queue. -/
theorem not_waiting_of_job {first second last : Reaction Item}
    {outcome : Except Err Unit} {id : ℕ} (honly : pool.continuations = [last])
    (hfirst : first ∈ pool.heap.waitingOn id) (hcontinues : first.continues = true)
    (hjob : (second, outcome) ∈ pool.heap.jobs) (hgoes : second.continues = true) : False := by
  unfold Pool.continuations Promises.outstanding at honly
  rw [List.filter_append] at honly
  have hwaiting : first ∈ pool.heap.waiting.filter Reaction.continues :=
    List.mem_filter.mpr ⟨mem_waiting.mpr ⟨id, hfirst⟩, hcontinues⟩
  have hqueued : second ∈ (pool.heap.jobs.map Prod.fst).filter Reaction.continues :=
    List.mem_filter.mpr ⟨List.mem_map_of_mem hjob, hgoes⟩
  have hlength := congrArg List.length honly
  rw [List.length_append, List.length_singleton] at hlength
  have hone := List.length_pos_of_mem hwaiting
  have htwo := List.length_pos_of_mem hqueued
  omega

theorem continuations_settle (id : ℕ) (outcome : Except Err Unit) :
    { pool with heap := pool.heap.settle id outcome }.continuations.Perm pool.continuations :=
  outstanding_settle.filter _

theorem continuations_take {reaction : Reaction Item} {outcome : Except Err Unit}
    {jobs : List (Reaction Item × Except Err Unit)} {after : Pool Item Err}
    (hjobs : pool.heap.jobs = (reaction, outcome) :: jobs)
    (hheap : after.heap = { pool.heap with jobs }) (hquiet : reaction.continues = false) :
    after.continuations.Perm pool.continuations := by
  unfold Pool.continuations
  rw [hheap]
  refine List.Perm.symm (((outstanding_take hjobs).filter _).trans (List.Perm.of_eq ?_))
  exact List.filter_cons_of_neg (by simp [hquiet])

/-- A promise is settled with which the function does not go on. -/
theorem Stands.settle (htended : Tended limit items pool) (hstands : Stands limit pool) {id : ℕ}
    {outcome : Except Err Unit}
    (hquiet : ∀ reaction ∈ pool.heap.waitingOn id, reaction.continues = false) :
    Stands limit { pool with heap := pool.heap.settle id outcome } := by
  have hchecks := htended.checks_settle id outcome
  have hmem : ∀ {reaction}, reaction ∈ (pool.heap.settle id outcome).outstanding ↔
      reaction ∈ pool.heap.outstanding := outstanding_settle.mem_iff
  have hjob : ∀ {reaction : Reaction Item} {found}, reaction.continues = true →
      (reaction, found) ∈ (pool.heap.settle id outcome).jobs →
        (reaction, found) ∈ pool.heap.jobs := by
    intro reaction found hcontinues hjob
    rw [jobs_settle] at hjob
    rcases List.mem_append.mp hjob with hold | hnew
    · exact hold
    · obtain ⟨waiting, hwaiting, hsame⟩ := List.mem_map.mp hnew
      obtain rfl := (Prod.mk.inj hsame).1
      cases (hquiet waiting hwaiting).symm.trans hcontinues
  have hwaiting : ∀ {reaction : Reaction Item} {other : ℕ},
      reaction ∈ (pool.heap.settle id outcome).waitingOn other → other ≠ id := by
    rintro reaction other hreaction rfl
    rw [waitingOn_settle_self] at hreaction
    cases hreaction
  have hsettled : ∀ {check}, pool.heap.isPending check = false →
      (pool.heap.settle id outcome).isPending check = false := by
    intro check hcheck
    rw [isPending_settle, hcheck]
    rfl
  cases hstands with
  | racing hracing =>
    refine .racing ⟨hracing.running, ?_, fun other check hjoin ↦ ?_, fun found hfound ↦ ?_,
      fun race hrace ↦ ?_⟩
    · exact List.perm_singleton.mp (hracing.only ▸ continuations_settle id outcome)
    · exact hracing.early other check (hmem.mp hjoin)
    · exact hracing.ready found (hjob rfl hfound)
    · have hne := hwaiting hrace
      dsimp only at hrace
      rw [waitingOn_settle_ne hne] at hrace
      obtain ⟨⟨check, hcheck⟩, hall⟩ := hracing.races race hrace
      exact ⟨⟨check, hmem.mpr hcheck⟩, fun other hother ↦ hall other (hmem.mp hother)⟩
  | joining hjoining =>
    refine .joining ⟨hjoining.running, ?_, hjoining.noneLeft, fun hfinish check hcheck ↦ ?_,
      fun all hall ↦ ?_⟩
    · exact List.perm_singleton.mp (hjoining.only ▸ continuations_settle id outcome)
    · rw [hchecks] at hcheck
      exact hsettled (hjoining.resolved (hjob rfl hfinish) check hcheck)
    · have hne := hwaiting hall
      dsimp only at hall
      rw [waitingOn_settle_ne hne] at hall
      obtain ⟨hraces, hjoins, hpositive, hcount, hwaits⟩ := hjoining.awaited all hall
      refine ⟨fun race check hrace ↦ hraces race check (hmem.mp hrace),
        fun other check hjoin ↦ hjoins other check (hmem.mp hjoin), hpositive, ?_,
        fun check hcheck hpending ↦ ?_⟩
      · exact hcount.trans (outstanding_settle.countP_eq _).symm
      · rw [hchecks] at hcheck
        dsimp only at hpending ⊢
        rw [isPending_settle, Bool.and_eq_true, decide_eq_true_eq] at hpending
        rw [waitingOn_settle_ne hpending.2]
        exact hwaits check hcheck hpending.1
  | settled found hfound =>
    refine .settled found ⟨hfound.result, ?_, fun hok ↦ ⟨(hfound.resolved hok).1, ?_⟩,
      fun error hfailed ↦ ?_⟩
    · exact List.perm_nil.mp (hfound.only ▸ continuations_settle id outcome)
    · intro check hcheck
      rw [hchecks] at hcheck
      exact hsettled ((hfound.resolved hok).2 check hcheck)
    · obtain ⟨entry, hentry, houtcome⟩ := hfound.rejected error hfailed
      exact ⟨entry, hentry, outcomeOf_settle_of_some houtcome⟩

/-- The promise that the function awaits last is settled. -/
theorem joining_settle (htended : Tended limit items pool) (hrunning : pool.result = none)
    (honly : pool.continuations = [.finish]) (hover : pool.rest = []) {all remaining : ℕ}
    {outcome : Except Err Unit} (hfinish : .finish ∈ pool.heap.waitingOn all)
    (hsettled : outcome = .ok () → ∀ check ∈ pool.checks, pool.heap.isPending check = false) :
    Joining { pool with heap := pool.heap.settle all outcome, remaining } := by
  have hjob : (.finish, outcome) ∈ (pool.heap.settle all outcome).jobs := by
    rw [jobs_settle]
    exact List.mem_append_right _ (List.mem_map_of_mem hfinish)
  have hsame : { pool with heap := pool.heap.settle all outcome, remaining }.continuations =
      [.finish] := List.perm_singleton.mp (honly ▸ continuations_settle all outcome)
  refine ⟨hrunning, hsame, hover, fun hresolved check hcheck ↦ ?_, fun other hother ↦ ?_⟩
  · have hsole : outcome = .ok () := by
      dsimp only at hresolved
      rw [jobs_settle] at hresolved
      rcases List.mem_append.mp hresolved with hold | hnew
      · exact (not_waiting_of_job honly hfinish rfl hold rfl).elim
      · obtain ⟨reaction, -, hpair⟩ := List.mem_map.mp hnew
        exact (Prod.mk.inj hpair).2
    have hbefore := hsettled hsole check (htended.checks_settle all outcome ▸ hcheck)
    dsimp only
    rw [isPending_settle, hbefore]
    rfl
  · exact (not_waiting_of_job hsame hother rfl hjob rfl).elim

/-! ### The loop -/

/-- The loop runs: nothing is to go on with the function, and there is a place left. -/
structure Looping (pool : Pool Item Err) : Prop where
  running : pool.result = none
  only : pool.continuations = []
  early : ∀ id check, .join id check ∉ pool.heap.outstanding

namespace Looping

variable (hlooping : Looping pool)

include hlooping

theorem not_continues {reaction : Reaction Item} (hmem : reaction ∈ pool.heap.outstanding) :
    reaction.continues = false := by
  by_contra hcontinues
  have hgoes := mem_continuations.mpr ⟨hmem, eq_true_of_ne_false hcontinues⟩
  rw [hlooping.only] at hgoes
  cases hgoes

theorem push (item : Item) (rest : List Item) : Looping (pool.push item rest) where
  running := hlooping.running
  only := by
    have hperm := (@outstanding_push _ _ pool item rest).filter Reaction.continues
    exact List.perm_nil.mp (hlooping.only ▸ hperm)
  early := by
    intro id check hjoin
    rcases List.mem_cons.mp (outstanding_push.mem_iff.mp hjoin) with hclean | hmore
    · cases hclean
    · rcases List.mem_cons.mp hmore with hcall | hold
      · cases hcall
      · exact hlooping.early id check hold

theorem awaited_only {after : Promises (Reaction Item) Err} {reactions : ℕ → Reaction Item}
    {last : Reaction Item} (hlast : last.continues = true)
    (hreactions : ∀ check, (reactions check).continues = false)
    (hawaited : Awaited pool.heap pool.executing reactions last after) :
    after.outstanding.filter Reaction.continues = [last] := by
  have hnone : (pool.executing.map reactions ++ pool.heap.outstanding).filter
      Reaction.continues = [] := by
    refine List.filter_eq_nil_iff.mpr fun reaction hreaction ↦ ?_
    rw [Bool.not_eq_true]
    rcases List.mem_append.mp hreaction with hnew | hold
    · obtain ⟨check, -, rfl⟩ := List.mem_map.mp hnew
      exact hreactions check
    · exact hlooping.not_continues hold
  have hperm := hawaited.outstanding.filter Reaction.continues
  rw [List.filter_cons_of_pos hlast, hnone] at hperm
  exact List.perm_singleton.mp hperm

end Looping

/-- The promise of a race and what waits for it. -/
theorem Tended.awaited_race (htended : Tended limit items pool) :
    Awaited pool.heap pool.executing (.race pool.heap.fresh) .resume pool.awaitRace.heap :=
  awaited (fun check hcheck ↦ htended.known check (htended.executing_known check hcheck))
    htended.executing_nodup _ _

/-- The loop comes to a race: a place is left once a check has been cleaned up. -/
theorem racing_awaitRace (hlimit : 1 ≤ limit) (htended : Tended limit items pool)
    (hlooping : Looping pool) (hfull : limit ≤ pool.executing.length) :
    Tended limit items pool.awaitRace ∧ Racing limit pool.awaitRace := by
  have hawaited := htended.awaited_race
  have hold : ∀ {reaction : Reaction Item} {id}, reaction.continues = true →
      reaction ∈ pool.awaitRace.heap.waitingOn id → id = pool.heap.fresh := by
    intro reaction id hcontinues hmem
    rcases hawaited.mem_waitingOn hmem with ⟨-, hfresh⟩ | hbefore | rfl
    · exact hfresh
    · cases (hlooping.not_continues (mem_outstanding.mpr (Or.inl ⟨id, hbefore⟩))).symm.trans
        hcontinues
    · cases hcontinues
  have hmem : ∀ {reaction}, reaction ∈ pool.awaitRace.heap.outstanding → reaction = .resume ∨
      (∃ check ∈ pool.executing, .race pool.heap.fresh check = reaction) ∨
        reaction ∈ pool.heap.outstanding := by
    intro reaction hreaction
    rcases List.mem_cons.mp (hawaited.outstanding.mem_iff.mp hreaction) with hlast | hmore
    · exact Or.inl hlast
    · exact Or.inr ((List.mem_append.mp hmore).imp_left List.mem_map.mp)
  refine ⟨htended.await rfl (fun check ↦ Or.inl rfl) hawaited, hlooping.running,
    hlooping.awaited_only rfl (fun _ ↦ rfl) hawaited, fun id check hjoin ↦ ?_,
    fun outcome hresume ↦ ?_, fun race hrace ↦ ?_⟩
  · rcases hmem hjoin with hlast | ⟨found, -, hsame⟩ | hbefore
    · cases hlast
    · cases hsame
    · exact hlooping.early id check hbefore
  · -- the loop has only just begun to wait
    obtain ⟨new, hjobs, hnew⟩ := hawaited.jobs
    have hqueued : (.resume, outcome) ∈ pool.heap.jobs ++ new := hjobs ▸ hresume
    rcases List.mem_append.mp hqueued with hbefore | hadded
    · cases hlooping.not_continues (mem_outstanding.mpr (Or.inr ⟨outcome, hbefore⟩))
    · obtain ⟨check, -, hsame, -⟩ := hnew _ hadded
      cases hsame
  · obtain rfl := hold rfl hrace
    constructor
    · obtain ⟨check, hcheck⟩ := List.exists_mem_of_length_pos (Nat.lt_of_lt_of_le hlimit hfull)
      refine ⟨check, hawaited.outstanding.mem_iff.mpr (List.mem_cons_of_mem _ ?_)⟩
      exact List.mem_append_left _ (List.mem_map_of_mem hcheck)
    · intro check hcheck
      rcases hmem hcheck with hlast | ⟨found, hfound, hsame⟩ | hbefore
      · cases hlast
      · exact Or.inl ((Reaction.race.inj hsame).2 ▸ hfound)
      · exact absurd (htended.targets _ hbefore _ check (Or.inl rfl)).2 (Nat.lt_irrefl _)

/-- The function awaits the checks that are left, of which there are some. -/
theorem joining_await (htended : Tended limit items pool) (hlooping : Looping pool)
    (hrest : pool.rest = []) (hsome : pool.executing ≠ []) {after : Promises (Reaction Item) Err}
    (hawaited : Awaited pool.heap pool.executing (.join pool.heap.fresh) .finish after) :
    Joining { pool with heap := after, remaining := pool.executing.length } := by
  have hmem : ∀ {reaction}, reaction ∈ after.outstanding → reaction = .finish ∨
      (∃ check ∈ pool.executing, .join pool.heap.fresh check = reaction) ∨
        reaction ∈ pool.heap.outstanding := by
    intro reaction hreaction
    rcases List.mem_cons.mp (hawaited.outstanding.mem_iff.mp hreaction) with hlast | hmore
    · exact Or.inl hlast
    · exact Or.inr ((List.mem_append.mp hmore).imp_left List.mem_map.mp)
  refine ⟨hlooping.running, hlooping.awaited_only rfl (fun _ ↦ rfl) hawaited, hrest,
    fun hfinish ↦ ?_, fun all hall ↦ ?_⟩
  · obtain ⟨new, hjobs, hnew⟩ := hawaited.jobs
    have hqueued : (.finish, .ok ()) ∈ pool.heap.jobs ++ new := hjobs ▸ hfinish
    rcases List.mem_append.mp hqueued with hbefore | hadded
    · cases hlooping.not_continues (mem_outstanding.mpr (Or.inr ⟨_, hbefore⟩))
    · obtain ⟨check, -, hsame, -⟩ := hnew _ hadded
      cases hsame
  obtain rfl : all = pool.heap.fresh := by
    rcases hawaited.mem_waitingOn hall with ⟨-, hfresh⟩ | hbefore | hsame
    · exact hfresh
    · cases hlooping.not_continues (mem_outstanding.mpr (Or.inl ⟨all, hbefore⟩))
    · cases hsame
  refine ⟨fun race check hrace ↦ ?_, fun id check hjoin ↦ ?_,
    List.length_pos_iff.mpr hsome, ?_, fun check hcheck hpending ↦ ?_⟩
  · rcases hmem hrace with hlast | ⟨found, -, hsame⟩ | hbefore
    · cases hlast
    · cases hsame
    · exact Nat.ne_of_lt (htended.targets _ hbefore race check (Or.inl rfl)).2
  · rcases hmem hjoin with hlast | ⟨found, -, hsame⟩ | hbefore
    · cases hlast
    · exact (Reaction.join.inj hsame).1.symm
    · exact absurd hbefore (hlooping.early id check)
  · -- the elements are all there are
    have hnone : pool.heap.outstanding.countP Reaction.isJoin = 0 := by
      refine List.countP_eq_zero.mpr fun reaction hreaction hjoin ↦ ?_
      cases reaction with
      | join id check => exact hlooping.early id check hreaction
      | _ => cases hjoin
    have hall : (pool.executing.map (@Reaction.join Item pool.heap.fresh)).countP
        Reaction.isJoin = pool.executing.length := by
      rw [List.countP_map]
      exact List.countP_eq_length.mpr fun _ _ ↦ rfl
    dsimp only
    rw [hawaited.outstanding.countP_eq, List.countP_cons_of_neg (by simp [Reaction.isJoin]),
      List.countP_append, hall, hnone]
    rfl
  · have hchecks : check ∈ pool.checks :=
      checks_congr (Tended.calls_await (fun _ ↦ Or.inr rfl) hawaited) ▸ hcheck
    have hwaiting : pool.heap.isPending check = true := by
      have hne : check ≠ pool.heap.fresh := Nat.ne_of_lt (htended.known check hchecks)
      rw [← hpending, hawaited.isPending, decide_eq_false hne, Bool.false_or]
    dsimp only
    rw [hawaited.waitingOn_mem check (htended.pending check hchecks hwaiting) hwaiting]
    exact List.mem_append_right _ List.mem_cons_self

/-- `Promise.all` of no checks is settled at once. -/
theorem awaitAll_of_nil (hnone : pool.executing = []) : pool.awaitAll = { pool with
    heap := ((pool.heap.create.andThenAll pool.executing (.join pool.heap.fresh)).andThen
      pool.heap.fresh .finish).settle pool.heap.fresh (.ok ())
    remaining := pool.executing.length } := by
  have hempty : pool.heap.create.waitingOn pool.heap.fresh = [] := by
    rw [waitingOn_create]
    refine waitingOn_of_not_pending ?_
    by_contra hpending
    exact Nat.lt_irrefl _ (lt_of_isPending (eq_true_of_ne_false hpending))
  have hopen : pool.heap.create.isPending pool.heap.fresh = true := by
    rw [isPending_create]
    simp
  have hheap : pool.awaitAll.heap =
      ((pool.heap.create.andThenAll pool.executing (.join pool.heap.fresh)).andThen
        pool.heap.fresh .finish).settle pool.heap.fresh (.ok ()) := by
    unfold Pool.awaitAll
    dsimp only
    rw [if_pos hnone, hnone]
    exact settle_andThen hopen hempty
  rw [← hheap]
  rfl

theorem awaitAll_of_ne (hsome : pool.executing ≠ []) : pool.awaitAll = { pool with
    heap := (pool.heap.create.andThenAll pool.executing (.join pool.heap.fresh)).andThen
      pool.heap.fresh .finish
    remaining := pool.executing.length } := by
  unfold Pool.awaitAll
  dsimp only
  rw [if_neg hsome]

/-- The promise of `Promise.all` and what waits for it. -/
theorem Tended.awaited_all (htended : Tended limit items pool) :
    Awaited pool.heap pool.executing (.join pool.heap.fresh) .finish
      ((pool.heap.create.andThenAll pool.executing (.join pool.heap.fresh)).andThen
        pool.heap.fresh .finish) :=
  awaited (fun check hcheck ↦ htended.known check (htended.executing_known check hcheck))
    htended.executing_nodup _ _

/-- The loop is over, and the function awaits the checks that are left. -/
theorem joining_awaitAll (htended : Tended limit items pool) (hlooping : Looping pool)
    (hrest : pool.rest = []) : Tended limit items pool.awaitAll ∧ Joining pool.awaitAll := by
  have hawaited := htended.awaited_all
  have hafter := htended.await rfl (fun check ↦ Or.inr rfl) hawaited
  have honly := hlooping.awaited_only rfl (fun _ ↦ rfl) hawaited
  have hchecks := checks_congr (Tended.calls_await (fun _ ↦ Or.inr rfl) hawaited)
  by_cases hnone : pool.executing = []
  · rw [awaitAll_of_nil hnone]
    have hfinish := hawaited.waitingOn_fresh ▸ List.mem_singleton_self Reaction.finish
    refine ⟨(hafter.settle (fun hcheck ↦ ?_) fun error hfailed ↦ ?_).withResult _ _,
      joining_settle hafter hlooping.running honly hrest hfinish fun _ check hcheck ↦ ?_⟩
    · rw [hchecks] at hcheck
      exact absurd (htended.known _ hcheck) (Nat.lt_irrefl _)
    · cases hfailed
    · rw [hchecks] at hcheck
      by_contra hpending
      have hmem := hafter.pending check (hchecks ▸ hcheck) (eq_true_of_ne_false hpending)
      dsimp only at hmem
      rw [hnone] at hmem
      cases hmem
  · rw [awaitAll_of_ne hnone]
    exact ⟨hafter.withResult _ _, joining_await htended hlooping hrest hnone hawaited⟩

/-- The loop goes on as far as an `await`. -/
theorem stands_loop (hlimit : 1 ≤ limit) {rest : List Item} (htended : Tended limit items pool)
    (hlooping : Looping pool) (hrest : pool.rest = rest)
    (hroom : pool.executing.length < limit) :
    Tended limit items (Pool.loop limit rest pool) ∧
      Stands limit (Pool.loop limit rest pool) := by
  induction rest generalizing pool with
  | nil =>
    obtain ⟨hafter, hjoining⟩ := joining_awaitAll htended hlooping hrest
    exact ⟨hafter, .joining hjoining⟩
  | cons item rest ih =>
    have hpushed := htended.push hrest hroom
    unfold Pool.loop
    dsimp only
    split_ifs with hfull
    · obtain ⟨hafter, hracing⟩ := racing_awaitRace hlimit hpushed (hlooping.push item rest) hfull
      exact ⟨hafter, .racing hracing⟩
    · exact ih hpushed (hlooping.push item rest) rfl (Nat.lt_of_not_le hfull)

end Stands

end VmsLite.Health
