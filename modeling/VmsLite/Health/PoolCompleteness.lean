import VmsLite.Health.PoolRuns

/-!
# The pool begins every check and waits for it

What is kept along a run makes the pool dependable (`Kept.isDependable`). Every move uses up some of
a stock that the items and the limit bound (`weight_next`), so that a run comes to its end, and the
pool settles. Where no check rejects, as in the cycles of the poller (`calm_ofCheck`), it has then
begun all the checks and waited for them.
-/

set_option autoImplicit false

namespace VmsLite.Health

open VmsLite.Async Promises

variable {Item Err : Type} {limit : ℕ} {items : List Item} {pool : Pool Item Err}

/-! ### What is in flight -/

/-- The checks in flight are executing. -/
theorem Tended.inFlight_le (htended : Tended limit items pool) : pool.inFlight.length ≤ limit := by
  have hchecks : pool.checks = pool.started.map Prod.snd ++ pool.calls.map Prod.snd :=
    List.map_append
  have hnodup : (pool.inFlight.map Prod.snd).Nodup := by
    refine List.Nodup.sublist (List.filter_sublist.map Prod.snd) ?_
    exact (List.nodup_append.mp (hchecks ▸ htended.nodup)).1
  have hsub : pool.inFlight.map Prod.snd ⊆ pool.executing := by
    intro check hcheck
    obtain ⟨entry, hentry, rfl⟩ := List.mem_map.mp hcheck
    obtain ⟨hstarted, hpending⟩ := List.mem_filter.mp hentry
    exact htended.pending entry.2 (List.mem_map_of_mem (List.mem_append_left _ hstarted)) hpending
  have hlength := (List.subperm_of_subset hnodup hsub).length_le
  rw [List.length_map] at hlength
  exact Nat.le_trans hlength htended.executing_le

/-- A check that is pending has begun, or its callback is queued. -/
theorem goes_of_pending {check : ℕ} (hcheck : check ∈ pool.checks)
    (hpending : pool.heap.isPending check = true) :
    pool.heap.jobs ≠ [] ∨ pool.inFlight ≠ [] := by
  obtain ⟨entry, hentry, rfl⟩ := List.mem_map.mp hcheck
  rcases List.mem_append.mp hentry with hstarted | hcalled
  · exact Or.inr (List.ne_nil_of_mem (List.mem_filter.mpr ⟨hstarted, hpending⟩))
  · obtain ⟨job, hjob, -⟩ := List.mem_filterMap.mp hcalled
    exact Or.inl (List.ne_nil_of_mem hjob)

/-- A race or an element of `Promise.all` is queued, or it waits for a check. -/
theorem Tended.goes_of_outstanding (htended : Tended limit items pool) {reaction : Reaction Item}
    {check : ℕ} (hreaction : reaction ∈ pool.heap.outstanding) (hof : reaction.IsOf check) :
    pool.heap.jobs ≠ [] ∨ pool.inFlight ≠ [] := by
  rcases mem_outstanding.mp hreaction with ⟨id, hwaits⟩ | ⟨outcome, hjob⟩
  · obtain ⟨-, hid, hpending⟩ := htended.check_of_waiting hwaits (Or.inr hof)
    exact goes_of_pending hid hpending
  · exact Or.inl (List.ne_nil_of_mem hjob)

/-- The function that awaits a race goes on. -/
theorem Racing.goesOn (hracing : Racing limit pool) (htended : Tended limit items pool) :
    pool.heap.jobs ≠ [] ∨ pool.inFlight ≠ [] := by
  have hresume : .resume ∈ pool.continuations := hracing.only ▸ List.mem_cons_self
  rcases mem_outstanding.mp (mem_continuations.mp hresume).1 with ⟨race, hwaits⟩ | ⟨outcome, hjob⟩
  · obtain ⟨⟨check, hrace⟩, -⟩ := hracing.races race hwaits
    exact htended.goes_of_outstanding hrace ⟨race, Or.inl rfl⟩
  · exact Or.inl (List.ne_nil_of_mem hjob)

/-- The function that awaits all checks goes on: an element is outstanding. -/
theorem Joining.goesOn (hjoining : Joining pool) (htended : Tended limit items pool) :
    pool.heap.jobs ≠ [] ∨ pool.inFlight ≠ [] := by
  have hfinish : .finish ∈ pool.continuations := hjoining.only ▸ List.mem_cons_self
  rcases mem_outstanding.mp (mem_continuations.mp hfinish).1 with ⟨all, hwaits⟩ | ⟨outcome, hjob⟩
  · obtain ⟨-, -, hpositive, hcount, -⟩ := hjoining.awaited all hwaits
    obtain ⟨reaction, hmem, hjoin⟩ := List.countP_pos_iff.mp (hcount ▸ hpositive)
    cases reaction with
    | join id check => exact htended.goes_of_outstanding hmem ⟨id, Or.inr rfl⟩
    | _ => cases hjoin
  · exact Or.inl (List.ne_nil_of_mem hjob)

/-! ### What the pool has promised -/

theorem Kept.isDependable (hkept : Kept limit items pool) : IsDependable limit items pool := by
  obtain ⟨htended, hstands⟩ := hkept
  have hpushed : pool.pushed.map Prod.fst =
      pool.started.map Prod.fst ++ pool.calls.map Prod.fst := List.map_append
  have hinOrder := htended.inOrder
  rw [hpushed] at hinOrder
  refine ⟨⟨_, (List.append_assoc _ _ _).symm.trans hinOrder⟩, htended.inFlight_le,
    fun hresolved ↦ ?_, fun error hrejected ↦ ?_, fun hrunning ↦ ?_⟩
  · cases hstands with
    | racing hracing => cases hracing.running.symm.trans hresolved
    | joining hjoining => cases hjoining.running.symm.trans hresolved
    | settled outcome hsettled =>
      obtain rfl := Option.some.inj (hsettled.result.symm.trans hresolved)
      obtain ⟨hrest, hover⟩ := hsettled.resolved rfl
      have hcalls : pool.calls = [] := by
        refine List.eq_nil_iff_forall_not_mem.mpr fun entry hentry ↦ ?_
        cases (hover entry.2 (List.mem_map_of_mem (List.mem_append_right _ hentry))).symm.trans
          (htended.called entry hentry)
      refine ⟨?_, List.filter_eq_nil_iff.mpr fun entry hentry hpending ↦ ?_⟩
      · rw [hcalls, hrest] at hinOrder
        simpa using hinOrder
      · cases (hover entry.2 (List.mem_map_of_mem (List.mem_append_left _ hentry))).symm.trans
          hpending
  · cases hstands with
    | racing hracing => cases hracing.running.symm.trans hrejected
    | joining hjoining => cases hjoining.running.symm.trans hrejected
    | settled outcome hsettled =>
      obtain ⟨entry, hentry, houtcome⟩ := hsettled.rejected error
        (Option.some.inj (hsettled.result.symm.trans hrejected))
      exact ⟨entry, hentry, getElem?_of_outcomeOf houtcome⟩
  · cases hstands with
    | racing hracing => exact hracing.goesOn htended
    | joining hjoining => exact hjoining.goesOn htended
    | settled outcome hsettled => cases hsettled.result.symm.trans hrunning

/-- The invariant along a run. -/
theorem kept_run (hlimit : 1 ≤ limit) (items : List Item) (moves : List (PoolMove Err)) :
    Kept limit items
      (runMoves (Pool.next limit) (Pool.runWithConcurrencyLimit items limit) moves) := by
  induction moves using List.reverseRecOn with
  | nil => exact kept_initial hlimit items
  | append_singleton moves move ih =>
    rw [runMoves_concat]
    exact kept_next hlimit ih move

/-! ### A run comes to its end -/

def Reaction.isResume : Reaction Item → Bool
  | .resume => true
  | _ => false

/-- What the loop can still use up until the `await` at which it stops next. -/
def reserve (limit : ℕ) : ℕ := 2 * limit + 2

/-- What is outstanding, where what waits counts twice, and what the loop can still add. -/
def Pool.weight (limit : ℕ) (pool : Pool Item Err) : ℕ :=
  pool.heap.outstanding.length + pool.heap.waiting.length +
    reserve limit * pool.heap.outstanding.countP Reaction.isResume +
      (reserve limit + 3) * pool.rest.length

section Weight

variable {reaction : Reaction Item} {outcome : Except Err Unit}
  {jobs : List (Reaction Item × Except Err Unit)}

/-- A settlement adds nothing. -/
theorem weight_settle_le (heap : Promises (Reaction Item) Err) (id remaining : ℕ) :
    { pool with heap := heap.settle id outcome, remaining }.weight limit ≤
      { pool with heap }.weight limit := by
  have hwaiting := @length_waiting_settle_le _ _ heap id outcome
  unfold Pool.weight
  dsimp only
  rw [outstanding_settle.length_eq, outstanding_settle.countP_eq]
  omega

/-- A job that is taken is used up. -/
theorem weight_take (hjobs : pool.heap.jobs = (reaction, outcome) :: jobs) :
    { pool with heap := { pool.heap with jobs } }.weight limit +
      reserve limit * (if reaction.isResume then 1 else 0) < pool.weight limit := by
  have hperm := outstanding_take hjobs
  have hwaiting : { pool.heap with jobs }.waiting = pool.heap.waiting := rfl
  unfold Pool.weight
  dsimp only
  rw [hperm.length_eq, hperm.countP_eq, hwaiting, List.countP_cons, List.length_cons, Nat.mul_add]
  omega

theorem waiting_push (item : Item) (rest : List Item) :
    (pool.push item rest).heap.waiting.length ≤ pool.heap.waiting.length + 1 := by
  have hone := @length_waiting_andThen_le _ _ _ _ (Reaction.clean pool.heap.fresh)
    (@fresh_lt_create _ _ pool (.ok ()) (.call item pool.heap.fresh))
  rw [waiting_enqueue, waiting_create] at hone
  exact hone

/-- An item pays for its callback and the clean-up. -/
theorem weight_push {item : Item} {rest : List Item} (hrest : pool.rest = item :: rest) :
    (pool.push item rest).weight limit + reserve limit ≤ pool.weight limit := by
  have hwaiting := @waiting_push _ _ pool item rest
  have hafter : (pool.push item rest).rest = rest := rfl
  unfold Pool.weight
  rw [outstanding_push.length_eq, outstanding_push.countP_eq, hafter, hrest, List.length_cons,
    List.length_cons, List.length_cons, Nat.mul_succ,
    List.countP_cons_of_neg (by simp [Reaction.isResume]),
    List.countP_cons_of_neg (by simp [Reaction.isResume])]
  omega

/-- A promise that the function awaits costs two for every check and two for itself. -/
theorem weight_await {after : Promises (Reaction Item) Err} {reactions : ℕ → Reaction Item}
    {last : Reaction Item} (hreactions : ∀ check, (reactions check).isResume = false)
    (hawaited : Awaited pool.heap pool.executing reactions last after) (remaining : ℕ) :
    { pool with heap := after, remaining }.weight limit ≤ pool.weight limit +
      (2 * pool.executing.length + 2) +
        reserve limit * (if last.isResume then 1 else 0) := by
  have hwaiting := hawaited.waiting
  have hnone : (pool.executing.map reactions).countP Reaction.isResume = 0 := by
    refine List.countP_eq_zero.mpr fun reaction hreaction ↦ ?_
    obtain ⟨check, -, rfl⟩ := List.mem_map.mp hreaction
    rw [hreactions check]
    exact Bool.false_ne_true
  unfold Pool.weight
  dsimp only
  rw [hawaited.outstanding.length_eq, hawaited.outstanding.countP_eq, List.length_cons,
    List.length_append, List.length_map, List.countP_cons, List.countP_append, hnone, Nat.zero_add,
    Nat.mul_add]
  omega

theorem weight_awaitRace (htended : Tended limit items pool) :
    pool.awaitRace.weight limit ≤ pool.weight limit + 2 * reserve limit := by
  have hle := htended.executing_le
  have hweight := @weight_await _ _ limit pool _ _ _ (fun _ ↦ rfl) htended.awaited_race
    pool.remaining
  simp only [Reaction.isResume, reduceIte, Nat.mul_one] at hweight
  refine Nat.le_trans hweight ?_
  unfold reserve
  omega

theorem weight_awaitAll (htended : Tended limit items pool) :
    pool.awaitAll.weight limit ≤ pool.weight limit + reserve limit := by
  have hle := htended.executing_le
  have hweight := @weight_await _ _ limit pool _ _ _ (fun _ ↦ rfl) htended.awaited_all
    pool.executing.length
  have hbound : pool.awaitAll.weight limit ≤ pool.weight limit +
      (2 * pool.executing.length + 2) := by
    by_cases hnone : pool.executing = []
    · rw [awaitAll_of_nil hnone]
      exact Nat.le_trans (weight_settle_le _ _ _) hweight
    · rw [awaitAll_of_ne hnone]
      exact hweight
  refine Nat.le_trans hbound ?_
  unfold reserve
  omega

/-- The loop uses up what it needs to come to the next `await`. -/
theorem weight_loop {rest : List Item} (htended : Tended limit items pool)
    (hrest : pool.rest = rest) (hroom : pool.executing.length < limit) :
    (Pool.loop limit rest pool).weight limit ≤ pool.weight limit + reserve limit := by
  induction rest generalizing pool with
  | nil => exact weight_awaitAll htended
  | cons item rest ih =>
    have hpushed := htended.push hrest hroom
    have hweight := @weight_push _ _ limit _ _ _ hrest
    unfold Pool.loop
    dsimp only
    split_ifs with hfull
    · have hrace := weight_awaitRace hpushed
      omega
    · have hmore := ih hpushed rfl (Nat.lt_of_not_le hfull)
      omega

/-- A job that has been taken costs no more than it brought. -/
theorem weight_job (hkept : Kept limit items pool)
    (hjobs : pool.heap.jobs = (reaction, outcome) :: jobs) :
    (Pool.run { pool with heap := { pool.heap with jobs } } limit outcome reaction).weight limit <
      pool.weight limit := by
  have htake := @weight_take _ _ limit _ _ _ _ hjobs
  have hless := Nat.lt_of_le_of_lt (Nat.le_add_right _ _) htake
  have hsettle (found : Except Err Unit) :=
    @weight_settle_le _ _ limit pool found { pool.heap with jobs }
  cases reaction with
  | call item check => exact hless
  | clean check => exact hless
  | race race check => exact Nat.lt_of_le_of_lt (hsettle outcome race pool.remaining) hless
  | resume =>
    rcases running_of_continues hkept hjobs rfl with hracing | hjoining
    · have htended := (taken_other hjobs nofun nofun).tended hkept.tended hjobs
      simp only [Reaction.isResume, reduceIte, Nat.mul_one] at htake
      cases outcome with
      | ok value =>
        have hloop := weight_loop htended rfl (hracing.ready _ (hjobs ▸ List.mem_cons_self))
        exact Nat.lt_of_le_of_lt hloop htake
      | error error => exact hless
    · cases (continuations_gone hjobs rfl hjoining.only).1
  | join all check =>
    cases outcome with
    | ok value =>
      unfold Pool.run
      dsimp only
      split_ifs with hzero
      · exact Nat.lt_of_le_of_lt (hsettle (.ok ()) all (pool.remaining - 1)) hless
      · exact hless
    | error error => exact Nat.lt_of_le_of_lt (hsettle (.error error) all pool.remaining) hless
  | finish => exact hless

/-- The end of a check sets its clean-up free. -/
theorem weight_settle (hkept : Kept limit items pool) {check : ℕ}
    (hcheck : check ∈ pool.inFlight.map Prod.snd) :
    { pool with heap := pool.heap.settle check outcome }.weight limit < pool.weight limit := by
  obtain ⟨entry, hentry, rfl⟩ := List.mem_map.mp hcheck
  obtain ⟨hstarted, hpending⟩ := List.mem_filter.mp hentry
  obtain ⟨others, hwaits, -⟩ := hkept.tended.waits entry.2
    (List.mem_map_of_mem (List.mem_append_left _ hstarted)) hpending
  have hwaiting := @length_waiting_settle _ _ pool.heap entry.2 outcome hpending
  rw [hwaits, List.length_cons] at hwaiting
  unfold Pool.weight
  dsimp only
  rw [outstanding_settle.length_eq, outstanding_settle.countP_eq]
  omega

theorem weight_next (hkept : Kept limit items pool) {move : PoolMove Err}
    (heffective : IsEffective pool move) :
        (pool.next limit move).weight limit < pool.weight limit := by
  cases move with
  | job =>
    cases hjobs : pool.heap.jobs with
    | nil => exact absurd hjobs heffective
    | cons job jobs =>
      unfold Pool.next
      rw [hjobs]
      exact weight_job hkept hjobs
  | settle check outcome =>
    have hstarted : check ∈ pool.started.map Prod.snd :=
      List.map_subset _ (List.filter_subset_self _) heffective
    unfold Pool.next
    dsimp only
    rw [if_pos hstarted]
    exact weight_settle hkept heffective

/-- The stock of a run. -/
theorem weight_initial (hlimit : 1 ≤ limit) (items : List Item) :
    (Pool.runWithConcurrencyLimit items limit : Pool Item Err).weight limit ≤
      3 * items.length + (2 * limit + 2) * (items.length + 1) := by
  have hloop := weight_loop (@tended_initial _ Err limit items) rfl hlimit
  have hbefore : ({ rest := items } : Pool Item Err).weight limit =
      (reserve limit + 3) * items.length := Nat.zero_add _
  rw [hbefore] at hloop
  refine Nat.le_trans hloop (Nat.le_of_eq ?_)
  unfold reserve
  rw [Nat.add_mul, Nat.mul_add _ items.length, Nat.mul_one]
  omega

theorem weight_run (hlimit : 1 ≤ limit) {moves : List (PoolMove Err)}
    (heffective : EachMove (Pool.next limit) IsEffective
      (Pool.runWithConcurrencyLimit items limit) moves) :
    (runMoves (Pool.next limit) (Pool.runWithConcurrencyLimit items limit) moves).weight limit +
      moves.length ≤ (Pool.runWithConcurrencyLimit items limit : Pool Item Err).weight limit := by
  induction moves using List.reverseRecOn with
  | nil => exact Nat.le_refl _
  | append_singleton moves move ih =>
    have hbefore := ih (heffective.of_prefix (List.prefix_append _ _))
    have hless := weight_next (kept_run hlimit items moves)
      (heffective moves move List.prefix_rfl)
    rw [runMoves_concat, List.length_append, List.length_singleton]
    omega

end Weight

/-! ### No check rejects -/

/-- No promise has been rejected. -/
def IsCalm (pool : Pool Item Err) : Prop := Meets (· = .ok ()) pool.heap

section Calm

variable (hcalm : IsCalm pool)

include hcalm

theorem calm_loop (rest : List Item) : IsCalm (Pool.loop limit rest pool) := by
  induction rest generalizing pool with
  | nil =>
    have hall := hcalm.create.andThenAll pool.executing (.join pool.heap.fresh)
    unfold Pool.loop Pool.awaitAll IsCalm
    dsimp only
    split_ifs with hnone
    · exact (hall.settle _ rfl).andThen _ _
    · exact hall.andThen _ _
  | cons item rest ih =>
    have hpushed : IsCalm (pool.push item rest) := (hcalm.create.enqueue rfl).andThen _ _
    unfold Pool.loop
    dsimp only
    split_ifs with hfull
    · exact (hpushed.create.andThenAll _ _).andThen _ _
    · exact ih hpushed

theorem calm_job {reaction : Reaction Item} {outcome : Except Err Unit}
    {jobs : List (Reaction Item × Except Err Unit)}
    (hjobs : pool.heap.jobs = (reaction, outcome) :: jobs) :
    IsCalm (Pool.run { pool with heap := { pool.heap with jobs } } limit outcome reaction) := by
  have htaken : IsCalm { pool with heap := { pool.heap with jobs } } :=
    ⟨hcalm.settled, fun job hjob ↦ hcalm.queued job (hjobs ▸ List.mem_cons_of_mem _ hjob)⟩
  obtain rfl : outcome = .ok () := hcalm.queued _ (hjobs ▸ List.mem_cons_self)
  cases reaction with
  | call item check => exact htaken
  | clean check => exact htaken
  | race race check => exact htaken.settle race rfl
  | resume => exact calm_loop htaken _
  | join all check =>
    unfold Pool.run IsCalm
    dsimp only
    split_ifs with hzero
    · exact htaken.settle all rfl
    · exact htaken
  | finish => exact htaken

/-- The callback of the poller catches what a check throws. -/
theorem calm_ofCheck (move : PoolMove Err) : IsCalm (pool.next limit move.ofCheck) := by
  cases move with
  | job =>
    cases hjobs : pool.heap.jobs with
    | nil =>
      unfold PoolMove.ofCheck Pool.next
      rw [hjobs]
      exact hcalm
    | cons job jobs =>
      unfold PoolMove.ofCheck Pool.next
      rw [hjobs]
      exact calm_job hcalm hjobs
  | settle check outcome =>
    have hcaught : caught outcome = .ok () := by cases outcome <;> rfl
    unfold PoolMove.ofCheck Pool.next
    dsimp only
    split_ifs with hcheck
    · exact hcalm.settle check hcaught
    · exact hcalm

omit hcalm in
theorem calm_run (items : List Item) (moves : List (PoolMove Err)) :
    IsCalm (runMoves (Pool.next limit) (Pool.runWithConcurrencyLimit items limit)
      (moves.map PoolMove.ofCheck)) := by
  induction moves using List.reverseRecOn with
  | nil => exact @calm_loop _ _ limit { rest := items } Meets.empty items
  | append_singleton moves move ih =>
    rw [List.map_append, List.map_singleton, runMoves_concat]
    exact calm_ofCheck ih move

end Calm

/-- A pool of which no check rejects keeps all that it promises. -/
theorem IsDependable.isComplete (hdependable : IsDependable limit items pool)
    (hcalm : IsCalm pool) : IsComplete limit items pool := by
  refine ⟨hdependable.inOrder, hdependable.bounded, fun hsettled ↦ ?_⟩
  obtain ⟨outcome, hresult⟩ := Option.ne_none_iff_exists'.mp hsettled
  cases outcome with
  | ok value => exact hdependable.resolves hresult
  | error error =>
    obtain ⟨entry, -, hpromise⟩ := hdependable.rejects error hresult
    have houtcome : pool.heap.outcomeOf entry.2 = some (.error error) := by
      unfold Promises.outcomeOf
      rw [hpromise]
    cases hcalm.settled entry.2 _ houtcome

/-! ### The pool -/

/-- Whatever the checks do, the pool is dependable and comes to its end; the pool of the poller is
complete, however its checks end. -/
theorem dependable_and_complete (limit : ℕ) (hlimit : 1 ≤ limit) (items : List Item)
    (moves : List (PoolMove Err)) :
    EachState (Pool.next limit) (IsDependable limit items)
        (Pool.runWithConcurrencyLimit items limit) moves ∧
      (EachMove (Pool.next limit) IsEffective (Pool.runWithConcurrencyLimit items limit) moves →
        moves.length ≤ 3 * items.length + (2 * limit + 2) * (items.length + 1)) ∧
      EachState (Pool.next limit) (IsComplete limit items)
        (Pool.runWithConcurrencyLimit items limit) (moves.map PoolMove.ofCheck) := by
  refine ⟨fun before _ ↦ (kept_run hlimit items before).isDependable, fun heffective ↦ ?_,
    fun before hbefore ↦ ?_⟩
  · have hrun := weight_run hlimit heffective
    have hinitial := @weight_initial _ Err _ hlimit items
    omega
  · obtain ⟨earlier, -, rfl⟩ := List.prefix_map_iff.mp hbefore
    exact (kept_run hlimit items _).isDependable.isComplete (calm_run items earlier)

/-- The run in which the first check rejects, and the same run behind the callback of the poller. -/
theorem dependable_and_complete_rejected :
    EachState (Pool.next 1) (IsDependable 1 ["gate", "yard"])
        (Pool.runWithConcurrencyLimit ["gate", "yard"] 1) rejectingRun ∧
      rejectingRun.length ≤ 3 * 2 + 4 * 3 ∧
      EachState (Pool.next 1) (IsComplete 1 ["gate", "yard"])
        (Pool.runWithConcurrencyLimit ["gate", "yard"] 1)
        (rejectingRun.map PoolMove.ofCheck) := by
  obtain ⟨hdependable, hbound, hcomplete⟩ :=
    dependable_and_complete 1 (Nat.le_refl 1) ["gate", "yard"] rejectingRun
  refine ⟨hdependable, hbound ?_, hcomplete⟩
  unfold rejectingRun
  simp only [eachMove_cons]
  exact ⟨List.cons_ne_nil _ _, List.mem_singleton_self 0, List.cons_ne_nil _ _,
    List.cons_ne_nil _ _, List.cons_ne_nil _ _, eachMove_nil⟩

end VmsLite.Health
