import Mathlib.Data.List.Nodup
import VmsLite.Health.CheckPool

/-!
# The checks of the pool

Which checks have begun, which promises are executing and which jobs are queued, wherever the
function awaits (`Tended`): when a promise is settled (`Tended.settle`), when the function awaits a
new one (`Tended.await`), when an item is pushed (`Tended.push`) and when a job is taken
(`Tended.take`). The clean-up of a check is queued before the races in which it takes part
(`Tended.not_executing`).
-/

set_option autoImplicit false

namespace VmsLite.Health

open VmsLite.Async Promises

variable {Item Err : Type} {limit : ℕ} {items : List Item}

/-! ### What is known of every state -/

/-- The reactions to the promise of a check, behind its clean-up. -/
def Reaction.IsOf (check : ℕ) (reaction : Reaction Item) : Prop :=
  ∃ id, reaction = .race id check ∨ reaction = .join id check

/-- The reactions with which the function goes on. -/
def Reaction.continues : Reaction Item → Bool
  | .resume | .finish => true
  | _ => false

def Reaction.isJoin : Reaction Item → Bool
  | .join .. => true
  | _ => false

/-- The item that a callback is called with, and its check. -/
def Reaction.called : Reaction Item → Option (Item × ℕ)
  | .call item check => some (item, check)
  | _ => none

namespace Pool

variable (pool : Pool Item Err)

/-- The callbacks that are queued. -/
def calls : List (Item × ℕ) := pool.heap.jobs.filterMap fun job ↦ job.1.called

/-- The items that the loop has come to, with the promises of their checks. -/
def pushed : List (Item × ℕ) := pool.started ++ pool.calls

def checks : List ℕ := pool.pushed.map Prod.snd

end Pool

/-- What holds of the checks wherever the function awaits. -/
structure Tended (limit : ℕ) (items : List Item) (pool : Pool Item Err) : Prop where
  inOrder : pool.pushed.map Prod.fst ++ pool.rest = items
  nodup : pool.checks.Nodup
  known : ∀ check ∈ pool.checks, check < pool.heap.fresh
  called : ∀ entry ∈ pool.calls, pool.heap.isPending entry.2 = true
  executing_nodup : pool.executing.Nodup
  executing_known : ∀ check ∈ pool.executing, check ∈ pool.checks
  executing_le : pool.executing.length ≤ limit
  pending : ∀ check ∈ pool.checks, pool.heap.isPending check = true → check ∈ pool.executing
  cleaned : ∀ check ∈ pool.executing, pool.heap.isPending check = true ∨
    ∃ outcome, (.clean check, outcome) ∈ pool.heap.jobs
  waits : ∀ check ∈ pool.checks, pool.heap.isPending check = true →
    ∃ others, pool.heap.waitingOn check = .clean check :: others ∧
      ∀ reaction ∈ others, reaction.IsOf check
  others : ∀ id, id ∉ pool.checks → ∀ reaction ∈ pool.heap.waitingOn id,
    reaction.continues = true
  targets : ∀ reaction ∈ pool.heap.outstanding, ∀ id check,
    reaction = .race id check ∨ reaction = .join id check →
      id ∉ pool.checks ∧ id < pool.heap.fresh
  named : ∀ reaction ∈ pool.heap.outstanding, ∀ check,
    reaction = .clean check ∨ reaction.IsOf check → check ∈ pool.checks
  queued : ∀ job ∈ pool.heap.jobs, ∀ check, job.1 = .clean check ∨ job.1.IsOf check →
    pool.heap.isPending check = false
  /-- A check is cleaned up before its races are settled. -/
  order : pool.heap.jobs.Pairwise fun first second ↦
    ∀ id check, first.1 = .race id check → second.1 ≠ .clean check
  errors : ∀ job ∈ pool.heap.jobs, ∀ error, job.2 = .error error →
    ∃ entry ∈ pool.started, pool.heap.outcomeOf entry.2 = some (.error error)

section Checks

variable {pool : Pool Item Err} {heap : Promises (Reaction Item) Err}

/-- Jobs that call no callback. -/
theorem calls_append {new : List (Reaction Item × Except Err Unit)}
    (hjobs : heap.jobs = pool.heap.jobs ++ new)
    (hnew : ∀ job ∈ new, ∀ item check, job.1 ≠ .call item check) :
    { pool with heap }.calls = pool.calls := by
  unfold Pool.calls
  dsimp only
  rw [hjobs, List.filterMap_append]
  refine (congrArg _ (List.filterMap_eq_nil_iff.mpr fun job hjob ↦ ?_)).trans (List.append_nil _)
  obtain ⟨reaction, outcome⟩ := job
  have hnot := hnew _ hjob
  cases reaction with
  | call item check => exact absurd rfl (hnot item check)
  | _ => rfl

theorem pushed_congr (hcalls : { pool with heap }.calls = pool.calls) :
    { pool with heap }.pushed = pool.pushed := congrArg (pool.started ++ ·) hcalls

theorem checks_congr (hcalls : { pool with heap }.calls = pool.calls) :
    { pool with heap }.checks = pool.checks := congrArg (List.map Prod.snd) (pushed_congr hcalls)

namespace Tended

variable (htended : Tended limit items pool)

include htended

/-- A check whose promise is settled has begun: the callbacks that are queued have not. -/
theorem mem_started {check : ℕ} (hcheck : check ∈ pool.checks)
    (hsettled : pool.heap.isPending check = false) : ∃ entry ∈ pool.started, entry.2 = check := by
  obtain ⟨entry, hentry, rfl⟩ := List.mem_map.mp hcheck
  rcases List.mem_append.mp hentry with hstarted | hcalled
  · exact ⟨entry, hstarted, rfl⟩
  · cases hsettled.symm.trans (htended.called entry hcalled)

/-- No check is queued that has begun. -/
theorem not_mem_calls {entry other : Item × ℕ} (hentry : entry ∈ pool.started)
    (hother : other ∈ pool.calls) : other.2 ≠ entry.2 := by
  have hnodup := htended.nodup
  unfold Pool.checks Pool.pushed at hnodup
  rw [List.map_append] at hnodup
  exact fun hsame ↦ (List.nodup_append.mp hnodup).2.2 entry.2 (List.mem_map_of_mem hentry) other.2
    (List.mem_map_of_mem hother) hsame.symm

/-- What waits for a promise is no callback. -/
theorem not_call_of_waiting {id : ℕ} {reaction : Reaction Item}
    (hreaction : reaction ∈ pool.heap.waitingOn id) (item : Item) (check : ℕ) :
    reaction ≠ .call item check := by
  rintro rfl
  by_cases hid : id ∈ pool.checks
  · have hpending : pool.heap.isPending id = true := by
      by_contra hsettled
      rw [waitingOn_of_not_pending (eq_false_of_ne_true hsettled)] at hreaction
      cases hreaction
    obtain ⟨others, hwaits, hothers⟩ := htended.waits id hid hpending
    rw [hwaits] at hreaction
    rcases List.mem_cons.mp hreaction with hclean | hother
    · cases hclean
    · obtain ⟨found, hrace | hjoin⟩ := hothers _ hother
      · cases hrace
      · cases hjoin
  · cases htended.others id hid _ hreaction

/-- What waits for the promise of a check is about the check. -/
theorem check_of_waiting {id check : ℕ} {reaction : Reaction Item}
    (hreaction : reaction ∈ pool.heap.waitingOn id)
    (hof : reaction = .clean check ∨ reaction.IsOf check) :
    id = check ∧ id ∈ pool.checks ∧ pool.heap.isPending id = true := by
  have hpending : pool.heap.isPending id = true := by
    by_contra hsettled
    rw [waitingOn_of_not_pending (eq_false_of_ne_true hsettled)] at hreaction
    cases hreaction
  by_cases hid : id ∈ pool.checks
  · obtain ⟨others, hwaits, hothers⟩ := htended.waits id hid hpending
    rw [hwaits] at hreaction
    refine ⟨?_, hid, hpending⟩
    rcases List.mem_cons.mp hreaction with rfl | hother
    · rcases hof with hclean | ⟨found, hrace | hjoin⟩
      · exact (Reaction.clean.inj hclean)
      · cases hrace
      · cases hjoin
    · obtain ⟨found, hfound⟩ := hothers _ hother
      rcases hof with rfl | ⟨id, hid⟩
      · rcases hfound with hrace | hjoin
        · cases hrace
        · cases hjoin
      · rcases hfound with rfl | rfl
        · rcases hid with hrace | hjoin
          · exact (Reaction.race.inj hrace).2
          · cases hjoin
        · rcases hid with hrace | hjoin
          · cases hrace
          · exact (Reaction.join.inj hjoin).2
  · have hcontinues := htended.others id hid reaction hreaction
    rcases hof with rfl | ⟨found, rfl | rfl⟩
    · cases hcontinues
    · cases hcontinues
    · cases hcontinues

theorem calls_settle (id : ℕ) (outcome : Except Err Unit) :
    { pool with heap := pool.heap.settle id outcome }.calls = pool.calls := by
  refine calls_append jobs_settle fun job hjob ↦ ?_
  obtain ⟨reaction, hreaction, rfl⟩ := List.mem_map.mp hjob
  exact htended.not_call_of_waiting hreaction

theorem checks_settle (id : ℕ) (outcome : Except Err Unit) :
    { pool with heap := pool.heap.settle id outcome }.checks = pool.checks :=
  checks_congr (htended.calls_settle id outcome)

/-- A promise is settled: that of a check that has begun, or one that the function awaits. -/
theorem settle {id : ℕ} {outcome : Except Err Unit}
    (hid : id ∈ pool.checks → ∃ entry ∈ pool.started, entry.2 = id)
    (herror : ∀ error, outcome = .error error → ∃ entry ∈ pool.started,
      (pool.heap.settle id outcome).outcomeOf entry.2 = some (.error error)) :
    Tended limit items { pool with heap := pool.heap.settle id outcome } := by
  have hcalls := htended.calls_settle id outcome
  have hchecks := checks_congr hcalls
  have hsettled : ∀ other, (pool.heap.settle id outcome).isPending other = true →
      pool.heap.isPending other = true ∧ other ≠ id := by
    intro other hother
    rw [isPending_settle, Bool.and_eq_true, decide_eq_true_eq] at hother
    exact hother
  refine ⟨?_, ?_, ?_, ?_, htended.executing_nodup, ?_, htended.executing_le, ?_, ?_, ?_, ?_, ?_,
    ?_, ?_, ?_, ?_⟩
  · rw [pushed_congr hcalls]
    exact htended.inOrder
  · rw [hchecks]
    exact htended.nodup
  · intro check hcheck
    rw [hchecks] at hcheck
    exact fresh_settle.symm ▸ htended.known check hcheck
  · intro entry hentry
    rw [hcalls] at hentry
    rw [isPending_settle, htended.called entry hentry, Bool.true_and, decide_eq_true_eq]
    intro hsame
    have hcheck : id ∈ pool.checks :=
      List.mem_map.mpr ⟨entry, List.mem_append_right _ hentry, hsame⟩
    obtain ⟨begun, hbegun, hid⟩ := hid hcheck
    exact htended.not_mem_calls hbegun hentry (hsame.trans hid.symm)
  · intro check hcheck
    rw [hchecks]
    exact htended.executing_known check hcheck
  · intro check hcheck hpending
    rw [hchecks] at hcheck
    exact htended.pending check hcheck (hsettled check hpending).1
  · intro check hcheck
    rcases htended.cleaned check hcheck with hpending | ⟨found, hclean⟩
    · by_cases hsame : check = id
      · subst hsame
        obtain ⟨others, hwaits, -⟩ :=
          htended.waits check (htended.executing_known check hcheck) hpending
        refine Or.inr ⟨outcome, ?_⟩
        rw [jobs_settle, hwaits]
        exact List.mem_append_right _ List.mem_cons_self
      · refine Or.inl ?_
        rw [isPending_settle, hpending, Bool.true_and, decide_eq_true_eq]
        exact hsame
    · refine Or.inr ⟨found, ?_⟩
      rw [jobs_settle]
      exact List.mem_append_left _ hclean
  · intro check hcheck hpending
    rw [hchecks] at hcheck
    obtain ⟨hbefore, hne⟩ := hsettled check hpending
    dsimp only
    rw [waitingOn_settle_ne hne]
    exact htended.waits check hcheck hbefore
  · intro other hother reaction hreaction
    rw [hchecks] at hother
    by_cases hsame : other = id
    · subst hsame
      rw [waitingOn_settle_self] at hreaction
      cases hreaction
    · dsimp only at hreaction
      rw [waitingOn_settle_ne hsame] at hreaction
      exact htended.others other hother reaction hreaction
  · intro reaction hreaction
    rw [hchecks]
    exact fresh_settle.symm ▸ htended.targets reaction (outstanding_settle.mem_iff.mp hreaction)
  · intro reaction hreaction
    rw [hchecks]
    exact htended.named reaction (outstanding_settle.mem_iff.mp hreaction)
  · intro job hjob check hof
    dsimp only at hjob ⊢
    rw [jobs_settle] at hjob
    rw [isPending_settle]
    rcases List.mem_append.mp hjob with hold | hnew
    · rw [htended.queued job hold check hof]
      rfl
    · obtain ⟨reaction, hreaction, rfl⟩ := List.mem_map.mp hnew
      obtain ⟨rfl, -⟩ := htended.check_of_waiting hreaction hof
      simp
  · dsimp only
    rw [jobs_settle, List.pairwise_append]
    refine ⟨htended.order, ?_, fun first hfirst second hsecond race check hrace hclean ↦ ?_⟩
    · -- the clean-up of a check is the first of its reactions
      rw [List.pairwise_map]
      cases hwaiting : pool.heap.waitingOn id with
      | nil => exact List.Pairwise.nil
      | cons head others =>
        have hhead : head ∈ pool.heap.waitingOn id := hwaiting ▸ List.mem_cons_self
        have hlater : ∀ reaction ∈ others, ∀ check, reaction ≠ .clean check := by
          rintro reaction hreaction check rfl
          obtain ⟨hsame, hcheck, hpending⟩ := htended.check_of_waiting
            (hwaiting ▸ List.mem_cons_of_mem _ hreaction) (Or.inl rfl)
          obtain ⟨found, hwaits, hothers⟩ := htended.waits id hcheck hpending
          rw [hwaiting] at hwaits
          obtain ⟨-, rfl⟩ := List.cons.inj hwaits
          obtain ⟨target, hrace | hjoin⟩ := hothers _ hreaction
          · cases hrace
          · cases hjoin
        refine List.pairwise_cons.mpr ⟨fun second hsecond race check _ ↦
          hlater second hsecond check, ?_⟩
        exact List.pairwise_of_forall_mem_list fun first _ second hsecond race check _ ↦
          hlater second hsecond check
    · obtain ⟨reaction, hreaction, rfl⟩ := List.mem_map.mp hsecond
      obtain ⟨rfl, -, hpending⟩ := htended.check_of_waiting hreaction (Or.inl hclean)
      cases hpending.symm.trans (htended.queued first hfirst id (Or.inr ⟨race, Or.inl hrace⟩))
  · intro job hjob error hfailed
    dsimp only at hjob ⊢
    rw [jobs_settle] at hjob
    rcases List.mem_append.mp hjob with hold | hnew
    · obtain ⟨entry, hentry, houtcome⟩ := htended.errors job hold error hfailed
      exact ⟨entry, hentry, outcomeOf_settle_of_some houtcome⟩
    · obtain ⟨reaction, -, rfl⟩ := List.mem_map.mp hnew
      exact herror error hfailed

omit htended in
theorem calls_await {after : Promises (Reaction Item) Err} {reactions : ℕ → Reaction Item}
    {last : Reaction Item} (hreactions : ∀ check, reactions check = .race pool.heap.fresh check ∨
      reactions check = .join pool.heap.fresh check)
    (hawaited : Awaited pool.heap pool.executing reactions last after) :
    { pool with heap := after }.calls = pool.calls := by
  obtain ⟨new, hjobs, hnew⟩ := hawaited.jobs
  refine calls_append hjobs fun job hjob item check hsame ↦ ?_
  obtain ⟨found, -, hreaction, -⟩ := hnew job hjob
  rw [hreaction] at hsame
  rcases hreactions found with hrace | hjoin
  · cases hrace.symm.trans hsame
  · cases hjoin.symm.trans hsame

/-- The function awaits a new promise that depends on the checks that are executing. -/
theorem await {after : Promises (Reaction Item) Err} {reactions : ℕ → Reaction Item}
    {last : Reaction Item} (hlast : last.continues = true)
    (hreactions : ∀ check, reactions check = .race pool.heap.fresh check ∨
      reactions check = .join pool.heap.fresh check)
    (hawaited : Awaited pool.heap pool.executing reactions last after) :
    Tended limit items { pool with heap := after } := by
  have hfresh : pool.heap.fresh ∉ pool.checks := fun hmem ↦
    Nat.lt_irrefl _ (htended.known _ hmem)
  have hbefore : ∀ check ∈ pool.checks, after.isPending check = pool.heap.isPending check := by
    intro check hcheck
    have hne : check ≠ pool.heap.fresh := fun hsame ↦ hfresh (hsame ▸ hcheck)
    rw [hawaited.isPending, decide_eq_false hne, Bool.false_or]
  obtain ⟨new, hjobs, hnew⟩ := hawaited.jobs
  have hof : ∀ {found check}, reactions found = .clean check ∨ (reactions found).IsOf check →
      found = check := by
    intro found check hreaction
    rcases hreactions found with hfound | hfound
    · rw [hfound] at hreaction
      rcases hreaction with hclean | ⟨id, hrace | hjoin⟩
      · cases hclean
      · exact (Reaction.race.inj hrace).2
      · cases hjoin
    · rw [hfound] at hreaction
      rcases hreaction with hclean | ⟨id, hrace | hjoin⟩
      · cases hclean
      · cases hrace
      · exact (Reaction.join.inj hjoin).2
  have hclean : ∀ job ∈ new, ∀ check, job.1 ≠ .clean check := by
    intro job hjob check hsame
    obtain ⟨found, -, hreaction, -⟩ := hnew job hjob
    rw [hreaction] at hsame
    rcases hreactions found with hrace | hjoin
    · cases hrace.symm.trans hsame
    · cases hjoin.symm.trans hsame
  have hcalls := calls_await hreactions hawaited
  have hchecks := checks_congr hcalls
  refine ⟨?_, ?_, ?_, ?_, htended.executing_nodup, ?_, htended.executing_le, ?_, ?_, ?_, ?_, ?_,
    ?_, ?_, ?_, ?_⟩
  · rw [pushed_congr hcalls]
    exact htended.inOrder
  · rw [hchecks]
    exact htended.nodup
  · intro check hcheck
    rw [hchecks] at hcheck
    exact hawaited.fresh.symm ▸ Nat.lt_succ_of_lt (htended.known check hcheck)
  · intro entry hentry
    rw [hcalls] at hentry
    exact (hbefore _ (List.mem_map_of_mem (List.mem_append_right _ hentry))).trans
      (htended.called entry hentry)
  · intro check hcheck
    rw [hchecks]
    exact htended.executing_known check hcheck
  · intro check hcheck hpending
    rw [hchecks] at hcheck
    exact htended.pending check hcheck ((hbefore check hcheck).symm.trans hpending)
  · intro check hcheck
    rcases htended.cleaned check hcheck with hpending | ⟨outcome, hqueued⟩
    · exact Or.inl ((hbefore check (htended.executing_known check hcheck)).trans hpending)
    · refine Or.inr ⟨outcome, ?_⟩
      rw [hjobs]
      exact List.mem_append_left _ hqueued
  · intro check hcheck hpending
    rw [hchecks] at hcheck
    have hwaiting := (hbefore check hcheck).symm.trans hpending
    obtain ⟨others, hwaits, hothers⟩ := htended.waits check hcheck hwaiting
    refine ⟨others ++ [reactions check], ?_, fun reaction hreaction ↦ ?_⟩
    · rw [hawaited.waitingOn_mem check (htended.pending check hcheck hwaiting) hwaiting, hwaits]
      rfl
    · rcases List.mem_append.mp hreaction with hold | hnew
      · exact hothers reaction hold
      · obtain rfl := List.mem_singleton.mp hnew
        exact ⟨pool.heap.fresh, hreactions check⟩
  · intro id hid reaction hreaction
    rw [hchecks] at hid
    dsimp only at hreaction
    by_cases hsame : id = pool.heap.fresh
    · rw [hsame, hawaited.waitingOn_fresh] at hreaction
      obtain rfl := List.mem_singleton.mp hreaction
      exact hlast
    · rw [hawaited.waitingOn_other id (fun hmem ↦ hid (htended.executing_known id hmem)) hsame]
        at hreaction
      exact htended.others id hid reaction hreaction
  · intro reaction hreaction id check htarget
    rw [hchecks]
    rcases List.mem_cons.mp (hawaited.outstanding.mem_iff.mp hreaction) with rfl | hmore
    · rcases htarget with rfl | rfl
      · cases hlast
      · cases hlast
    · rcases List.mem_append.mp hmore with hnew | hold
      · obtain ⟨found, hfound, rfl⟩ := List.mem_map.mp hnew
        have hsame : pool.heap.fresh = id := by
          rcases hreactions found with hrace | hjoin
          · rcases htarget with htarget | htarget
            · exact (Reaction.race.inj (hrace.symm.trans htarget)).1
            · cases hrace.symm.trans htarget
          · rcases htarget with htarget | htarget
            · cases hjoin.symm.trans htarget
            · exact (Reaction.join.inj (hjoin.symm.trans htarget)).1
        obtain rfl := hsame
        exact ⟨hfresh, hawaited.fresh.symm ▸ Nat.lt_succ_self _⟩
      · obtain ⟨hid, hbound⟩ := htended.targets reaction hold id check htarget
        exact ⟨hid, hawaited.fresh.symm ▸ Nat.lt_succ_of_lt hbound⟩
  · intro reaction hreaction check hcheck
    rw [hchecks]
    rcases List.mem_cons.mp (hawaited.outstanding.mem_iff.mp hreaction) with rfl | hmore
    · rcases hcheck with rfl | ⟨id, rfl | rfl⟩
      · cases hlast
      · cases hlast
      · cases hlast
    · rcases List.mem_append.mp hmore with hnew | hold
      · obtain ⟨found, hfound, rfl⟩ := List.mem_map.mp hnew
        obtain rfl := hof hcheck
        exact htended.executing_known found hfound
      · exact htended.named reaction hold check hcheck
  · intro job hjob check hcheck
    dsimp only at hjob ⊢
    rw [hjobs] at hjob
    rcases List.mem_append.mp hjob with hold | hadded
    · have hmem : job.1 ∈ pool.heap.outstanding :=
        mem_outstanding.mpr (Or.inr ⟨job.2, hold⟩)
      exact (hbefore check (htended.named job.1 hmem check hcheck)).trans
        (htended.queued job hold check hcheck)
    · obtain ⟨found, hfound, hreaction, houtcome⟩ := hnew job hadded
      rw [hreaction] at hcheck
      obtain rfl := hof hcheck
      exact (hbefore found (htended.executing_known found hfound)).trans
        (isPending_of_outcomeOf houtcome)
  · dsimp only
    rw [hjobs, List.pairwise_append]
    refine ⟨htended.order, ?_, fun _ _ second hsecond _ check _ ↦ hclean second hsecond check⟩
    exact List.pairwise_of_forall_mem_list fun _ _ second hsecond _ check _ ↦
      hclean second hsecond check
  · intro job hjob error hfailed
    dsimp only at hjob ⊢
    rw [hjobs] at hjob
    rcases List.mem_append.mp hjob with hold | hadded
    · obtain ⟨entry, hentry, houtcome⟩ := htended.errors job hold error hfailed
      exact ⟨entry, hentry, (hawaited.outcomeOf _).trans houtcome⟩
    · obtain ⟨found, hfound, -, houtcome⟩ := hnew job hadded
      obtain ⟨entry, hentry, rfl⟩ := htended.mem_started (htended.executing_known found hfound)
        (isPending_of_outcomeOf houtcome)
      exact ⟨entry, hentry, (hawaited.outcomeOf _).trans (houtcome.trans (congrArg some hfailed))⟩

end Tended

/-! ### An item is pushed -/

section Push

variable {item : Item} {rest : List Item}

/-- The promises before the clean-up is registered. -/
theorem fresh_lt_create (outcome : Except Err Unit) (reaction : Reaction Item) :
    pool.heap.fresh < (pool.heap.create.enqueue reaction outcome).fresh := by
  rw [fresh_enqueue, fresh_create]
  exact Nat.lt_succ_self _

theorem isPending_fresh (outcome : Except Err Unit) (reaction : Reaction Item) :
    (pool.heap.create.enqueue reaction outcome).isPending pool.heap.fresh = true := by
  simp

theorem fresh_push : (pool.push item rest).heap.fresh = pool.heap.fresh + 1 := by
  unfold Pool.push
  dsimp only
  rw [fresh_andThen (fresh_lt_create _ _), fresh_enqueue, fresh_create]

theorem isPending_push (check : ℕ) : (pool.push item rest).heap.isPending check =
    (decide (check = pool.heap.fresh) || pool.heap.isPending check) := by
  unfold Pool.push
  dsimp only
  rw [isPending_andThen (fresh_lt_create _ _), isPending_enqueue, isPending_create]

theorem outcomeOf_push (check : ℕ) :
    (pool.push item rest).heap.outcomeOf check = pool.heap.outcomeOf check := by
  unfold Pool.push
  dsimp only
  rw [outcomeOf_andThen (fresh_lt_create _ _), outcomeOf_enqueue, outcomeOf_create]

theorem waitingOn_push_self :
    (pool.push item rest).heap.waitingOn pool.heap.fresh = [.clean pool.heap.fresh] := by
  have hempty : pool.heap.waitingOn pool.heap.fresh = [] := by
    refine waitingOn_of_not_pending ?_
    by_contra hpending
    exact Nat.lt_irrefl _ (lt_of_isPending (eq_true_of_ne_false hpending))
  unfold Pool.push
  dsimp only
  rw [waitingOn_andThen_self (isPending_fresh _ _), waitingOn_enqueue, waitingOn_create, hempty]
  rfl

theorem waitingOn_push_ne {id : ℕ} (hne : id ≠ pool.heap.fresh) :
    (pool.push item rest).heap.waitingOn id = pool.heap.waitingOn id := by
  unfold Pool.push
  dsimp only
  rw [waitingOn_andThen_ne (fresh_lt_create _ _) hne, waitingOn_enqueue, waitingOn_create]

theorem jobs_push : (pool.push item rest).heap.jobs =
    pool.heap.jobs ++ [(.call item pool.heap.fresh, .ok ())] := by
  unfold Pool.push
  dsimp only
  rw [jobs_andThen_of_pending (isPending_fresh _ _), jobs_enqueue, jobs_create]

theorem outstanding_push : (pool.push item rest).heap.outstanding.Perm
    (.clean pool.heap.fresh :: .call item pool.heap.fresh :: pool.heap.outstanding) := by
  unfold Pool.push
  dsimp only
  refine (outstanding_andThen (fresh_lt_create _ _)).trans (List.Perm.cons _ ?_)
  rw [outstanding_enqueue, outstanding_create]
  exact List.perm_append_singleton _ _

theorem calls_push : (pool.push item rest).calls = pool.calls ++ [(item, pool.heap.fresh)] := by
  unfold Pool.calls
  rw [jobs_push, List.filterMap_append]
  rfl

theorem pushed_push : (pool.push item rest).pushed = pool.pushed ++ [(item, pool.heap.fresh)] := by
  have hstarted : (pool.push item rest).started = pool.started := rfl
  unfold Pool.pushed
  rw [calls_push, hstarted, List.append_assoc]

theorem checks_push : (pool.push item rest).checks = pool.checks ++ [pool.heap.fresh] := by
  unfold Pool.checks
  rw [pushed_push, List.map_append]
  rfl

theorem Tended.push (htended : Tended limit items pool) (hrest : pool.rest = item :: rest)
    (hroom : pool.executing.length < limit) : Tended limit items (pool.push item rest) := by
  have hfresh : pool.heap.fresh ∉ pool.checks := fun hmem ↦
    Nat.lt_irrefl _ (htended.known _ hmem)
  have hexecuting : (pool.push item rest).executing = pool.executing ++ [pool.heap.fresh] := rfl
  have hbefore : ∀ check ∈ pool.checks,
      (pool.push item rest).heap.isPending check = pool.heap.isPending check := by
    intro check hcheck
    have hne : check ≠ pool.heap.fresh := fun hsame ↦ hfresh (hsame ▸ hcheck)
    rw [isPending_push, decide_eq_false hne, Bool.false_or]
  have hnew : (pool.push item rest).heap.isPending pool.heap.fresh = true := by
    rw [isPending_push, decide_eq_true rfl, Bool.true_or]
  refine ⟨?_, ?_, fun check hcheck ↦ ?_, fun entry hentry ↦ ?_, ?_, fun check hcheck ↦ ?_, ?_,
    fun check hcheck hpending ↦ ?_, fun check hcheck ↦ ?_, fun check hcheck hpending ↦ ?_,
    fun id hid reaction hreaction ↦ ?_, fun reaction hreaction id check htarget ↦ ?_,
    fun reaction hreaction check hcheck ↦ ?_, fun job hjob check hcheck ↦ ?_, ?_,
    fun job hjob error hfailed ↦ ?_⟩
  · have hinOrder := htended.inOrder
    rw [hrest] at hinOrder
    rw [pushed_push, List.map_append, List.append_assoc]
    exact hinOrder
  · rw [checks_push]
    exact List.nodup_append.mpr ⟨htended.nodup, List.nodup_singleton _, fun check hcheck other
      hother hsame ↦ hfresh (List.mem_singleton.mp hother ▸ hsame ▸ hcheck)⟩
  · rw [fresh_push]
    rw [checks_push] at hcheck
    rcases List.mem_append.mp hcheck with hold | hlast
    · exact Nat.lt_succ_of_lt (htended.known check hold)
    · rw [List.mem_singleton.mp hlast]
      exact Nat.lt_succ_self _
  · rw [calls_push] at hentry
    rcases List.mem_append.mp hentry with hold | hlast
    · exact (hbefore _ (List.mem_map_of_mem (List.mem_append_right _ hold))).trans
        (htended.called entry hold)
    · obtain rfl := List.mem_singleton.mp hlast
      exact hnew
  · rw [hexecuting]
    exact List.nodup_append.mpr ⟨htended.executing_nodup, List.nodup_singleton _, fun check hcheck
      other hother hsame ↦ hfresh (List.mem_singleton.mp hother ▸ hsame ▸
        htended.executing_known check hcheck)⟩
  · rw [checks_push]
    exact List.mem_append.mpr ((List.mem_append.mp hcheck).imp_left (htended.executing_known check))
  · rw [hexecuting, List.length_append]
    exact hroom
  · rw [checks_push] at hcheck
    refine List.mem_append.mpr ((List.mem_append.mp hcheck).imp_left fun hold ↦ ?_)
    exact htended.pending check hold ((hbefore check hold).symm.trans hpending)
  · rcases List.mem_append.mp hcheck with hold | hlast
    · rcases htended.cleaned check hold with hpending | ⟨outcome, hqueued⟩
      · exact Or.inl ((hbefore check (htended.executing_known check hold)).trans hpending)
      · refine Or.inr ⟨outcome, ?_⟩
        rw [jobs_push]
        exact List.mem_append_left _ hqueued
    · rw [List.mem_singleton.mp hlast]
      exact Or.inl hnew
  · rw [checks_push] at hcheck
    rcases List.mem_append.mp hcheck with hold | hlast
    · have hne : check ≠ pool.heap.fresh := fun hsame ↦ hfresh (hsame ▸ hold)
      rw [waitingOn_push_ne hne]
      exact htended.waits check hold ((hbefore check hold).symm.trans hpending)
    · rw [List.mem_singleton.mp hlast]
      exact ⟨[], waitingOn_push_self, nofun⟩
  · rw [checks_push, List.mem_append, List.mem_singleton, not_or] at hid
    rw [waitingOn_push_ne hid.2] at hreaction
    exact htended.others id hid.1 reaction hreaction
  · have hold : reaction ∈ pool.heap.outstanding := by
      rcases List.mem_cons.mp (outstanding_push.mem_iff.mp hreaction) with rfl | hmore
      · rcases htarget with hrace | hjoin
        · cases hrace
        · cases hjoin
      · rcases List.mem_cons.mp hmore with rfl | hold
        · rcases htarget with hrace | hjoin
          · cases hrace
          · cases hjoin
        · exact hold
    obtain ⟨hid, hbound⟩ := htended.targets reaction hold id check htarget
    rw [checks_push, fresh_push]
    refine ⟨fun hmem ↦ ?_, Nat.lt_succ_of_lt hbound⟩
    rcases List.mem_append.mp hmem with hmem | hlast
    · exact hid hmem
    · exact Nat.ne_of_lt hbound (List.mem_singleton.mp hlast)
  · rw [checks_push]
    rcases List.mem_cons.mp (outstanding_push.mem_iff.mp hreaction) with rfl | hmore
    · refine List.mem_append_right _ (List.mem_singleton.mpr ?_)
      rcases hcheck with hclean | ⟨id, hrace | hjoin⟩
      · exact (Reaction.clean.inj hclean).symm
      · cases hrace
      · cases hjoin
    · rcases List.mem_cons.mp hmore with rfl | hold
      · rcases hcheck with hclean | ⟨id, hrace | hjoin⟩
        · cases hclean
        · cases hrace
        · cases hjoin
      · exact List.mem_append_left _ (htended.named reaction hold check hcheck)
  · rw [jobs_push] at hjob
    rcases List.mem_append.mp hjob with hold | hlast
    · have hmem : job.1 ∈ pool.heap.outstanding :=
        mem_outstanding.mpr (Or.inr ⟨job.2, hold⟩)
      exact (hbefore check (htended.named job.1 hmem check hcheck)).trans
        (htended.queued job hold check hcheck)
    · rw [List.mem_singleton.mp hlast] at hcheck
      rcases hcheck with hclean | ⟨id, hrace | hjoin⟩
      · cases hclean
      · cases hrace
      · cases hjoin
  · rw [jobs_push, List.pairwise_append]
    refine ⟨htended.order, List.pairwise_singleton _ _, fun _ _ second hsecond _ _ _ hclean ↦ ?_⟩
    rw [List.mem_singleton.mp hsecond] at hclean
    cases hclean
  · rw [jobs_push] at hjob
    rcases List.mem_append.mp hjob with hold | hlast
    · obtain ⟨entry, hentry, houtcome⟩ := htended.errors job hold error hfailed
      exact ⟨entry, hentry, (outcomeOf_push _).trans houtcome⟩
    · rw [List.mem_singleton.mp hlast] at hfailed
      cases hfailed

end Push

/-! ### A job is taken -/

section Take

variable {reaction : Reaction Item} {outcome : Except Err Unit}
  {jobs : List (Reaction Item × Except Err Unit)}

/-- A job is taken that leaves what has been pushed; a clean-up takes its check from those that
execute. -/
theorem Tended.take (htended : Tended limit items pool)
    (hjobs : pool.heap.jobs = (reaction, outcome) :: jobs) {after : Pool Item Err}
    (hheap : after.heap = { pool.heap with jobs }) (hrest : after.rest = pool.rest)
    (hpushed : after.pushed = pool.pushed) (hcalls : after.calls ⊆ pool.calls)
    (hstarted : pool.started ⊆ after.started)
    (hexecuting : (∀ check, reaction ≠ .clean check) ∧ after.executing = pool.executing ∨
      ∃ check, reaction = .clean check ∧ after.executing = pool.executing.erase check) :
    Tended limit items after := by
  have hmem : ∀ {job}, job ∈ jobs → job ∈ pool.heap.jobs := fun hjob ↦
    hjobs ▸ List.mem_cons_of_mem _ hjob
  have houtstanding : ∀ {found}, found ∈ after.heap.outstanding → found ∈
      pool.heap.outstanding := by
    intro found hfound
    rw [hheap] at hfound
    exact (outstanding_take hjobs).mem_iff.mpr (List.mem_cons_of_mem _ hfound)
  have hsame : ∀ check, after.heap.isPending check = pool.heap.isPending check := fun check ↦ by
    rw [hheap]
    rfl
  have hchecks : after.checks = pool.checks := congrArg (List.map Prod.snd) hpushed
  have hsub : ∀ check ∈ after.executing, check ∈ pool.executing ∧
      reaction ≠ .clean check := by
    intro check hcheck
    rcases hexecuting with ⟨hnot, hsame⟩ | ⟨cleaned, rfl, herased⟩
    · exact ⟨hsame ▸ hcheck, hnot check⟩
    · rw [herased, htended.executing_nodup.mem_erase_iff] at hcheck
      exact ⟨hcheck.2, fun hsame ↦ hcheck.1 (Reaction.clean.inj hsame).symm⟩
  refine ⟨?_, ?_, fun check hcheck ↦ ?_, fun entry hentry ↦ ?_, ?_, fun check hcheck ↦ ?_, ?_,
    fun check hcheck hpending ↦ ?_, fun check hcheck ↦ ?_, fun check hcheck hpending ↦ ?_,
    fun id hid found hfound ↦ ?_, fun found hfound id check htarget ↦ ?_,
    fun found hfound check hcheck ↦ ?_, fun job hjob check hcheck ↦ ?_, ?_,
    fun job hjob error hfailed ↦ ?_⟩
  · rw [hpushed, hrest]
    exact htended.inOrder
  · rw [hchecks]
    exact htended.nodup
  · rw [hchecks] at hcheck
    rw [hheap]
    exact htended.known check hcheck
  · exact (hsame _).trans (htended.called entry (hcalls hentry))
  · rcases hexecuting with ⟨-, hsame⟩ | ⟨cleaned, -, herased⟩
    · exact hsame ▸ htended.executing_nodup
    · exact herased ▸ htended.executing_nodup.erase cleaned
  · rw [hchecks]
    exact htended.executing_known check (hsub check hcheck).1
  · rcases hexecuting with ⟨-, hsame⟩ | ⟨cleaned, -, herased⟩
    · exact hsame ▸ htended.executing_le
    · rw [herased]
      exact Nat.le_trans List.erase_sublist.length_le htended.executing_le
  · rw [hchecks] at hcheck
    have hbefore := (hsame check).symm.trans hpending
    have hold := htended.pending check hcheck hbefore
    rcases hexecuting with ⟨-, hsame⟩ | ⟨cleaned, rfl, herased⟩
    · exact hsame ▸ hold
    · rw [herased, htended.executing_nodup.mem_erase_iff]
      refine ⟨?_, hold⟩
      rintro rfl
      cases hbefore.symm.trans
        (htended.queued _ (hjobs ▸ List.mem_cons_self) check (Or.inl rfl))
  · obtain ⟨hold, hnot⟩ := hsub check hcheck
    rcases htended.cleaned check hold with hpending | ⟨found, hclean⟩
    · exact Or.inl ((hsame check).trans hpending)
    · rw [hjobs] at hclean
      rcases List.mem_cons.mp hclean with hhead | hlater
      · exact absurd (congrArg Prod.fst hhead).symm hnot
      · exact Or.inr ⟨found, by rw [hheap]; exact hlater⟩
  · rw [hchecks] at hcheck
    rw [hheap]
    exact htended.waits check hcheck ((hsame check).symm.trans hpending)
  · rw [hchecks] at hid
    rw [hheap] at hfound
    exact htended.others id hid found hfound
  · rw [hchecks, hheap]
    exact htended.targets found (houtstanding hfound) id check htarget
  · rw [hchecks]
    exact htended.named found (houtstanding hfound) check hcheck
  · rw [hheap] at hjob
    exact (hsame check).trans (htended.queued job (hmem hjob) check hcheck)
  · have horder := htended.order
    rw [hjobs] at horder
    rw [hheap]
    exact (List.pairwise_cons.mp horder).2
  · rw [hheap] at hjob
    obtain ⟨entry, hentry, hfound⟩ := htended.errors job (hmem hjob) error hfailed
    exact ⟨entry, hstarted hentry, by rw [hheap]; exact hfound⟩

/-- When a race is settled as a check is, the check has been cleaned up. -/
theorem Tended.not_executing (htended : Tended limit items pool) {race check : ℕ}
    (hjobs : pool.heap.jobs = (.race race check, outcome) :: jobs) : check ∉ pool.executing := by
  intro hexecuting
  have hsettled := htended.queued _ (hjobs ▸ List.mem_cons_self) check
    (Or.inr ⟨race, Or.inl rfl⟩)
  have horder := htended.order
  rw [hjobs] at horder
  rcases htended.cleaned check hexecuting with hpending | ⟨found, hclean⟩
  · cases hsettled.symm.trans hpending
  · rw [hjobs] at hclean
    rcases List.mem_cons.mp hclean with hhead | hlater
    · cases hhead
    · exact (List.pairwise_cons.mp horder).1 _ hlater race check rfl rfl

end Take

end Checks

end VmsLite.Health
