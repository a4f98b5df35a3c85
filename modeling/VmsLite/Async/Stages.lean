import Mathlib.Data.List.InsertIdx
import VmsLite.Async.RelyGuarantee

/-!
# Programs in stages

A program that awaits only a few calls waits at one of a few places. A `Staging` names these places
as the stages of a type: it says which program waits at each, and at which stage, and in which
world, an awaited call leaves it. A system whose threads wait at stages moves to one of the same
kind, so that the runs of the programs are the runs of a small machine whose threads are stages
(`Staging.move_start`, `Staging.move_advance`).
-/

set_option autoImplicit false

namespace VmsLite.Async

variable {Call : Type} {Reply : Call → Type} {Err World Outcome Event Tag Stage α β γ : Type}

/-- An entry of a list with one more at its end. -/
theorem getElem?_concat_cases {entries : List α} {last entry : α} {index : ℕ}
    (hentry : (entries ++ [last])[index]? = some entry) :
    entries[index]? = some entry ∨ entry = last := by
  by_cases hindex : index < entries.length
  · rw [List.getElem?_append_left hindex] at hentry
    exact Or.inl hentry
  · rw [List.getElem?_append_right (Nat.le_of_not_lt hindex), List.getElem?_singleton] at hentry
    split_ifs at hentry
    exact Or.inr (Option.some.inj hentry).symm

/-- An entry of a list with one replaced. -/
theorem getElem?_set_cases {entries : List α} {new entry : α} {place index : ℕ}
    (hentry : (entries.set place new)[index]? = some entry) :
    (index = place ∧ entry = new) ∨ (index ≠ place ∧ entries[index]? = some entry) := by
  by_cases hindex : index = place
  · subst hindex
    rw [List.getElem?_set_self'] at hentry
    obtain ⟨old, -, hold⟩ := Option.map_eq_some_iff.mp hentry
    exact Or.inl ⟨rfl, hold.symm⟩
  · rw [List.getElem?_set_ne (Ne.symm hindex)] at hentry
    exact Or.inr ⟨hindex, hentry⟩

section Settle

variable {machine : Machine Call Reply World Outcome Event} {program : Program Call Reply Err α}
  {world : World}

/-- A sequence settles from where its first part settles. -/
theorem Machine.settle_bind (rest : α → Program Call Reply Err β) :
    machine.settle (program.bind rest) world =
      machine.settle ((machine.settle program world).1.bind rest)
          (machine.settle program world).2 := by
  induction program generalizing world with
  | done value => rfl
  | failed error => rfl
  | await call next ih =>
    by_cases hsynchronous : machine.synchronous call = true
    · simp only [Machine.settle, Program.settle, hsynchronous, if_true, Program.await_bind] at ih ⊢
      exact ih _
    · simp only [Machine.settle, Program.settle, hsynchronous, if_false, Program.await_bind,
        Bool.false_eq_true]

/-- A `try` settles from where its body settles. -/
theorem Machine.settle_catching (handler : Err → Program Call Reply Err α) :
    machine.settle (program.catching handler) world =
      machine.settle ((machine.settle program world).1.catching handler)
        (machine.settle program world).2 := by
  induction program generalizing world with
  | done value => rfl
  | failed error => rfl
  | await call next ih =>
    by_cases hsynchronous : machine.synchronous call = true
    · simp only [Machine.settle, Program.settle, hsynchronous, if_true,
        Program.await_catching] at ih ⊢
      exact ih _
    · simp only [Machine.settle, Program.settle, hsynchronous, if_false, Program.await_catching,
        Bool.false_eq_true]

/-- A sequence goes on at once when its first part makes synchronous calls only. -/
theorem Machine.settle_bind_of_done {rest : α → Program Call Reply Err β} {later : World}
    {value : α} (hfirst : machine.settle program world = (.done value, later)) :
    machine.settle (program.bind rest) world = machine.settle (rest value) later := by
  rw [Machine.settle_bind, hfirst]
  rfl

/-- So does a `try` around a sequence. -/
theorem Machine.settle_catching_of_done {rest : α → Program Call Reply Err β}
    {handler : Err → Program Call Reply Err β} {last : β → Program Call Reply Err γ}
    {later : World} {value : α} (hfirst : machine.settle program world = (.done value, later)) :
    machine.settle (((program.bind rest).catching handler).bind last) world =
      machine.settle (((rest value).catching handler).bind last) later := by
  have hbody : machine.settle (program.bind rest) world = machine.settle (rest value) later :=
    Machine.settle_bind_of_done hfirst
  have htry : machine.settle ((program.bind rest).catching handler) world =
      machine.settle ((rest value).catching handler) later := by
    rw [Machine.settle_catching, hbody, ← Machine.settle_catching]
  rw [Machine.settle_bind, htry, ← Machine.settle_bind]

end Settle

structure Staging (machine : Machine Call Reply World Outcome Event) (Err Stage : Type) where
  program : Stage → Program Call Reply Err Unit
  next : Stage → Outcome → World → Stage × World
  resume_program : ∀ stage outcome world, machine.resume outcome (program stage) world =
    (program (next stage outcome world).1, (next stage outcome world).2)

namespace Staging

variable {machine : Machine Call Reply World Outcome Event} (staging : Staging machine Err Stage)

/-- The system whose threads wait at some stages. -/
def system (stages : List (Tag × Stage)) (world : World) : System Call Reply Err World Tag where
  threads := stages.map fun entry ↦ (entry.1, staging.program entry.2)
  world := world

variable {staging} {stages : List (Tag × Stage)} {world : World}

theorem getElem_threads (thread : ℕ) :
    (staging.system stages world).threads[thread]? =
      stages[thread]?.map fun entry ↦ (entry.1, staging.program entry.2) :=
  List.getElem?_map ..

theorem mem_threads {entry : Tag × Program Call Reply Err Unit} :
    entry ∈ (staging.system stages world).threads ↔
      ∃ tag stage, (tag, stage) ∈ stages ∧ entry = (tag, staging.program stage) := by
  constructor
  · intro hentry
    obtain ⟨⟨tag, stage⟩, hmem, rfl⟩ := List.mem_map.mp hentry
    exact ⟨tag, stage, hmem, rfl⟩
  · rintro ⟨tag, stage, hmem, rfl⟩
    exact List.mem_map.mpr ⟨(tag, stage), hmem, rfl⟩

/-- A program that runs up to a stage. -/
theorem move_start {tag : Tag} {program : Program Call Reply Err Unit} {stage : Stage}
    {later : World}
    (hsettle : machine.settle program world = (staging.program stage, later)) :
    machine.move (staging.system stages world) (.start tag program) =
      staging.system (stages ++ [(tag, stage)]) later := by
  simp only [Machine.move, system, hsettle, List.map_append, List.map_cons, List.map_nil]

/-- An awaited call of a thread takes it from stage to stage. -/
theorem move_advance {thread : ℕ} {outcome : Outcome} {tag : Tag} {stage : Stage}
    (hstage : stages[thread]? = some (tag, stage)) :
    machine.move (staging.system stages world) (.advance thread outcome) =
      staging.system (stages.set thread (tag, (staging.next stage outcome world).1))
        (staging.next stage outcome world).2 := by
  have hthread : (staging.system stages world).threads[thread]? =
      some (tag, staging.program stage) := by
    rw [getElem_threads, hstage]
    rfl
  simp only [Machine.move, hthread]
  have hworld : (staging.system stages world).world = world := rfl
  rw [hworld, staging.resume_program]
  simp only [system, List.map_set]

theorem move_advance_none {thread : ℕ} {outcome : Outcome} (hstage : stages[thread]? = none) :
    machine.move (staging.system stages world) (.advance thread outcome) =
      staging.system stages world := by
  have hthread : (staging.system stages world).threads[thread]? = none := by
    rw [getElem_threads, hstage]
    rfl
  simp only [Machine.move, hthread]

/-! ### The threads that still wait -/

/-- The threads that are not over. -/
def waiting (ended : Stage → Bool) (stages : List (Tag × Stage)) : List (Tag × Stage) :=
  stages.filter fun entry ↦ !ended entry.2

section Waiting

variable {ended : Stage → Bool}

theorem waiting_append (first second : List (Tag × Stage)) :
    waiting ended (first ++ second) = waiting ended first ++ waiting ended second :=
  List.filter_append ..

theorem waiting_singleton_of_over {entry : Tag × Stage} (hover : ended entry.2 = true) :
    waiting ended [entry] = [] := by
  simp [waiting, hover]

theorem waiting_singleton {entry : Tag × Stage} (hover : ended entry.2 = false) :
    waiting ended [entry] = [entry] := by
  simp [waiting, hover]

/-- What waits beside a thread does not change when the thread goes on. -/
theorem waiting_set {thread : ℕ} {entry : Tag × Stage} (hentry : stages[thread]? = some entry) :
    ∃ first second, waiting ended stages = first ++ waiting ended [entry] ++ second ∧
      ∀ next, waiting ended (stages.set thread next) = first ++ waiting ended [next] ++ second := by
  obtain ⟨hbound, rfl⟩ := List.getElem?_eq_some_iff.mp hentry
  have hcons : ∀ (head : Tag × Stage) (rest : List (Tag × Stage)), head :: rest = [head] ++ rest :=
    fun _ _ ↦ rfl
  refine ⟨waiting ended (stages.take thread), waiting ended (stages.drop (thread + 1)), ?_,
    fun next ↦ ?_⟩
  · rw [← waiting_append, ← waiting_append, List.append_assoc, ← hcons,
      ← List.drop_eq_getElem_cons hbound, List.take_append_drop]
  · rw [← waiting_append, ← waiting_append, List.append_assoc, ← hcons,
      List.set_eq_take_append_cons_drop, if_pos hbound]

/-- Once a thread is over, the others wait. -/
theorem waiting_set_of_over {thread : ℕ} {entry next : Tag × Stage}
    (hentry : stages[thread]? = some entry) (hover : ended next.2 = true) :
    waiting ended (stages.set thread next) = waiting ended (stages.eraseIdx thread) := by
  obtain ⟨hbound, -⟩ := List.getElem?_eq_some_iff.mp hentry
  have hcons : next :: stages.drop (thread + 1) = [next] ++ stages.drop (thread + 1) := rfl
  rw [List.set_eq_take_append_cons_drop, if_pos hbound, hcons, waiting_append, waiting_append,
    waiting_singleton_of_over hover, List.nil_append, ← waiting_append,
    List.eraseIdx_eq_take_drop_succ]

theorem waiting_set_ne_nil {thread : ℕ} {entry next : Tag × Stage}
    (hentry : stages[thread]? = some entry) (hover : ended next.2 = false) :
    waiting ended (stages.set thread next) ≠ [] := by
  obtain ⟨first, second, -, hset⟩ := @waiting_set _ _ _ ended _ _ hentry
  rw [hset, waiting_singleton hover]
  simp

/-- Where one thread at most waits, it waits alone after it went on. -/
theorem waiting_set_of_length_le_one {thread : ℕ} {entry : Tag × Stage}
    (hentry : stages[thread]? = some entry) (hwaits : ended entry.2 = false)
    (hone : (waiting ended stages).length ≤ 1) (next : Tag × Stage) :
    waiting ended (stages.set thread next) = waiting ended [next] := by
  obtain ⟨first, second, hstages, hset⟩ := @waiting_set _ _ _ ended _ _ hentry
  rw [hstages, waiting_singleton hwaits, List.length_append, List.length_append,
    List.length_singleton] at hone
  have hfirst : first = [] := List.eq_nil_of_length_eq_zero (by omega)
  have hsecond : second = [] := List.eq_nil_of_length_eq_zero (by omega)
  rw [hset, hfirst, hsecond, List.nil_append, List.append_nil]

/-- A thread that is not over waits. -/
theorem mem_waiting {entry : Tag × Stage} :
    entry ∈ waiting ended stages ↔ entry ∈ stages ∧ ended entry.2 = false := by
  simp [waiting]

theorem eraseIdx_threads (thread : ℕ) : (staging.system stages world).threads.eraseIdx thread =
    (staging.system (stages.eraseIdx thread) world).threads :=
  List.eraseIdx_map ..

theorem exists_thread_iff (hover : ∀ stage, (staging.program stage).isOver = ended stage) :
    (∃ thread ∈ (staging.system stages world).threads, thread.2.isOver = false) ↔
      waiting ended stages ≠ [] := by
  constructor
  · rintro ⟨_, hmem, hthread⟩
    obtain ⟨tag, stage, hstage, rfl⟩ := mem_threads.mp hmem
    have hwaits : (tag, stage) ∈ waiting ended stages :=
      mem_waiting.mpr ⟨hstage, (hover stage).symm.trans hthread⟩
    exact List.ne_nil_of_mem hwaits
  · intro hwaiting
    obtain ⟨⟨tag, stage⟩, hmem⟩ := List.exists_mem_of_ne_nil _ hwaiting
    obtain ⟨hstage, hthread⟩ := mem_waiting.mp hmem
    exact ⟨_, mem_threads.mpr ⟨tag, stage, hstage, rfl⟩, (hover stage).trans hthread⟩

theorem forall_thread_iff (hover : ∀ stage, (staging.program stage).isOver = ended stage) :
    (∀ thread ∈ (staging.system stages world).threads, thread.2.isOver = true) ↔
      waiting ended stages = [] := by
  have hexists := @exists_thread_iff _ _ _ _ _ _ _ _ _ staging stages world ended hover
  constructor
  · intro hall
    by_contra hwaiting
    obtain ⟨thread, hthread, hwaits⟩ := hexists.mpr hwaiting
    rw [hall thread hthread] at hwaits
    cases hwaits
  · intro hnone thread hthread
    by_contra hwaits
    exact hexists.mp ⟨thread, hthread, Bool.eq_false_iff.mpr hwaits⟩ hnone

end Waiting

end Staging

end VmsLite.Async
