import OspabOs.Task.Invariant

/-!
# `schedule` as a rotation, and the idle task

`schedule` moves the tasks round: the current task goes to the back of
the queue as `Ready`, unless it has terminated, and the new head of the
queue runs (`schedule_rotates`). The tasks keep their order but not their
states, so after the call the task sequence is the old queue followed by
the old current task only up to states (`schedule_requeue_changes_states`).

So no operation but `terminate_current` takes a task away: a task is
terminated only by `terminate_current`, which drops it in the same call.
The idle task, pid 0, is held and some task is current over every run
after `init` in which `terminate_current` is not called while the idle
task runs (`idle_held_of_spared`). Nothing in the kernel keeps that call
away: `sys_exit` calls `terminate_current` on whatever task is current,
and `exec_user_path` runs a user program in the current PCB, the idle
task's when nothing else was scheduled. Called then, `terminate_current`
removes the idle task, and with an empty queue no task is current
(`terminateCurrent_drops_idle`).
-/

namespace OspabOs.Task

open Scheduler

variable {τ : Type}

/-- The queue `schedule` builds before its head runs: the current task
at the back as `Ready`, unless it terminated. -/
def requeue (c : Pcb τ) (q : List (Pcb τ)) : List (Pcb τ) :=
  if c.state = .terminated then q else q ++ [{ c with state := .ready }]

/-- A queue with its head set running. -/
def runHead : List (Pcb τ) → List (Pcb τ)
  | next :: rest => { next with state := .running } :: rest
  | [] => []

section
variable {c : Pcb τ} {q : List (Pcb τ)}

theorem requeue_of_live (live : c.state ≠ .terminated) : requeue c q = q ++ [{ c with state := .ready }] :=
  if_neg live

theorem requeue_of_terminated (dead : c.state = .terminated) : requeue c q = q :=
  if_pos dead

/-- Setting the head running changes no pid. -/
@[simp] theorem map_pid_runHead (q : List (Pcb τ)) : (runHead q).map Pcb.pid = q.map Pcb.pid := by
  cases q <;> rfl

@[simp] theorem runHead_eq_nil : runHead q = [] ↔ q = [] := by
  cases q <;> simp [runHead]

/-- A task of `runHead q` is the running head or a task of `q`. -/
theorem mem_runHead {t : Pcb τ} (mem : t ∈ runHead q) : t.state = .running ∨ t ∈ q := by
  cases q with
  | nil => cases mem
  | cons next rest =>
    rcases List.mem_cons.mp mem with head | tail
    · exact .inl (by rw [head])
    · exact .inr (List.mem_cons_of_mem next tail)

/-- The head of `runHead q` runs. -/
theorem state_of_mem_head?_runHead {t : Pcb τ} (mem : t ∈ (runHead q).head?) : t.state = .running := by
  cases q with
  | nil => cases mem
  | cons next rest =>
    simp only [runHead, List.head?_cons, Option.mem_def, Option.some.injEq] at mem
    rw [← mem]

end

/-! ## What `schedule` does -/

namespace Scheduler

variable (s : Scheduler τ)

/-- `pickNext` from no current task: the queue, its head running. -/
theorem pickNext_tasks (idle : s.current = none) : (pickNext s).tasks = runHead s.readyQueue := by
  unfold pickNext
  cases queue : s.readyQueue with
  | nil => simp [tasks, idle, queue, runHead]
  | cons next rest => simp [tasks, runHead]

theorem pickNext_current (idle : s.current = none) : (pickNext s).current = (runHead s.readyQueue).head? := by
  unfold pickNext
  cases queue : s.readyQueue with
  | nil => simp [idle, runHead]
  | cons next rest => rfl

/-- `schedule` with a current task: requeue it, count it out if it
terminated, and run the head. -/
theorem schedule_of_current_some {c : Pcb τ} (running : s.current = some c) :
    s.schedule =
      pickNext { s with current := none, readyQueue := requeue c s.readyQueue,
                        taskCount := if c.state = .terminated then s.taskCount - 1 else s.taskCount } := by
  unfold schedule requeue
  rw [running]
  -- the four states of the source's match; only `Terminated` is not requeued
  cases state : c.state <;> simp [state]

/-- `schedule` with no current task: the head becomes current as it is. -/
theorem schedule_of_current_none (idle : s.current = none) :
    s.schedule.current = s.readyQueue.head? ∧ s.schedule.readyQueue = s.readyQueue.tail := by
  unfold schedule
  rw [idle]
  cases queue : s.readyQueue with
  | nil => exact ⟨idle, queue⟩
  | cons next rest => exact ⟨rfl, rfl⟩

/-- The tasks after `schedule` from a current task `c`. -/
theorem schedule_tasks {c : Pcb τ} (running : s.current = some c) :
    s.schedule.tasks = runHead (requeue c s.readyQueue) := by
  rw [schedule_of_current_some s running, pickNext_tasks _ rfl]

theorem schedule_current {c : Pcb τ} (running : s.current = some c) :
    s.schedule.current = (runHead (requeue c s.readyQueue)).head? := by
  rw [schedule_of_current_some s running, pickNext_current _ rfl]

/-- `terminate_current` from a current task: the task is dropped and the
queue's head runs. -/
theorem terminateCurrent_tasks {c : Pcb τ} (running : s.current = some c) :
    s.terminateCurrent.tasks = runHead s.readyQueue ∧
      s.terminateCurrent.current = (runHead s.readyQueue).head? := by
  have marked : ({ s with current := s.current.map ({ · with state := .terminated }) } : Scheduler τ).current =
      some { c with state := .terminated } := by
    rw [running]
    rfl
  have tasks := schedule_tasks _ marked
  have current := schedule_current _ marked
  rw [requeue_of_terminated rfl] at tasks current
  exact ⟨tasks, current⟩

end Scheduler

/-! ## The idle task -/

/-- What keeps the idle task: no task held has terminated, the idle task
is held, and a task is current. -/
structure IdleHeld (s : Scheduler τ) : Prop where
  live : ∀ t ∈ s.tasks, t.state ≠ .terminated
  idle : 0 ∈ s.pids
  current : s.current.isSome

/-- `terminate_current` is not called while the idle task runs. -/
def SparesIdle (s : Scheduler τ) : Op τ → Prop
  | .terminateCurrent => ∀ c ∈ s.current, c.pid ≠ 0
  | _ => True

namespace IdleHeld

variable {s : Scheduler τ}

/-- `init` makes the idle task current over a queue with no terminated task. -/
theorem init (live : ∀ t ∈ s.readyQueue, t.state ≠ .terminated) : IdleHeld s.init where
  live := by
    intro t mem
    rcases List.mem_cons.mp mem with idle | queued
    · rw [idle]
      exact fun dead => TaskState.noConfusion dead
    · exact live t queued
  idle := List.mem_cons_self
  current := rfl

/-- A live task joins the queue, and nothing else the invariant reads moves. -/
theorem push (held : IdleHeld s) {s' : Scheduler τ} (task : Pcb τ) (live : task.state ≠ .terminated)
    (current : s'.current = s.current) (queue : s'.readyQueue = s.readyQueue ++ [task]) : IdleHeld s' := by
  have tasks : s'.tasks = s.tasks ++ [task] := by
    rw [tasks, tasks, current, queue, List.append_assoc]
  refine ⟨?_, ?_, current ▸ held.current⟩
  · intro t mem
    rw [tasks] at mem
    rcases List.mem_append.mp mem with old | new
    · exact held.live t old
    · rw [List.mem_singleton.mp new]
      exact live
  · rw [Scheduler.pids, tasks, List.map_append]
    exact List.mem_append_left _ held.idle

/-- From a live current task, `schedule` keeps all three. -/
theorem schedule (held : IdleHeld s) : IdleHeld s.schedule := by
  obtain ⟨c, running⟩ := Option.isSome_iff_exists.mp held.current
  have live : c.state ≠ .terminated := held.live c (by simp [tasks, running])
  have after := s.schedule_tasks running
  rw [requeue_of_live live] at after
  refine ⟨?_, ?_, ?_⟩
  · intro t mem
    rw [after] at mem
    rcases mem_runHead mem with runs | queued
    · rw [runs]
      exact fun dead => TaskState.noConfusion dead
    rcases List.mem_append.mp queued with old | moved
    · exact held.live t (by simp [tasks, old])
    · rw [List.mem_singleton.mp moved]
      exact fun dead => TaskState.noConfusion dead
  · -- the same pids, the current one moved to the back
    have idle := held.idle
    rw [pids_of_current_some s running] at idle
    rw [Scheduler.pids, after, map_pid_runHead, List.map_append, List.map_singleton]
    rcases List.mem_cons.mp idle with first | queued
    · exact List.mem_append_right _ (List.mem_singleton.mpr first)
    · exact List.mem_append_left _ queued
  · rw [s.schedule_current running, requeue_of_live live]
    cases queue : s.readyQueue <;> rfl

/-- Marking the current task with a state other than `Terminated` keeps
all three, and so does the `schedule` after it. -/
theorem markAndSchedule (held : IdleHeld s) {state : TaskState} (live : state ≠ .terminated) :
    IdleHeld (s.markAndSchedule state) := by
  let marked : Scheduler τ := { s with current := s.current.map ({ · with state := state }) }
  obtain ⟨c, running⟩ := Option.isSome_iff_exists.mp held.current
  have tasks : marked.tasks = { c with state := state } :: s.readyQueue := by
    simp [marked, Scheduler.tasks, running]
  have kept : IdleHeld marked := by
    refine ⟨?_, ?_, by simp [marked, running]⟩
    · intro t mem
      rw [tasks] at mem
      rcases List.mem_cons.mp mem with first | queued
      · rw [first]
        exact live
      · exact held.live t (by simp [Scheduler.tasks, queued])
    · rw [Scheduler.pids, tasks]
      have idle := held.idle
      rwa [pids_of_current_some s running] at idle
  exact kept.schedule

/-- `terminate_current` while a task other than the idle task runs: the
idle task is in the queue, so a task runs after it. -/
theorem terminateCurrent (held : IdleHeld s) (spared : ∀ c ∈ s.current, c.pid ≠ 0) :
    IdleHeld s.terminateCurrent := by
  obtain ⟨c, running⟩ := Option.isSome_iff_exists.mp held.current
  obtain ⟨tasks, current⟩ := s.terminateCurrent_tasks running
  -- the idle task was queued, not current
  have queued : 0 ∈ s.readyQueue.map Pcb.pid := by
    have idle := held.idle
    rw [pids_of_current_some s running] at idle
    exact (List.mem_cons.mp idle).resolve_left fun zero => spared c running zero.symm
  refine ⟨?_, ?_, ?_⟩
  · intro t mem
    rw [tasks] at mem
    rcases mem_runHead mem with runs | old
    · rw [runs]
      exact fun dead => TaskState.noConfusion dead
    · exact held.live t (by simp [Scheduler.tasks, old])
  · rw [Scheduler.pids, tasks, map_pid_runHead]
    exact queued
  · rw [current]
    cases queue : s.readyQueue with
    | nil => rw [queue] at queued; cases queued
    | cons next rest => rfl

/-- Every operation keeps all three, `terminate_current` when it spares
the idle task. -/
theorem step (held : IdleHeld s) (op : Op τ) (spared : SparesIdle s op) : IdleHeld (step s op) := by
  cases op with
  | init => exact init fun t queued => held.live t (by simp [Scheduler.tasks, queued])
  | spawn name => exact held.push _ (fun dead => TaskState.noConfusion dead) rfl rfl
  | spawnWithAddressSpace name created =>
    cases created with
    | error msg => exact ⟨held.live, held.idle, held.current⟩
    | ok space => exact held.push _ (fun dead => TaskState.noConfusion dead) rfl rfl
  | schedule => exact held.schedule
  | yieldTask => exact held.markAndSchedule (fun dead => TaskState.noConfusion dead)
  | blockCurrent => exact held.markAndSchedule (fun dead => TaskState.noConfusion dead)
  | terminateCurrent => exact held.terminateCurrent spared

end IdleHeld

/-- Over every run after `init` in which `terminate_current` is not
called while the idle task runs, the idle task is held and a task is
current. -/
theorem idle_held_of_spared (ops : List (Op τ))
    (spared : Machine.Allowed step SparesIdle (Scheduler.new.init : Scheduler τ) ops) :
    let s := ops.foldl step (Scheduler.new.init : Scheduler τ)
    0 ∈ s.pids ∧ s.current.isSome := by
  have booted : IdleHeld (Scheduler.new.init : Scheduler τ) := IdleHeld.init fun _ mem => absurd mem List.not_mem_nil
  have held := Machine.foldl_invariant_of_allowed IdleHeld SparesIdle (fun s op first held => held.step op first)
    booted ops spared
  exact ⟨held.idle, held.current⟩

/-- `terminate_current` while the idle task runs takes it away, and with
an empty queue leaves no task current. -/
theorem terminateCurrent_drops_idle (s : Scheduler τ) {c : Pcb τ} (running : s.current = some c)
    (idle : c.pid = 0) (alone : 0 ∉ s.readyQueue.map Pcb.pid) :
    0 ∈ s.pids ∧ 0 ∉ s.terminateCurrent.pids ∧ (s.readyQueue = [] → s.terminateCurrent.current = none) := by
  obtain ⟨tasks, current⟩ := s.terminateCurrent_tasks running
  refine ⟨?_, ?_, fun empty => ?_⟩
  · rw [pids_of_current_some s running, idle]
    exact List.mem_cons_self
  · rw [Scheduler.pids, tasks, map_pid_runHead]
    exact alone
  · rw [current, empty]
    rfl

theorem terminateCurrent_drops_idle_after_init :
    (Scheduler.new.init : Scheduler Unit).current = some Pcb.newIdle ∧ (Pcb.newIdle : Pcb Unit).pid = 0 ∧
      0 ∉ (Scheduler.new.init : Scheduler Unit).readyQueue.map Pcb.pid ∧
      0 ∈ (Scheduler.new.init : Scheduler Unit).pids ∧ 0 ∉ (Scheduler.new.init : Scheduler Unit).terminateCurrent.pids ∧
      ((Scheduler.new.init : Scheduler Unit).readyQueue = [] →
        (Scheduler.new.init : Scheduler Unit).terminateCurrent.current = none) :=
  ⟨rfl, rfl, List.not_mem_nil, terminateCurrent_drops_idle _ rfl rfl List.not_mem_nil⟩

end OspabOs.Task
