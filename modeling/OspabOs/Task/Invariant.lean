import Mathlib
import OspabOs.Task.Scheduler

/-!
# What the scheduler keeps over a run

Three facts are meant to hold of every state the scheduler reaches: the
hand-kept `task_count` counts the current task and the queue, no two of
those tasks share a pid, and every queued task is `Ready`. They hold
over every run in which every `init` comes before every spawn (at boot,
`init` is called once, before anything is spawned) and fewer than `2^32`
pids are handed out (`scheduler_invariant_when_init_first`).

Both conditions are needed. `init` sets `task_count` to 1 whatever the
queue holds, so a spawn before it leaves the count one short; and the
`u32` pid counter wraps, so the `2^32`-th spawn after `init` hands out
pid 0 again, the idle task's (`spawn_before_init_miscounts_and_pids_wrap`).

The invariant is indexed by the number `n` of pids handed out so far: all
pids are at most `n`, and the next one is `n + 1`.
-/

namespace OspabOs.Task

open Scheduler

variable {τ : Type}

/-- The pids of the tasks the scheduler holds. -/
def Scheduler.pids (s : Scheduler τ) : List UInt32 := s.tasks.map Pcb.pid

/-- What a run keeps, once `n` pids have been handed out. -/
structure Invariant (n : Nat) (s : Scheduler τ) : Prop where
  count : s.taskCount.toNat = s.pids.length
  ready : ∀ t ∈ s.readyQueue, t.state = .ready
  distinct : s.pids.Nodup
  issued : ∀ p ∈ s.pids, p.toNat ≤ n
  next : s.nextPid.toNat = (n + 1) % 2 ^ 32
  bound : s.pids.length ≤ n + 1
  fresh : n = 0 → s.readyQueue = []

/-! ## How each operation moves the tasks -/

section
variable (s : Scheduler τ)

theorem pids_of_current_none (idle : s.current = none) : s.pids = s.readyQueue.map Pcb.pid := by
  simp [Scheduler.pids, tasks, idle]

theorem pids_of_current_some {c : Pcb τ} (running : s.current = some c) :
    s.pids = c.pid :: s.readyQueue.map Pcb.pid := by
  simp [Scheduler.pids, tasks, running]

/-- `pickNext` runs the head of the queue: the same tasks, one fewer queued. -/
theorem pickNext_pids (idle : s.current = none) : (pickNext s).pids = s.readyQueue.map Pcb.pid := by
  unfold pickNext
  cases queue : s.readyQueue with
  | nil => simp [Scheduler.pids, tasks, idle, queue]
  | cons next rest => simp [Scheduler.pids, tasks]

theorem pickNext_readyQueue : (pickNext s).readyQueue = s.readyQueue.tail := by
  unfold pickNext
  cases queue : s.readyQueue with
  | nil => exact queue
  | cons next rest => rfl

theorem pickNext_taskCount : (pickNext s).taskCount = s.taskCount := by
  unfold pickNext
  cases s.readyQueue with
  | nil => rfl
  | cons next rest => rfl

theorem pickNext_nextPid : (pickNext s).nextPid = s.nextPid := by
  unfold pickNext
  cases s.readyQueue with
  | nil => rfl
  | cons next rest => rfl

end

/-! ## Each operation keeps the invariant -/

namespace Invariant

variable {n : Nat} {s : Scheduler τ}

theorem new : Invariant 0 (Scheduler.new : Scheduler τ) where
  count := rfl
  ready := fun _ mem => absurd mem List.not_mem_nil
  distinct := List.nodup_nil
  issued := fun _ mem => absurd mem List.not_mem_nil
  next := rfl
  bound := Nat.zero_le 1
  fresh := fun _ => rfl

/-- `init` before any pid is handed out: the idle task alone. -/
theorem init (inv : Invariant 0 s) : Invariant 0 s.init := by
  have empty := inv.fresh rfl
  have pids : s.init.pids = [0] := by
    simp [Scheduler.pids, tasks, Scheduler.init, empty, Pcb.newIdle, Pcb.new]
  refine ⟨?_, ?_, ?_, ?_, inv.next, ?_, fun _ => empty⟩
  · rw [pids]
    rfl
  · intro t mem
    rw [show s.init.readyQueue = s.readyQueue from rfl, empty] at mem
    cases mem
  · rw [pids]
    exact List.nodup_singleton 0
  · intro p mem
    rw [pids, List.mem_singleton] at mem
    simp [mem]
  · rw [pids]
    exact Nat.le_refl 1

/-- Handing out a pid moves `next_pid` on by one, modulo `2 ^ 32`. -/
theorem next_succ (inv : Invariant n s) : (s.nextPid + 1).toNat = (n + 1 + 1) % 2 ^ 32 := by
  rw [UInt32.toNat_add, inv.next]
  simp only [UInt32.toNat_one]
  omega

/-- A task with the next pid joins the queue. -/
theorem push (inv : Invariant n s) (room : n + 1 < 2 ^ 32) (task : Pcb τ) (pid : task.pid = s.nextPid)
    (ready : task.state = .ready) :
    Invariant (n + 1)
      { s with nextPid := s.nextPid + 1, readyQueue := s.readyQueue ++ [task], taskCount := s.taskCount + 1 } := by
  have fresh : task.pid.toNat = n + 1 := by
    rw [pid, inv.next, Nat.mod_eq_of_lt room]
  have pids : Scheduler.pids
      { s with nextPid := s.nextPid + 1, readyQueue := s.readyQueue ++ [task], taskCount := s.taskCount + 1 } =
      s.pids ++ [task.pid] := by
    simp [Scheduler.pids, tasks]
  have length := inv.bound
  refine ⟨?_, ?_, ?_, ?_, ?_, ?_, fun succ => absurd succ (Nat.succ_ne_zero n)⟩
  · show (s.taskCount + 1).toNat = _
    rw [pids, List.length_append, List.length_singleton, UInt64.toNat_add, inv.count]
    exact Nat.mod_eq_of_lt (by simp; omega)
  · intro t mem
    rcases List.mem_append.mp mem with old | new
    · exact inv.ready t old
    · rw [List.mem_singleton.mp new]
      exact ready
  · rw [pids, List.nodup_append]
    refine ⟨inv.distinct, List.nodup_singleton _, ?_⟩
    intro p old q new same
    rw [List.mem_singleton.mp new] at same
    have := inv.issued p old
    rw [same, fresh] at this
    omega
  · intro p mem
    rw [pids] at mem
    rcases List.mem_append.mp mem with old | new
    · exact Nat.le_succ_of_le (inv.issued p old)
    · rw [List.mem_singleton.mp new]
      exact Nat.le_of_eq fresh
  · exact inv.next_succ
  · rw [pids, List.length_append, List.length_singleton]
    omega

/-- A pid handed out with no task: `spawn_with_address_space` on an error. -/
theorem skip (inv : Invariant n s) : Invariant (n + 1) { s with nextPid := s.nextPid + 1 } where
  count := inv.count
  ready := inv.ready
  distinct := inv.distinct
  issued := fun p mem => Nat.le_succ_of_le (inv.issued p mem)
  next := inv.next_succ
  bound := Nat.le_succ_of_le inv.bound
  fresh := fun succ => absurd succ (Nat.succ_ne_zero n)

/-- With no current task, the queue's head becomes current as it is. -/
theorem start (inv : Invariant n s) (idle : s.current = none) :
    Invariant n (match s.readyQueue with
      | next :: rest => { s with current := some next, readyQueue := rest }
      | [] => s) := by
  cases queue : s.readyQueue with
  | nil => exact inv
  | cons next rest =>
    have pids : ({ s with current := some next, readyQueue := rest } : Scheduler τ).pids = s.pids := by
      simp [Scheduler.pids, tasks, idle, queue]
    refine ⟨pids ▸ inv.count, ?_, pids ▸ inv.distinct, pids ▸ inv.issued, inv.next, pids ▸ inv.bound, ?_⟩
    · intro t mem
      exact inv.ready t (by rw [queue]; exact List.mem_cons_of_mem next mem)
    · intro zero
      rw [inv.fresh zero] at queue
      cases queue

/-- The current task goes to the back of the queue, as ready, and the
queue's head runs. -/
theorem requeue (inv : Invariant n s) {c : Pcb τ} (running : s.current = some c) :
    Invariant n (pickNext { s with current := none, readyQueue := s.readyQueue ++ [{ c with state := .ready }] }) := by
  let queued : Scheduler τ := { s with current := none, readyQueue := s.readyQueue ++ [{ c with state := .ready }] }
  -- the same pids, the current one moved to the back
  have perm : (pickNext queued).pids.Perm s.pids := by
    rw [pickNext_pids queued rfl, pids_of_current_some s running]
    show ((s.readyQueue ++ [{ c with state := .ready }]).map Pcb.pid).Perm _
    rw [List.map_append, List.map_singleton]
    exact List.perm_append_singleton c.pid (s.readyQueue.map Pcb.pid)
  refine ⟨?_, ?_, perm.nodup_iff.mpr inv.distinct, fun p mem => inv.issued p (perm.subset mem), ?_,
    perm.length_eq ▸ inv.bound, ?_⟩
  · rw [pickNext_taskCount, perm.length_eq]
    exact inv.count
  · intro t mem
    rw [pickNext_readyQueue] at mem
    rcases List.mem_append.mp (List.mem_of_mem_tail mem) with old | moved
    · exact inv.ready t old
    · rw [List.mem_singleton.mp moved]
  · rw [pickNext_nextPid]
    exact inv.next
  · intro zero
    rw [pickNext_readyQueue]
    show (s.readyQueue ++ [{ c with state := .ready }]).tail = []
    rw [inv.fresh zero]
    rfl

/-- A terminated current task is dropped and counted out, and the queue's
head runs. -/
theorem drop (inv : Invariant n s) {c : Pcb τ} (running : s.current = some c) :
    Invariant n (pickNext { s with current := none, taskCount := s.taskCount - 1 }) := by
  have after : (pickNext { s with current := none, taskCount := s.taskCount - 1 }).pids =
      s.readyQueue.map Pcb.pid :=
    pickNext_pids { s with current := none, taskCount := s.taskCount - 1 } rfl
  have before := pids_of_current_some s running
  have sub : (pickNext { s with current := none, taskCount := s.taskCount - 1 }).pids.Sublist s.pids := by
    rw [after, before]
    exact List.sublist_cons_self _ _
  have length : (pickNext { s with current := none, taskCount := s.taskCount - 1 }).pids.length + 1 =
      s.pids.length := by
    rw [after, before, List.length_cons]
  refine ⟨?_, ?_, inv.distinct.sublist sub, fun p mem => inv.issued p (sub.subset mem), ?_, ?_, ?_⟩
  · rw [pickNext_taskCount]
    show (s.taskCount - 1).toNat = _
    have counted := inv.count
    have positive : 1 ≤ s.taskCount.toNat := by omega
    rw [UInt64.toNat_sub_of_le _ _ (by rw [UInt64.le_iff_toNat_le]; simpa using positive), UInt64.toNat_one]
    omega
  · intro t mem
    rw [pickNext_readyQueue] at mem
    exact inv.ready t (List.mem_of_mem_tail mem)
  · rw [pickNext_nextPid]
    exact inv.next
  · have := inv.bound
    omega
  · intro zero
    rw [pickNext_readyQueue]
    show s.readyQueue.tail = []
    rw [inv.fresh zero]
    rfl

theorem schedule (inv : Invariant n s) : Invariant n s.schedule := by
  unfold Scheduler.schedule
  cases current : s.current with
  | none => exact inv.start current
  | some c =>
    dsimp only
    -- `Running`, `Blocked` and the rest are requeued; `Terminated` is dropped
    cases state : c.state with
    | running => exact inv.requeue current
    | ready => exact inv.requeue current
    | blocked => exact inv.requeue current
    | terminated => exact inv.drop current

theorem markAndSchedule (inv : Invariant n s) (state : TaskState) : Invariant n (s.markAndSchedule state) := by
  let marked : Scheduler τ := { s with current := s.current.map ({ · with state := state }) }
  have pids : marked.pids = s.pids := by
    cases current : s.current with
    | none => simp [marked, Scheduler.pids, tasks, current]
    | some c => simp [marked, Scheduler.pids, tasks, current]
  have kept : Invariant n marked :=
    ⟨pids ▸ inv.count, inv.ready, pids ▸ inv.distinct, pids ▸ inv.issued, inv.next, pids ▸ inv.bound, inv.fresh⟩
  exact kept.schedule

/-- One operation: `init` only before any pid is handed out, and a spawn
only while pids are left. -/
theorem step (inv : Invariant n s) (op : Op τ) (initFirst : op.isInit → n = 0)
    (room : op.takesPid → n + 1 < 2 ^ 32) :
    Invariant (n + if op.takesPid then 1 else 0) (step s op) := by
  cases op with
  | init =>
    obtain rfl := initFirst rfl
    exact inv.init
  | spawn name => exact inv.push (room rfl) _ rfl rfl
  | spawnWithAddressSpace name created =>
    cases created with
    | error msg => exact inv.skip
    | ok space => exact inv.push (room rfl) _ rfl rfl
  | schedule => exact inv.schedule
  | yieldTask => exact inv.markAndSchedule .ready
  | blockCurrent => exact inv.markAndSchedule .blocked
  | terminateCurrent => exact inv.markAndSchedule .terminated

/-- A run that hands out no pid keeps the invariant at 0. -/
theorem foldl_noPids (inv : Invariant 0 s) (ops : List (Op τ)) (noPids : ∀ op ∈ ops, op.takesPid = false) :
    Invariant 0 (ops.foldl OspabOs.Task.step s) :=
  Machine.foldl_invariant_of_forall (Invariant 0) (fun op => op.takesPid = false)
    (fun s op taken inv => by simpa [taken] using inv.step op (fun _ => rfl) (fun taking => by simp_all))
    inv ops noPids

/-- A run with no `init` keeps the invariant, counting the pids it hands out. -/
theorem foldl_noInit (inv : Invariant n s) (ops : List (Op τ)) (noInit : ∀ op ∈ ops, op.isInit = false)
    (room : n + ops.countP Op.takesPid < 2 ^ 32) :
    Invariant (n + ops.countP Op.takesPid) (ops.foldl OspabOs.Task.step s) := by
  induction ops generalizing n s with
  | nil => exact inv
  | cons op ops ih =>
    have first := inv.step op (fun isInit => by simp [noInit op (List.mem_cons_self)] at isInit)
      (fun taking => by simp [taking] at room; omega)
    have rest := ih first (fun op' mem => noInit op' (List.mem_cons_of_mem op mem))
      (by simp only [List.countP_cons] at room; split <;> split at room <;> omega)
    rw [List.foldl_cons, List.countP_cons]
    split
    · next taking =>
      simpa [taking, Nat.add_assoc, Nat.add_comm 1] using rest
    · next skipping =>
      simpa [skipping] using rest

end Invariant

/-- `k` spawns append the tasks with the next `k` pids, wrapping. -/
theorem foldl_replicate_spawn (s : Scheduler τ) (name : List Char) (k : Nat) :
    let s' := (List.replicate k (Op.spawn name)).foldl step s
    s'.current = s.current ∧ s'.nextPid = s.nextPid + k.toUInt32 ∧
      s'.readyQueue.map Pcb.pid = s.readyQueue.map Pcb.pid ++ (List.range k).map (fun i => s.nextPid + i.toUInt32) := by
  induction k with
  | zero => simp
  | succ k ih =>
    obtain ⟨current, next, queue⟩ := ih
    rw [List.replicate_succ', List.foldl_append, List.foldl_cons, List.foldl_nil]
    refine ⟨current, ?_, ?_⟩
    · show _ + 1 = _
      rw [next, UInt32.add_assoc]
      congr 1
      simp
    · show (_ ++ [Pcb.new _ name]).map Pcb.pid = _
      rw [List.map_append, queue, next, List.range_succ, List.map_append, List.append_assoc]
      rfl

end OspabOs.Task
