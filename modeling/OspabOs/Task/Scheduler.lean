import OspabOs.Mem.Vmm
import OspabOs.Lib.Machine

/-!
# The round-robin scheduler

`task::scheduler::Scheduler` keeps the running task (`current`), a FIFO
`ready_queue`, the next pid to hand out (a `u32`, wrapping) and a
`task_count` (a `usize`, wrapping) kept by hand. Its operations are
`init` (the idle task, pid 0, becomes current), `spawn` and
`spawn_with_address_space` (a task with the next pid joins the queue),
`schedule` (`timer_tick`: the current task goes to the back of the queue,
or is dropped when it has terminated, and the queue's head runs), and
`yield_task`, `block_current` and `terminate_current`, which set the
current task's state and schedule.

Tasks are the fields of `ProcessControlBlock` that the scheduler writes or
reads: pid, state, name, page table and address space. The address space
comes from the VMM of `Mem.Vmm`; `spawn_with_address_space` is given what
the VMM answered (`Err("VMM not initialized")` before `vmm::init`).
-/

namespace OspabOs.Task

open Mem

/-- `TaskState`. -/
inductive TaskState where
  | running
  | ready
  | blocked
  | terminated
  deriving DecidableEq, Repr

/-- `ProcessControlBlock`, as far as the scheduler goes. -/
structure Pcb (τ : Type) where
  pid : UInt32
  state : TaskState
  name : List Char
  pageTable : UInt64
  addressSpace : Option (AddressSpace τ)

variable {τ : Type}

/-- `ProcessControlBlock::new`: ready, on the kernel page table. -/
def Pcb.new (pid : UInt32) (name : List Char) : Pcb τ where
  pid := pid
  state := .ready
  name := name
  pageTable := 0
  addressSpace := none

/-- `ProcessControlBlock::new_idle`. -/
def Pcb.newIdle : Pcb τ := Pcb.new 0 "idle".toList

/-- `Scheduler`. -/
structure Scheduler (τ : Type) where
  current : Option (Pcb τ)
  readyQueue : List (Pcb τ)
  nextPid : UInt32
  taskCount : UInt64

namespace Scheduler

/-- `Scheduler::new`. -/
def new : Scheduler τ where
  current := none
  readyQueue := []
  nextPid := 1
  taskCount := 0

/-- `Scheduler::init`: the idle task runs, and is the only task counted. -/
def init (s : Scheduler τ) : Scheduler τ :=
  { s with current := some Pcb.newIdle, taskCount := 1 }

/-- `Scheduler::spawn`. -/
def spawn (s : Scheduler τ) (name : List Char) : UInt32 × Scheduler τ :=
  let pid := s.nextPid
  (pid, { s with nextPid := s.nextPid + 1, readyQueue := s.readyQueue ++ [Pcb.new pid name],
                 taskCount := s.taskCount + 1 })

/-- The end of `schedule`: the head of the queue, if any, runs. -/
def pickNext (s : Scheduler τ) : Scheduler τ :=
  match s.readyQueue with
  | next :: rest => { s with current := some { next with state := .running }, readyQueue := rest }
  | [] => s

/-- `Scheduler::schedule`. With no current task the queue's head becomes
current as it is; otherwise the current task is requeued as ready, unless
it terminated, and the queue's head runs. -/
def schedule (s : Scheduler τ) : Scheduler τ :=
  match s.current with
  | none =>
    match s.readyQueue with
    | next :: rest => { s with current := some next, readyQueue := rest }
    | [] => s
  | some current =>
    let s := { s with current := none }
    let (shouldRequeue, s) :=
      match current.state with
      | .running => (true, s)
      | .terminated => (false, { s with taskCount := s.taskCount - 1 })
      | .blocked => (true, s)
      | _ => (true, s)
    let s := if shouldRequeue then { s with readyQueue := s.readyQueue ++ [{ current with state := .ready }] } else s
    pickNext s

/-- Set the current task's state and schedule: the body of `yield_task`,
`block_current` and `terminate_current`. -/
def markAndSchedule (s : Scheduler τ) (state : TaskState) : Scheduler τ :=
  schedule { s with current := s.current.map ({ · with state := state }) }

/-- `Scheduler::yield_task`. -/
def yieldTask (s : Scheduler τ) : Scheduler τ := markAndSchedule s .ready

/-- `Scheduler::block_current`. -/
def blockCurrent (s : Scheduler τ) : Scheduler τ := markAndSchedule s .blocked

/-- `Scheduler::terminate_current`. -/
def terminateCurrent (s : Scheduler τ) : Scheduler τ := markAndSchedule s .terminated

/-- `Scheduler::spawn_with_address_space`, given the VMM's answer. The pid
is taken before the VMM is asked, so an error still uses one up. -/
def spawnWithAddressSpace (s : Scheduler τ) (name : List Char) (created : Except String (AddressSpace τ)) :
    Except String UInt32 × Scheduler τ :=
  let pid := s.nextPid
  let s := { s with nextPid := s.nextPid + 1 }
  match created with
  | .error msg => (.error msg, s)
  | .ok space =>
    let task : Pcb τ := { (Pcb.new pid name : Pcb τ) with addressSpace := some space, pageTable := space.cr3 }
    (.ok pid, { s with readyQueue := s.readyQueue ++ [task], taskCount := s.taskCount + 1 })

/-- Every task the scheduler holds: the current one, then the queue. -/
def tasks (s : Scheduler τ) : List (Pcb τ) := s.current.toList ++ s.readyQueue

end Scheduler

/-- The scheduler's operations, with what each is given. -/
inductive Op (τ : Type) where
  | init
  | spawn (name : List Char)
  | spawnWithAddressSpace (name : List Char) (created : Except String (AddressSpace τ))
  | schedule
  | yieldTask
  | blockCurrent
  | terminateCurrent

/-- The operations that take a pid. -/
def Op.takesPid : Op τ → Bool
  | .spawn _ => true
  | .spawnWithAddressSpace _ _ => true
  | _ => false

/-- `init`. -/
def Op.isInit : Op τ → Bool
  | .init => true
  | _ => false

open Scheduler in
/-- One operation on the scheduler. -/
def step (s : Scheduler τ) : Op τ → Scheduler τ
  | .init => s.init
  | .spawn name => (s.spawn name).2
  | .spawnWithAddressSpace name created => (s.spawnWithAddressSpace name created).2
  | .schedule => s.schedule
  | .yieldTask => s.yieldTask
  | .blockCurrent => s.blockCurrent
  | .terminateCurrent => s.terminateCurrent

end OspabOs.Task
