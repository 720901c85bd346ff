import BengalTiger.Common
import BengalTiger.Lib.Allocator
import Mathlib.Data.Finset.Basic

set_option autoImplicit false

/-!
# The task scheduler

The task list and the round-robin scheduler of `kernel/scheduler.c`, with the exit system call of
`kernel/isr.c`. Tasks are objects in heap blocks, except the static `kernel_task`; a pointer to a
block that was freed leads nowhere. The heap is any allocator with the laws of `Allocator`.

Every function returns an option: `none` is a run that dereferences a pointer to no object, frees
a block that is not allocated, or loops longer than any list of `MAX_TASKS` tasks.

The saved register frame of a task is represented by its address; the words that `task_create`
writes on the new stack, the page directory field and the log line are left out.

## Main definitions

* `Sched.Task`, `Sched.State`.
* `Sched.taskCreate`, `taskKill`, `taskExit`, `sysExit`, `schedulerSchedule`,
  `schedulerTick`.
-/

namespace BengalTiger.Sched

/-- The `TASK_STATE_*` values. -/
inductive TaskState
  | ready
  | running
  | waiting
  | blocked
  | zombie
  deriving DecidableEq, Repr

/-- A `task_t *`. -/
inductive Ptr
  | null
  | kernelTask
  | heap (addr : ℕ)
  deriving DecidableEq, Repr

/-- `task_t`. -/
structure Task where
  id : ℕ
  name : List UInt8
  state : TaskState
  cpuTicks : ℕ
  regsPtr : ℕ
  stackBase : ℕ
  next : Ptr
  prev : Ptr

/-- `MAX_TASKS`. -/
def maxTasks : ℕ := 64

/-- `STACK_SIZE`. -/
def stackSize : ℕ := 8192

/-- `sizeof(task_t)` on i386. -/
def sizeofTask : ℕ := 64

/-- The bound on the walks along the task list. -/
def loopBound : ℕ := maxTasks + 1

/-- The static variables of `scheduler.c`, the heap and the task objects in it. `owned` are the
blocks that the scheduler got from the heap and did not give back, which the C code does not
store. -/
structure State (M : Allocator) where
  heap : M.State
  owned : Finset ℕ
  tasks : ℕ → Option Task
  kernelTask : Task
  currentTask : Ptr
  taskHead : Ptr
  nextPid : ℕ
  tick : ℕ

namespace State

variable {M : Allocator}

/-- The object behind a pointer. -/
def get (s : State M) : Ptr → Option Task
  | .null => none
  | .kernelTask => some s.kernelTask
  | .heap a => s.tasks a

/-- Store an object behind a pointer. -/
def put (s : State M) (p : Ptr) (t : Task) : State M :=
  match p with
  | .null => s
  | .kernelTask => { s with kernelTask := t }
  | .heap a => { s with tasks := Function.update s.tasks a (some t) }

/-- An assignment to fields of `*p`. -/
def modify (s : State M) (p : Ptr) (f : Task → Task) : Option (State M) :=
  (s.get p).map fun t => s.put p (f t)

/-- `kzalloc(n)`. -/
def kzalloc (s : State M) (n : ℕ) : State M × ℕ :=
  ({ s with
      heap := (M.alloc s.heap n).1
      owned := if (M.alloc s.heap n).2 = 0 then s.owned else insert (M.alloc s.heap n).2 s.owned },
    (M.alloc s.heap n).2)

/-- `kfree(ptr)`: the object in the block, if any, is gone. -/
def kfree (s : State M) (ptr : ℕ) : Option (State M) :=
  if ptr = 0 then some s
  else if ptr ∈ s.owned then
    some { s with
      heap := M.free s.heap ptr
      owned := s.owned.erase ptr
      tasks := Function.update s.tasks ptr none }
  else none

/-- `kfree(p)` for a task pointer; the static task is not a heap block. -/
def kfreeTask (s : State M) : Ptr → Option (State M)
  | .null => some s
  | .kernelTask => none
  | .heap a => s.kfree a

end State

variable {M : Allocator}

/-- `scheduler_init`. The name is "kernel". -/
def schedulerInit (s : State M) : State M :=
  { s with
    kernelTask :=
      { id := 0
        name := "kernel".toUTF8.toList
        state := .running
        cpuTicks := 0
        regsPtr := 0
        stackBase := 0
        next := .kernelTask
        prev := .kernelTask }
    currentTask := .kernelTask
    taskHead := .kernelTask
    nextPid := 1 }

/-- The loop of `scheduler_get_task_list`. -/
def countTasks (s : State M) : ℕ → Ptr → ℕ → Option ℕ
  | 0, _, _ => none
  | fuel + 1, curr, c =>
    (s.get curr).bind fun t =>
      if t.next = s.taskHead then some (c + 1) else countTasks s fuel t.next (c + 1)

/-- `scheduler_get_task_list`: the number of tasks. -/
def schedulerGetTaskList (s : State M) : Option ℕ :=
  if s.taskHead = .null then some 0 else countTasks s loopBound s.taskHead 0

/-- The address of the initial register frame: 18 words below the aligned top of the stack. -/
def initialFrame (stack : ℕ) : ℕ := sub32 (alignDown (u32 (stack + stackSize)) 16) 72

/-- The object that `task_create` fills in before it links it. -/
def newTask (s : State M) (name : Option (List UInt8)) (stack : ℕ) : Task :=
  { id := s.nextPid
    name := (name.getD "thread".toUTF8.toList).take 31
    state := .ready
    cpuTicks := 0
    regsPtr := initialFrame stack
    stackBase := stack
    next := .null
    prev := .null }

/-- `t->next = task_head; t->prev = task_head->prev; task_head->prev->next = t;
task_head->prev = t`. -/
def linkTail (s : State M) (t : Ptr) : Option (State M) :=
  (s.modify t fun x => { x with next := s.taskHead }).bind fun s =>
  (s.get s.taskHead).bind fun h =>
  (s.modify t fun x => { x with prev := h.prev }).bind fun s =>
  (s.get s.taskHead).bind fun h =>
  (s.modify h.prev fun x => { x with next := t }).bind fun s =>
  s.modify s.taskHead fun x => { x with prev := t }

/-- `task_create` once both blocks are there. -/
def installTask (s : State M) (name : Option (List UInt8)) (t stack : ℕ) :
    Option (State M × Ptr) :=
  (linkTail ({ s with nextPid := u32 (s.nextPid + 1) }.put (.heap t) (newTask s name stack))
    (.heap t)).map fun s => (s, .heap t)

/-- `task_create` after the count was checked. -/
def allocTask (s : State M) (name : Option (List UInt8)) : Option (State M × Ptr) :=
  if (s.kzalloc sizeofTask).2 = 0 then some ((s.kzalloc sizeofTask).1, .null)
  else if ((s.kzalloc sizeofTask).1.kzalloc stackSize).2 = 0 then
    (((s.kzalloc sizeofTask).1.kzalloc stackSize).1.kfree (s.kzalloc sizeofTask).2).map
      fun s => (s, .null)
  else
    installTask ((s.kzalloc sizeofTask).1.kzalloc stackSize).1 name (s.kzalloc sizeofTask).2
      ((s.kzalloc sizeofTask).1.kzalloc stackSize).2

/-- `task_create`: the state and the pointer returned. -/
def taskCreate (s : State M) (name : Option (List UInt8)) (entryPoint : ℕ) :
    Option (State M × Ptr) :=
  if entryPoint = 0 ∨ s.taskHead = .null then some (s, .null)
  else
    (schedulerGetTaskList s).bind fun count =>
      if count ≥ maxTasks then some (s, .null) else allocTask s name

/-- `task_exit` up to its call of `scheduler_yield`; the kernel task halts instead. -/
def taskExit (s : State M) : Option (State M) :=
  if s.currentTask = .null then some s
  else
    (s.get s.currentTask).bind fun cur =>
      if cur.id = 0 then some s
      else s.modify s.currentTask fun x => { x with state := .zombie }

/-- The loop of `task_kill`. -/
def killFrom (s : State M) (pid : ℕ) : ℕ → Ptr → Option (State M × ℤ)
  | 0, _ => none
  | fuel + 1, t =>
    (s.get t).bind fun x =>
      if x.id = pid ∧ x.state ≠ .zombie then
        (s.modify t fun x => { x with state := .zombie }).map fun s => (s, 0)
      else if x.next = s.taskHead then some (s, -1)
      else killFrom s pid fuel x.next

/-- `task_kill`. -/
def taskKill (s : State M) (pid : ℕ) : Option (State M × ℤ) :=
  if pid = 0 then some (s, -1)
  else if s.taskHead = .null then some (s, -1)
  else killFrom s pid loopBound s.taskHead

/-- The body of the reaping loop for a zombie: unlink it and free its two blocks. -/
def unlinkFree (s : State M) (curr : Ptr) : Option (State M) :=
  (s.get curr).bind fun x =>
  (s.modify x.prev fun y => { y with next := x.next }).bind fun s =>
  (s.get curr).bind fun x =>
  (s.modify x.next fun y => { y with prev := x.prev }).bind fun s =>
  (s.get curr).bind fun x =>
  (if x.stackBase ≠ 0 then s.kfree x.stackBase else some s).bind fun s =>
  s.kfreeTask curr

/-- The reaping loop of `scheduler_schedule`. -/
def reap : ℕ → State M → Ptr → Option (State M)
  | 0, _, _ => none
  | fuel + 1, s, curr =>
    if curr = s.taskHead then some s
    else
      (s.get curr).bind fun x =>
        if x.state = .zombie ∧ curr ≠ s.currentTask then
          (unlinkFree s curr).bind fun s => reap fuel s x.next
        else reap fuel s x.next

/-- The selection loop of `scheduler_schedule`. -/
def selectFrom (s : State M) : ℕ → Ptr → Option Ptr
  | 0, _ => none
  | fuel + 1, p =>
    if p = s.currentTask then some p
    else
      (s.get p).bind fun x =>
        if x.state ≠ .ready ∧ x.state ≠ .running then selectFrom s fuel x.next else some p

/-- The end of `scheduler_schedule`: make `p` the current task. -/
def switchTo (s : State M) (p : Ptr) : Option (State M) :=
  if p ≠ s.currentTask then
    (s.modify s.currentTask fun x =>
      if x.state = .running then { x with state := .ready } else x).bind fun s =>
    { s with currentTask := p }.modify p fun x => { x with state := .running }
  else some s

/-- The selection of `scheduler_schedule`, with its fallback to the kernel task. -/
def nextTask (s : State M) : Option Ptr :=
  (s.get s.currentTask).bind fun cur =>
  (selectFrom s loopBound cur.next).map fun p =>
    if p = s.currentTask ∧ cur.state ≠ .running ∧ cur.state ≠ .ready then .kernelTask else p

/-- `scheduler_schedule`: the state and the register frame to continue with. -/
def schedulerSchedule (s : State M) (r : ℕ) : Option (State M × ℕ) :=
  if s.currentTask = .null ∨ s.taskHead = .null then some (s, r)
  else
    (s.modify s.currentTask fun x => { x with regsPtr := r }).bind fun s =>
    (s.get s.taskHead).bind fun h =>
    (reap loopBound s h.next).bind fun s =>
    (nextTask s).bind fun p =>
    (switchTo s p).bind fun s =>
    (s.get s.currentTask).map fun cur => (s, cur.regsPtr)

/-- `scheduler_tick`. -/
def schedulerTick (s : State M) (r : ℕ) : Option (State M × ℕ) :=
  if s.currentTask = .null then schedulerSchedule { s with tick := u32 (s.tick + 1) } r
  else
    ({ s with tick := u32 (s.tick + 1) }.modify s.currentTask fun x =>
      { x with cpuTicks := u32 (x.cpuTicks + 1) }).bind fun s => schedulerSchedule s r

/-- `syscall_handler` for `SYS_EXIT`. -/
def sysExit (s : State M) (r : ℕ) : Option (State M × ℕ) :=
  if s.currentTask = .null then some (s, r)
  else
    (s.get s.currentTask).bind fun cur =>
      if cur.id ≠ 0 then
        (s.modify s.currentTask fun x => { x with state := .zombie }).bind fun s =>
          schedulerSchedule s r
      else some (s, r)

end BengalTiger.Sched
