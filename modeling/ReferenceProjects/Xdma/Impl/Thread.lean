import ReferenceProjects.Xdma.Impl.Cdev

/-!
This module contains the completion threads of the poll mode: `xdma_threads_create()` and
`xdma_threads_destroy()`, how engines are attached to a thread and detached from it, and the loop of
`xthread_main()`.
-/

namespace Xdma

/-- `struct xdma_kthread`; the callbacks are set together, the engines of `work_list` are numbered. -/
structure XdmaKthread where
  cpu : Nat
  callbacks : Bool
  task : Bool
  schedule : Bool
  workCnt : Nat
  workList : List Nat
  deriving DecidableEq, Repr

/-- An entry of the array that `kzalloc()` returns. -/
def XdmaKthread.zero : XdmaKthread := ⟨0, false, false, false, 0, []⟩

/--
The globals `cs_threads`, with the number of entries it was allocated for, and `thread_cnt`, and
`engine->cmplthp` as the index of a thread. `running` has the entries that a kernel thread runs
`xthread_main()` with, `stops` those that `kthread_stop()` was called for, the latest first.
-/
structure Kthreads where
  csThreads : Option Nat
  thp : Nat → XdmaKthread
  threadCnt : Nat
  cmplthp : Nat → Option Nat
  running : List Nat
  stops : List Nat

def Kthreads.init : Kthreads := ⟨none, fun _ => .zero, 0, fun _ => none, [], []⟩

def Kthreads.setThp (s : Kthreads) (i : Nat) (thp : XdmaKthread) : Kthreads :=
  { s with thp := Function.update s.thp i thp }

/-- `xdma_kthread_start()`; `created` is the success of `kthread_create_on_node()`. -/
def xdmaKthreadStart (s : Kthreads) (i : Nat) (created : Bool) : Kthreads × Int :=
  if (s.thp i).task then
    (s, -einval)
  else
    let s := s.setThp i { s.thp i with workList := [] }
    if created then
      ({ s.setThp i { s.thp i with task := true } with running := i :: s.running }, 0)
    else
      (s, -efault)

/-- `xdma_kthread_stop()`: a thread that is told to stop ends, whatever it returns. -/
def xdmaKthreadStop (s : Kthreads) (i : Nat) (rv : Int) : Kthreads :=
  if !(s.thp i).task then
    s
  else
    let s := s.setThp i { s.thp i with schedule := true }
    let s := { s with running := s.running.erase i, stops := i :: s.stops }
    if rv < 0 then s else s.setThp i { s.thp i with task := false }

/-- `for_each_online_cpu()` of `xdma_threads_create()`, where `thp` is `&cs_threads[i]`. -/
def threadsCreateLoop (numThreads : Nat) (created : Nat → Bool) : (cpus : List Nat) → (i : Nat)
    → Kthreads → Kthreads × Int
  | [], _, s => (s, 0)
  | cpu :: cpus, i, s =>
    let s := s.setThp i { s.thp i with cpu := cpu, callbacks := true }
    let (s, rv) := xdmaKthreadStart s i (created i)
    if rv < 0 then
      -- cleanup_threads
      ({ s with csThreads := none, threadCnt := 0 }, rv)
    else
      let s := { s with threadCnt := s.threadCnt + 1 }
      if s.threadCnt = numThreads then
        (s, 0)
      else
        threadsCreateLoop numThreads created cpus (i + 1) s

/-- What `xdma_threads_create()` finds: the processors, and what the kernel has memory for. -/
structure CreateEnv where
  kzalloc : Bool
  cpus : List Nat
  created : Nat → Bool

/-- `xdma_threads_create()` -/
def xdmaThreadsCreate (k : CreateEnv) (numThreads : Nat) (s : Kthreads) : Kthreads × Int :=
  if s.threadCnt ≠ 0 then
    -- threads already created
    (s, 0)
  else if !k.kzalloc then
    ({ s with csThreads := none }, -enomem)
  else
    let s := { s with csThreads := some numThreads, thp := fun _ => .zero }
    threadsCreateLoop numThreads k.created k.cpus 0 s

/-- The loop of `xdma_threads_destroy()`; `rv` is what `kthread_stop()` returns for each thread. -/
def threadsDestroyLoop (rv : Nat → Int) : (n i : Nat) → Kthreads → Kthreads
  | 0, _, s => s
  | n + 1, i, s =>
    threadsDestroyLoop rv n (i + 1) (if (s.thp i).callbacks then xdmaKthreadStop s i (rv i) else s)

/-- `xdma_threads_destroy()` -/
def xdmaThreadsDestroy (rv : Nat → Int) (s : Kthreads) : Kthreads :=
  if s.threadCnt = 0 then
    s
  else
    { threadsDestroyLoop rv s.threadCnt 0 s with csThreads := none, threadCnt := 0 }

/-- The first device of the driver creates the threads, the last one destroys them. -/
inductive KthreadsEvent where
  | create (k : CreateEnv) (numThreads : Nat)
  | destroy (rv : Nat → Int)

def Kthreads.step (s : Kthreads) : KthreadsEvent → Option Kthreads
  | .create k numThreads => some (xdmaThreadsCreate k numThreads s).1
  | .destroy rv => some (xdmaThreadsDestroy rv s)

/-- The loop of `xdma_thread_add_work()` over the threads from `i` on, with its `idx` and `v`. -/
def addWorkLoop (workCnt : Nat → Nat) (threadCnt : Nat) : (n i idx v : Nat) → Nat
  | 0, _, idx, _ => idx
  | n + 1, i, idx, v =>
    if idx = threadCnt then
      addWorkLoop workCnt threadCnt n (i + 1) i (workCnt i)
    else if workCnt i = 0 then
      i
    else if workCnt i < v then
      -- only the index moves on, `v` stays the count of the first thread
      addWorkLoop workCnt threadCnt n (i + 1) i v
    else
      addWorkLoop workCnt threadCnt n (i + 1) idx v

/-- The thread that `xdma_thread_add_work()` picks. -/
def addWorkIdx (s : Kthreads) : Nat :=
  addWorkLoop (fun i => (s.thp i).workCnt) s.threadCnt s.threadCnt 0 s.threadCnt 0

/-- `xdma_thread_add_work()` -/
def xdmaThreadAddWork (s : Kthreads) (engine : Nat) : Kthreads :=
  let idx := addWorkIdx s
  let thp := s.thp idx
  let s := s.setThp idx
    { thp with workList := thp.workList ++ [engine], workCnt := thp.workCnt + 1 }
  { s with cmplthp := Function.update s.cmplthp engine (some idx) }

/-- `xdma_thread_remove_work()` -/
def xdmaThreadRemoveWork (s : Kthreads) (engine : Nat) : Kthreads :=
  let cmplThread := s.cmplthp engine
  let s := { s with cmplthp := Function.update s.cmplthp engine none }
  match cmplThread with
  | none => s
  | some idx =>
    let thp := s.thp idx
    s.setThp idx { thp with workList := thp.workList.erase engine, workCnt := thp.workCnt - 1 }

/-- `engine_init()` attaches an engine that it made, `engine_destroy()` detaches it. -/
inductive WorkEvent where
  | addWork (engine : Nat)
  | removeWork (engine : Nat)
  deriving DecidableEq, Repr

/-- An engine is attached once only: `engine_init()` is for engines that there were not before. -/
def Kthreads.work (s : Kthreads) : WorkEvent → Option Kthreads
  | .addWork engine => if s.cmplthp engine = none then some (xdmaThreadAddWork s engine) else none
  | .removeWork engine => some (xdmaThreadRemoveWork s engine)

/-- Where a completion thread is in `xthread_main()`, with the engines that it has not been to. -/
inductive XthreadPc where
  /-- before `xthread_work_pending()` -/
  | top
  /-- in its loop -/
  | pending (rest : List Nat)
  /-- in `xthread_reschedule()` -/
  | reschedule
  /-- in the loop that calls `fproc` -/
  | process (rest : List Nat)
  deriving DecidableEq, Repr

/--
One completion thread with the engines on it, their queues of transfers, and the calls of `fproc` with the
count that each one handed to `engine_service_poll()`, the latest first. `head` is what the place of
`desc_cmpl_th` has in a transfer that begins at the head of the list of an engine.
-/
structure Xthread where
  thp : XdmaKthread
  pc : XthreadPc
  transferList : Nat → List XdmaTransfer
  head : Nat → Nat
  calls : List (Nat × Nat)

/-- `transfer->desc_cmpl_th` in `xdma_thread_cmpl_status_proc()`: `list_entry()` is never `NULL`. -/
def Xthread.descCmplTh (s : Xthread) (engine : Nat) : Nat :=
  match s.transferList engine with
  | [] => s.head engine
  | transfer :: _ => transfer.descCmplTh

def Xthread.setQueue (s : Xthread) (engine : Nat) (queue : List XdmaTransfer) : Xthread :=
  { s with transferList := Function.update s.transferList engine queue }

/-- The thread lock is not held. -/
def XthreadPc.unlocked : XthreadPc → Bool
  | .top | .reschedule => true
  | .pending _ | .process _ => false

inductive XthreadEvent where
  /-- the next step of the thread -/
  | thread
  /-- `fproc` for the next engine, whose service unlinks some transfers -/
  | fproc (unlinked : Nat)
  /-- `xdma_kthread_wakeup()` -/
  | wakeup
  /-- a submission puts a transfer on the queue of an engine -/
  | queue (engine : Nat) (transfer : XdmaTransfer)
  /-- anybody else takes one off, as `transfer_abort()` does -/
  | unlink (engine i : Nat)
  /-- the thread gets an engine to work for -/
  | addWork (engine : Nat)
  | removeWork (engine : Nat)

/-- `thp->schedule = 0` and `if (thp->work_cnt)` before the loop over the work items -/
def Xthread.enter (s : Xthread) : Xthread :=
  { s with
      thp := { s.thp with schedule := false }
      pc := if s.thp.workCnt = 0 then .top else .process s.thp.workList
  }

/-- The steps of the thread itself. -/
def Xthread.stepThread (s : Xthread) : Option Xthread :=
  match s.pc with
  | .top => some { s with pc := .pending s.thp.workList }
  | .pending [] => some { s with pc := .reschedule }
  | .pending (engine :: rest) =>
    some (if s.transferList engine ≠ [] then s.enter else { s with pc := .pending rest })
  | .reschedule => if s.thp.schedule then some s.enter else none
  | .process [] => some { s with pc := .top }
  | .process (_ :: _) => none

def Xthread.step (s : Xthread) : XthreadEvent → Option Xthread
  | .thread => s.stepThread
  | .fproc unlinked =>
    match s.pc with
    | .process (engine :: rest) =>
      let calls := (engine, s.descCmplTh engine) :: s.calls
      some { s.setQueue engine ((s.transferList engine).drop unlinked) with
        pc := .process rest, calls := calls }
    | _ => none
  | .wakeup => some { s with thp := { s.thp with schedule := true } }
  | .queue engine transfer => some (s.setQueue engine (s.transferList engine ++ [transfer]))
  | .unlink engine i => some (s.setQueue engine ((s.transferList engine).eraseIdx i))
  | .addWork engine =>
    if s.pc.unlocked && !s.thp.workList.contains engine then
      some { s with
        thp := { s.thp with
          workList := s.thp.workList ++ [engine]
          workCnt := s.thp.workCnt + 1 } }
    else
      none
  | .removeWork engine =>
    if s.pc.unlocked && s.thp.workList.contains engine then
      some { s with
        thp := { s.thp with
          workList := s.thp.workList.erase engine
          workCnt := s.thp.workCnt - 1 } }
    else
      none

/-- A thread as `xdma_kthread_start()` leaves it, with engines that have nothing queued. -/
def Xthread.init (head : Nat → Nat) : Xthread :=
  ⟨{ XdmaKthread.zero with callbacks := true, task := true }, .top, fun _ => [], head, []⟩

end Xdma
