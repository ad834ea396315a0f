import Reckon.Service.Run

/-!
# The queue of ready threads

A thread that can run stands in the queue of ready threads exactly once, and no
other thread stands there. Workers without a job are an exception in one respect
only: a worker that has just become idle still runs, until it finds that it has
nothing to do. Such workers stand at the front, so whoever is given a job is
waiting for it. `Schedule` says this of the queue and of the parts of the server
that decide which threads can run.

A thread that stops running leaves the front of the queue, and one that is woken
joins its end. The lemmas say so for each kind of thread, without looking at the
rest of the server.
-/

namespace Reckon.Service

/-- The thread can run, to judge from the workers, the phases of acceptor and
dispatcher, and the closer. Each kind of thread keeps this in another place. -/
def CanRun (workers : List Worker) (acceptor dispatcher : Phase) (closer : Closer) : Thread → Prop
  | .worker index => ∃ worker, workers[index]? = some worker ∧ worker.phase = .ready
  | .acceptor => acceptor = .ready
  | .dispatcher => dispatcher = .ready
  | .closer => closer = .closing ∨ closer = .ordering

/-- The thread is a worker without a job. -/
def IsIdle (workers : List Worker) : Thread → Prop
  | .worker index => ∃ worker, workers[index]? = some worker ∧ worker.job = none
  | .acceptor => False
  | .dispatcher => False
  | .closer => False

/-- The queue of ready threads holds each thread that can run once, and idle
workers first. So when any other thread runs, all idle workers are waiting. -/
structure Schedule (ready : List Thread) (workers : List Worker) (acceptor dispatcher : Phase)
    (closer : Closer) : Prop where
  distinct : ready.Nodup
  runnable : ∀ thread, thread ∈ ready ↔ CanRun workers acceptor dispatcher closer thread
  idleFirst : ready.Pairwise fun first second => IsIdle workers second → IsIdle workers first

/-! ## A change of one worker -/

section Set

variable {workers : List Worker} {index : Nat} {worker : Worker}

theorem isIdle_set_of_ne (changed : Worker) {thread : Thread} (other : thread ≠ .worker index) :
    IsIdle (workers.set index changed) thread ↔ IsIdle workers thread := by
  cases thread with
  | worker position =>
    have different : index ≠ position := fun same => other (congrArg _ same.symm)
    simp only [IsIdle, List.getElem?_set_ne different]
  | acceptor => exact Iff.rfl
  | dispatcher => exact Iff.rfl
  | closer => exact Iff.rfl

/-- A change of one worker does not decide whether another thread can run. -/
theorem canRun_set_of_ne (acceptor dispatcher : Phase) (closer : Closer) (changed : Worker)
    {thread : Thread} (other : thread ≠ .worker index) :
    CanRun (workers.set index changed) acceptor dispatcher closer thread ↔
      CanRun workers acceptor dispatcher closer thread := by
  cases thread with
  | worker position =>
    have different : index ≠ position := fun same => other (congrArg _ same.symm)
    simp only [CanRun, List.getElem?_set_ne different]
  | acceptor => exact Iff.rfl
  | dispatcher => exact Iff.rfl
  | closer => exact Iff.rfl

theorem getElem?_set_of_found (found : workers[index]? = some worker) (changed : Worker) :
    (workers.set index changed)[index]? = some changed :=
  List.getElem?_set_self (List.getElem?_eq_some_iff.mp found).1

theorem isIdle_set_self (found : workers[index]? = some worker) (changed : Worker) :
    IsIdle (workers.set index changed) (.worker index) ↔ changed.job = none := by
  simp [IsIdle, getElem?_set_of_found found]

theorem canRun_set_self (found : workers[index]? = some worker) (acceptor dispatcher : Phase)
    (closer : Closer) (changed : Worker) :
    CanRun (workers.set index changed) acceptor dispatcher closer (.worker index) ↔
      changed.phase = .ready := by
  simp [CanRun, getElem?_set_of_found found]

/-- A worker that keeps its job, or the lack of one, is as idle as before,
whatever its phase is now. -/
theorem isIdle_set_iff (found : workers[index]? = some worker) (changed : Worker)
    (same : changed.job = worker.job) (thread : Thread) :
    IsIdle (workers.set index changed) thread ↔ IsIdle workers thread := by
  by_cases other : thread = .worker index
  · subst other
    rw [isIdle_set_self found, same]
    simp [IsIdle, found]
  · exact isIdle_set_of_ne changed other

end Set

namespace Schedule

variable {ready later : List Thread} {workers changed : List Worker} {acceptor dispatcher : Phase}
  {closer : Closer}

/-! ## Leaving and joining -/

/-- The running thread stops running, and nothing changes for the others. What
holds of the whole queue holds of what is left behind its front. -/
theorem thread_leaves {thread : Thread} {acceptor' dispatcher' : Phase} {closer' : Closer}
    (schedule : Schedule (thread :: later) workers acceptor dispatcher closer)
    (stopped : ¬CanRun changed acceptor' dispatcher' closer' thread)
    (others : ∀ other, other ≠ thread →
      (CanRun changed acceptor' dispatcher' closer' other ↔
        CanRun workers acceptor dispatcher closer other))
    (idle : ∀ other, IsIdle changed other ↔ IsIdle workers other) :
    Schedule later changed acceptor' dispatcher' closer' := by
  obtain ⟨absent, distinct⟩ := List.nodup_cons.mp schedule.distinct
  refine ⟨distinct, ?_, ?_⟩
  · intro other
    by_cases same : other = thread
    · subst same
      exact ⟨fun member => absurd member absent, fun runs => absurd runs stopped⟩
    · rw [others other same, ← schedule.runnable other]
      simp [same]
  · simpa only [idle] using (List.pairwise_cons.mp schedule.idleFirst).2

/-- A thread is woken and is not idle, and nothing changes for the others. It
may stand at the end of the queue because it is not idle. -/
theorem thread_wakes {thread : Thread} {acceptor' dispatcher' : Phase} {closer' : Closer}
    (schedule : Schedule ready workers acceptor dispatcher closer)
    (asleep : ¬CanRun workers acceptor dispatcher closer thread)
    (awake : CanRun changed acceptor' dispatcher' closer' thread)
    (busy : ¬IsIdle changed thread)
    (others : ∀ other, other ≠ thread →
      (CanRun changed acceptor' dispatcher' closer' other ↔
        CanRun workers acceptor dispatcher closer other) ∧
      (IsIdle changed other ↔ IsIdle workers other)) :
    Schedule (ready ++ [thread]) changed acceptor' dispatcher' closer' := by
  have absent : thread ∉ ready := fun member => asleep ((schedule.runnable thread).mp member)
  refine ⟨?_, ?_, ?_⟩
  · exact List.nodup_append.mpr ⟨schedule.distinct, List.pairwise_singleton _ _, by
      intro member present other same
      rw [List.mem_singleton.mp same]
      exact fun equal => absent (equal ▸ present)⟩
  · intro other
    rw [List.mem_append, List.mem_singleton]
    by_cases same : other = thread
    · subst same
      exact ⟨fun _ => awake, fun _ => .inr rfl⟩
    · rw [(others other same).1, ← schedule.runnable other]
      simp [same]
  · refine List.pairwise_append.mpr ⟨?_, List.pairwise_singleton _ _, ?_⟩
    · apply schedule.idleFirst.imp_of_mem
      intro first second firstMember secondMember before
      have firstOther : first ≠ thread := fun same => absent (same ▸ firstMember)
      have secondOther : second ≠ thread := fun same => absent (same ▸ secondMember)
      rw [(others first firstOther).2, (others second secondOther).2]
      exact before
    · intro first _ second last idle
      rw [List.mem_singleton.mp last] at idle
      exact absurd idle busy

theorem acceptor_leaves
    (schedule : Schedule (.acceptor :: later) workers acceptor dispatcher closer) {phase : Phase}
    (stopped : phase ≠ .ready) : Schedule later workers phase dispatcher closer := by
  refine schedule.thread_leaves stopped ?_ (fun _ => Iff.rfl)
  intro other different
  cases other with
  | acceptor => exact absurd rfl different
  | worker index => exact Iff.rfl
  | dispatcher => exact Iff.rfl
  | closer => exact Iff.rfl

theorem dispatcher_leaves
    (schedule : Schedule (.dispatcher :: later) workers acceptor dispatcher closer)
    {phase : Phase} (stopped : phase ≠ .ready) : Schedule later workers acceptor phase closer := by
  refine schedule.thread_leaves stopped ?_ (fun _ => Iff.rfl)
  intro other different
  cases other with
  | dispatcher => exact absurd rfl different
  | worker index => exact Iff.rfl
  | acceptor => exact Iff.rfl
  | closer => exact Iff.rfl

theorem closer_leaves (schedule : Schedule (.closer :: later) workers acceptor dispatcher closer)
    {next : Closer} (stopped : ¬(next = .closing ∨ next = .ordering)) :
    Schedule later workers acceptor dispatcher next := by
  refine schedule.thread_leaves stopped ?_ (fun _ => Iff.rfl)
  intro other different
  cases other with
  | closer => exact absurd rfl different
  | worker index => exact Iff.rfl
  | acceptor => exact Iff.rfl
  | dispatcher => exact Iff.rfl

/-- A worker stops running and keeps its job, or the lack of one. -/
theorem worker_leaves {index : Nat} {worker : Worker}
    (schedule : Schedule (.worker index :: later) workers acceptor dispatcher closer)
    (found : workers[index]? = some worker) {phase : Phase} (stopped : phase ≠ .ready) :
    Schedule later (workers.set index { worker with phase }) acceptor dispatcher closer := by
  refine schedule.thread_leaves ?_ ?_ (isIdle_set_iff found _ rfl)
  · rw [canRun_set_self found]
    exact stopped
  · intro other different
    exact canRun_set_of_ne acceptor dispatcher closer _ different

theorem acceptor_wakes (schedule : Schedule ready workers acceptor dispatcher closer)
    (asleep : acceptor ≠ .ready) :
    Schedule (ready ++ [.acceptor]) workers .ready dispatcher closer := by
  refine schedule.thread_wakes asleep rfl id ?_
  intro other different
  cases other with
  | acceptor => exact absurd rfl different
  | worker index => exact ⟨Iff.rfl, Iff.rfl⟩
  | dispatcher => exact ⟨Iff.rfl, Iff.rfl⟩
  | closer => exact ⟨Iff.rfl, Iff.rfl⟩

theorem dispatcher_wakes (schedule : Schedule ready workers acceptor dispatcher closer)
    (asleep : dispatcher ≠ .ready) :
    Schedule (ready ++ [.dispatcher]) workers acceptor .ready closer := by
  refine schedule.thread_wakes asleep rfl id ?_
  intro other different
  cases other with
  | dispatcher => exact absurd rfl different
  | worker index => exact ⟨Iff.rfl, Iff.rfl⟩
  | acceptor => exact ⟨Iff.rfl, Iff.rfl⟩
  | closer => exact ⟨Iff.rfl, Iff.rfl⟩

/-- The closer is started or woken. -/
theorem closer_wakes (schedule : Schedule ready workers acceptor dispatcher closer)
    (asleep : ¬(closer = .closing ∨ closer = .ordering)) {next : Closer}
    (awake : next = .closing ∨ next = .ordering) :
    Schedule (ready ++ [.closer]) workers acceptor dispatcher next := by
  refine schedule.thread_wakes asleep awake id ?_
  intro other different
  cases other with
  | closer => exact absurd rfl different
  | worker index => exact ⟨Iff.rfl, Iff.rfl⟩
  | acceptor => exact ⟨Iff.rfl, Iff.rfl⟩
  | dispatcher => exact ⟨Iff.rfl, Iff.rfl⟩

/-- A waiting worker is given a job and woken. With the job it is no longer
idle. -/
theorem worker_wakes {index : Nat} {worker : Worker}
    (schedule : Schedule ready workers acceptor dispatcher closer)
    (found : workers[index]? = some worker) (asleep : worker.phase ≠ .ready) (job : Job) :
    Schedule (ready ++ [.worker index]) (workers.set index { phase := .ready, job := some job })
      acceptor dispatcher closer := by
  refine schedule.thread_wakes ?_ ?_ ?_ ?_
  · simpa [CanRun, found] using asleep
  · rw [canRun_set_self found]
  · rw [isIdle_set_self found]
    exact Option.some_ne_none job
  · intro other different
    exact ⟨canRun_set_of_ne acceptor dispatcher closer _ different, isIdle_set_of_ne _ different⟩

/-! ## Running on -/

/-- The closer goes on with another part of its work, and could run before. -/
theorem closer_continues (schedule : Schedule ready workers acceptor dispatcher .closing) :
    Schedule ready workers acceptor dispatcher .ordering := by
  refine ⟨schedule.distinct, ?_, schedule.idleFirst⟩
  intro thread
  rw [schedule.runnable thread]
  cases thread with
  | closer => simp [CanRun]
  | worker index => exact Iff.rfl
  | acceptor => exact Iff.rfl
  | dispatcher => exact Iff.rfl

/-- The running worker is idle again. It stands at the front, so idle workers
still come first. -/
theorem worker_is_freed {index : Nat} {worker : Worker}
    (schedule : Schedule (.worker index :: later) workers acceptor dispatcher closer)
    (found : workers[index]? = some worker) :
    Schedule (.worker index :: later)
      (workers.set index worker.free) acceptor dispatcher closer := by
  have runs := (schedule.runnable (.worker index)).mp List.mem_cons_self
  refine ⟨schedule.distinct, ?_, ?_⟩
  · intro thread
    rw [schedule.runnable thread]
    by_cases other : thread = .worker index
    · subst other
      rw [canRun_set_self found]
      simp [CanRun, found, Worker.free]
    · exact (canRun_set_of_ne acceptor dispatcher closer _ other).symm
  · obtain ⟨absent, _⟩ := List.nodup_cons.mp schedule.distinct
    obtain ⟨_, rest⟩ := List.pairwise_cons.mp schedule.idleFirst
    refine List.pairwise_cons.mpr ⟨fun _ _ _ => (isIdle_set_self found _).mpr rfl, ?_⟩
    apply rest.imp_of_mem
    intro first second firstMember secondMember before
    have firstOther : first ≠ .worker index := fun same => absent (same ▸ firstMember)
    have secondOther : second ≠ .worker index := fun same => absent (same ▸ secondMember)
    rw [isIdle_set_of_ne _ firstOther, isIdle_set_of_ne _ secondOther]
    exact before

/-- When a thread that is no idle worker runs, no idle worker can run. It would
stand in front of the running thread. -/
theorem idle_asleep {thread : Thread} {index : Nat} {worker : Worker}
    (schedule : Schedule (thread :: later) workers acceptor dispatcher closer)
    (running : ¬IsIdle workers thread) (found : workers[index]? = some worker)
    (idle : worker.job = none) : worker.phase ≠ .ready := by
  intro awake
  have member := (schedule.runnable (.worker index)).mpr ⟨worker, found, awake⟩
  rcases List.mem_cons.mp member with front | behind
  · exact running (front ▸ ⟨worker, found, idle⟩)
  · exact running ((List.pairwise_cons.mp schedule.idleFirst).1 _ behind ⟨worker, found, idle⟩)

end Schedule

end Reckon.Service
