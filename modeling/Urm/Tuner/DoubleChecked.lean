import Urm.Tuner.GetInstance

/-! # The double-checked `getInstance`: one object, and a lock that is always given back

    `RequestQueue`, `CocoTable`, `ClientDataManager` and `RateLimiter` test the pointer,
    take `instanceProtectionLock`, test again and build under the lock.  `Inv` says where
    each thread may be given the pointer and the lock, and every result here follows from
    one step lemma and its run lemma.

    * `exec_inv` — `Inv` holds after every schedule: at most one object is ever built,
      the lock is held exactly by the one thread inside it, and every non-null result is
      the published object;
    * `doubleChecked_singleton` — **THE SINGLETON**: any two non-null results of
      concurrent calls are the same object;
    * `holder_enabled`, `blocked_only_on_holder` — when `new T()` succeeds or throws
      `std::bad_alloc`, the lock is never leaked: a thread that cannot move waits at
      `lock()` on a thread that can;
    * `call_returns` — **EVERY CALL CAN RETURN**: from every such state, running the caller
      and whoever holds the lock brings the caller out of `getInstance` (by well-founded
      recursion on `distance`);
    * `otherException_deadlocks` — but an exception of another type from `T()`'s
      constructor passes the `catch (std::bad_alloc&)` and the `unlock()`: the lock is
      never given back, and every caller that has not passed `lock()` waits for ever. -/

namespace GetInstance

/-- What the double-checked body guarantees of thread `t` at `p`, given the static
    pointer and the lock: inside the lock exactly at the four statements between `lock()`
    and `unlock()`; building only while the pointer is null; returning only after it is
    set; a non-null result is the published pointer; `bad_alloc` never escapes. -/
def ThreadOk (inst lock : Option Nat) (t : Nat) : Pc → Prop
  | .check => lock ≠ some t
  | .lock => lock ≠ some t
  | .recheck => lock = some t
  | .alloc => lock = some t ∧ inst = none
  | .unlock => lock = some t ∧ inst.isSome
  | .failUnlock => lock = some t
  | .ret => lock ≠ some t ∧ inst.isSome
  | .done r => lock ≠ some t ∧ (r = none ∨ r = inst)
  | .threw => False

/-- The invariant of the double-checked body. -/
structure Inv (s : World) : Prop where
  /-- Nothing built yet, or exactly object 0, published. -/
  built : s.inst = none ∧ s.built = 0 ∨ s.inst = some 0 ∧ s.built = 1
  thread : ∀ t, ThreadOk s.inst s.lock t (s.pc t)

/-- A thread that does not hold the lock cannot tell who else does, if anyone. -/
theorem ThreadOk.of_lock {inst lock lock' : Option Nat} {u : Nat} {p : Pc}
    (h : ThreadOk inst lock u p) (hl : lock ≠ some u) (hl' : lock' ≠ some u) :
    ThreadOk inst lock' u p := by
  cases p <;> simp_all [ThreadOk]

/-- A thread that does not hold the lock can see the holder publish its object. -/
theorem ThreadOk.publish {k : Nat} {lock : Option Nat} {u : Nat} {p : Pc}
    (h : ThreadOk none lock u p) (hl : lock ≠ some u) : ThreadOk (some k) lock u p := by
  cases p <;> simp_all [ThreadOk]

/-- The invariant after thread `t` moves to `p`, with the shared fields given. -/
theorem inv_move {s : World} {t : Nat} {p : Pc} {inst lock : Option Nat} {built : Nat}
    (hb : inst = none ∧ built = 0 ∨ inst = some 0 ∧ built = 1)
    (hothers : ∀ u, u ≠ t → ThreadOk inst lock u (s.pc u)) (hself : ThreadOk inst lock t p) :
    Inv ⟨inst, built, lock, Function.update s.pc t p⟩ := by
  refine ⟨hb, fun u => ?_⟩
  by_cases hu : u = t
  · subst hu; simpa using hself
  · simpa [Function.update_noteq hu] using hothers u hu

theorem init_inv : Inv init :=
  ⟨.inl ⟨rfl, rfl⟩, fun _ => Option.noConfusion⟩

/-- **One step of a double-checked body keeps the invariant.** -/
theorem step_inv {b : Body} (hl : b.locked = true) (hc : b.catchesBadAlloc = true)
    {s s' : World} {t : Nat} {ok : Bool} (hs : Inv s) (h : step b s t ok = some s') : Inv s' := by
  have ht := hs.thread t
  have hown : ∀ u, u ≠ t → ThreadOk s.inst s.lock u (s.pc u) := fun u _ => hs.thread u
  unfold step at h
  split at h <;> rename_i hpc <;> rw [hpc] at ht
  case h_1 =>
    cases h
    refine inv_move hs.built hown ?_
    cases hi : s.inst <;> simpa [hi, hl, ThreadOk] using ht
  case h_2 =>
    split_ifs at h with hlk
    cases h
    exact inv_move hs.built
      (fun u hu => (hs.thread u).of_lock (by simp [hlk]) (by simpa using Ne.symm hu)) rfl
  case h_3 =>
    cases h
    refine inv_move hs.built hown ?_
    cases hi : s.inst <;> simpa [hi, ThreadOk] using ht
  case h_4 =>
    simp only [hl, hc, Bool.not_true, Bool.false_eq_true, ↓reduceIte] at h
    split_ifs at h with hok
    · cases h
      have h0 : s.built = 0 := by
        rcases hs.built with ⟨-, h0⟩ | ⟨hi, -⟩
        · exact h0
        · simp [ht.2] at hi
      rw [h0]
      refine inv_move (.inr ⟨rfl, rfl⟩) (fun u hu => ?_) ⟨ht.1, rfl⟩
      exact (ht.2 ▸ hs.thread u).publish (by simpa [ht.1] using Ne.symm hu)
    · cases h
      exact inv_move hs.built hown ht.1
  case h_5 =>
    cases h
    exact inv_move hs.built
      (fun u hu => (hs.thread u).of_lock (by simpa [ht.1] using Ne.symm hu) (by simp))
      ⟨Option.noConfusion, ht.2⟩
  case h_6 =>
    cases h
    exact inv_move hs.built
      (fun u hu => (hs.thread u).of_lock (by simpa [show s.lock = some t from ht] using Ne.symm hu)
        (by simp))
      ⟨Option.noConfusion, .inl rfl⟩
  case h_7 =>
    cases h
    exact inv_move hs.built hown ⟨ht.1, .inr rfl⟩
  case h_8 => cases h
  case h_9 => cases h

/-- **Every schedule keeps the invariant.** -/
theorem exec_inv {b : Body} (hl : b.locked = true) (hc : b.catchesBadAlloc = true) :
    ∀ (sched : List (Nat × Bool)) (s : World), Inv s → Inv (exec b sched s)
  | [], _, hs => hs
  | pick :: sched, s, hs => by
      show Inv (exec b sched ((step b s pick.1 pick.2).getD s))
      cases hst : step b s pick.1 pick.2 with
      | none => exact exec_inv hl hc sched s hs
      | some s' => exact exec_inv hl hc sched s' (step_inv hl hc hs hst)

/-- In the lock at most one thread: the holder. -/
def Pc.inLock : Pc → Bool
  | .recheck | .alloc | .unlock | .failUnlock => true
  | _ => false

theorem Inv.lock_of_inLock {s : World} (hs : Inv s) {t : Nat} (ht : (s.pc t).inLock = true) :
    s.lock = some t := by
  have := hs.thread t
  revert ht this
  cases s.pc t <;> simp_all [Pc.inLock, ThreadOk]

/-- A non-null result is the published pointer. -/
theorem Inv.inst_of_done {s : World} (hs : Inv s) {t r : Nat} (ht : s.pc t = .done (some r)) :
    s.inst = some r := by
  have := hs.thread t
  rw [ht] at this
  simpa [ThreadOk, eq_comm] using this.2

/-- The thread holding the lock can always move: the lock is released on every path,
    the `bad_alloc` one included. -/
theorem holder_enabled {b : Body} {s : World} (hs : Inv s) {h : Nat} (hh : s.lock = some h)
    (ok : Bool) : (step b s h ok).isSome := by
  have := hs.thread h
  unfold step
  cases hp : s.pc h <;> simp_all [ThreadOk]
  split_ifs <;> rfl

/-- **No thread waits on a stuck one**: a thread of a double-checked body that cannot move
    has returned, or waits at `lock()` for the lock, held by another thread that can move. -/
theorem blocked_only_on_holder {b : Body} {s : World} (hs : Inv s) {t : Nat} {ok : Bool}
    (hb : step b s t ok = none) :
    (∃ r, s.pc t = .done r) ∨
      s.pc t = .lock ∧ ∃ h, h ≠ t ∧ s.lock = some h ∧ ∀ ok', (step b s h ok').isSome := by
  have ht := hs.thread t
  unfold step at hb
  split at hb <;> rename_i hpc <;> rw [hpc] at ht
  case h_2 =>
    split_ifs at hb with hlk
    obtain ⟨h, hh⟩ := Option.ne_none_iff_exists'.mp hlk
    exact .inr ⟨hpc, h, fun e => ht (e ▸ hh), hh, holder_enabled hs hh⟩
  case h_8 r => exact .inl ⟨r, hpc⟩
  case h_9 => exact ht.elim
  all_goals (try split_ifs at hb) <;> cases hb

/-- How far the thread holding the lock, if it is not `t`, is from the end of its call. -/
def holderRank (s : World) (t : Nat) : Nat :=
  match s.lock with
  | some h => if h = t then 0 else (s.pc h).rank
  | none => 0

/-- What stands between thread `t` and its return: its own distance to the end of the
    call, and the holder's. -/
def distance (s : World) (t : Nat) : Nat :=
  (s.pc t).rank + holderRank s t

/-- A step of `t` brings `t` closer: its own rank falls, and it never hands the lock to a
    thread further from the end. -/
theorem distance_step_self {b : Body} {s s' : World} {t : Nat} {ok : Bool}
    (hst : step b s t ok = some s') : distance s' t < distance s t := by
  have hr := step_rank hst
  have hh : holderRank s' t ≤ holderRank s t := by
    rcases step_lock hst with hl | hl | hl <;> simp only [holderRank, hl, ↓reduceIte]
    · split
      · rename_i h _
        split_ifs with hht
        · omega
        · exact Nat.le_of_eq (congrArg Pc.rank (step_frame hst hht))
      · omega
    all_goals omega
  unfold distance
  omega

/-- A step of the holder `h` of the lock brings `t` closer: `t` stays, `h` moves on or
    releases the lock. -/
theorem distance_step_holder {b : Body} {s s' : World} {t h : Nat} {ok : Bool}
    (hst : step b s h ok = some s') (hh : s.lock = some h) (hne : h ≠ t) :
    distance s' t < distance s t := by
  have hr := step_rank hst
  have hlt : holderRank s' t < holderRank s t := by
    rcases step_lock hst with hl | hl | hl <;>
      simp only [holderRank, hl, hh, hne, ↓reduceIte] <;> omega
  unfold distance
  rw [step_frame hst (Ne.symm hne)]
  omega

/-- After a step of `u`, the lock is held by `u` or by whoever held it before. -/
theorem step_lock_of_some {b : Body} {s s' : World} {u : Nat} {ok : Bool}
    (h : step b s u ok = some s') {p : Nat} (hp : s'.lock = some p) :
    p = u ∨ s.lock = some p := by
  rcases step_lock h with hl | hl | hl <;> rw [hl] at hp
  · exact .inr hp
  · exact .inl (Option.some_inj.mp hp).symm
  · cases hp

/-- A pick of the caller or of the holder, put before picks of the caller or of the holder
    after it, gives picks of the caller or of the holder before it. -/
theorem picks_step {b : Body} {s s' : World} {t u : Nat} {ok : Bool}
    (hst : step b s u ok = some s') (hu : u = t ∨ s.lock = some u) {sched : List (Nat × Bool)}
    (h : ∀ pick ∈ sched, (pick.1 = t ∨ s'.lock = some pick.1) ∧ pick.2 = ok) :
    ∀ pick ∈ (u, ok) :: sched, (pick.1 = t ∨ s.lock = some pick.1) ∧ pick.2 = ok := by
  intro pick hp
  rcases List.mem_cons.mp hp with rfl | hp
  · exact ⟨hu, rfl⟩
  obtain ⟨hw, hok⟩ := h pick hp
  refine ⟨hw.elim .inl fun hl => ?_, hok⟩
  rcases step_lock_of_some hst hl with he | hl'
  exacts [he ▸ hu, .inr hl']

/-- **EVERY CALL CAN RETURN**: from any state of a double-checked body that keeps the
    invariant, and whatever `new T()` answers, a schedule of steps of `t` and of the thread
    holding the lock brings `t` out of `getInstance`; no caller is ever stuck behind the
    lock. -/
theorem call_returns {b : Body} (hl : b.locked = true) (hc : b.catchesBadAlloc = true)
    {s : World} (hs : Inv s) (t : Nat) (ok : Bool) :
    ∃ sched r, (∀ pick ∈ sched, (pick.1 = t ∨ s.lock = some pick.1) ∧ pick.2 = ok) ∧
      (exec b sched s).pc t = .done r := by
  by_cases hfin : ∃ r, s.pc t = .done r
  · obtain ⟨r, hr⟩ := hfin
    exact ⟨[], r, fun _ h => (List.not_mem_nil _ h).elim, hr⟩
  cases hst : step b s t ok with
  | some s' =>
      have := distance_step_self hst
      obtain ⟨sched, r, hpicks, hr⟩ := call_returns hl hc (step_inv hl hc hs hst) t ok
      exact ⟨(t, ok) :: sched, r, picks_step hst (.inl rfl) hpicks,
        by rw [exec_cons_of_step hst]; exact hr⟩
  | none =>
      rcases blocked_only_on_holder hs hst with hd | ⟨-, h, hne, hh, hen⟩
      · exact absurd hd hfin
      · obtain ⟨s', hs'⟩ := Option.isSome_iff_exists.mp (hen ok)
        have := distance_step_holder hs' hh hne
        obtain ⟨sched, r, hpicks, hr⟩ := call_returns hl hc (step_inv hl hc hs hs') t ok
        exact ⟨(h, ok) :: sched, r, picks_step hs' (.inr hh) hpicks,
          by rw [exec_cons_of_step hs']; exact hr⟩
termination_by distance s t

/-- Thread 1, waiting at `lock()` behind thread 0, still returns. -/
theorem waiting_caller_returns :
    RequestQueue.getInstance.locked = true ∧ RequestQueue.getInstance.catchesBadAlloc = true ∧
      let s := exec RequestQueue.getInstance [(0, true), (0, true), (1, true), (1, true)] init
      Inv s ∧ ∃ sched r, (∀ pick ∈ sched, (pick.1 = 1 ∨ s.lock = some pick.1) ∧ pick.2 = true) ∧
        (exec RequestQueue.getInstance sched s).pc 1 = .done r :=
  have hs := exec_inv rfl rfl [(0, true), (0, true), (1, true), (1, true)] init init_inv
  ⟨rfl, rfl, hs, call_returns rfl rfl hs 1 true⟩

/-- Thread 1 reaches `lock()` while thread 0 tests the pointer again under the lock. -/
theorem waiting_on_recheck :
    let s := exec RequestQueue.getInstance [(0, true), (0, true), (1, true), (1, true)] init
    Inv s ∧ step RequestQueue.getInstance s 1 true = none ∧
      ((∃ r, s.pc 1 = .done r) ∨ s.pc 1 = .lock ∧
        ∃ h, h ≠ 1 ∧ s.lock = some h ∧ ∀ ok', (step RequestQueue.getInstance s h ok').isSome) :=
  have hs := exec_inv rfl rfl [(0, true), (0, true), (1, true), (1, true)] init init_inv
  have hb : step RequestQueue.getInstance
      (exec RequestQueue.getInstance [(0, true), (0, true), (1, true), (1, true)] init) 1 true
        = none := rfl
  ⟨hs, hb, blocked_only_on_holder hs hb⟩

-- ── an exception other than `bad_alloc` ─────────────────────────────────────

/-- Once a thread has thrown out of the build: it holds the lock and has left the call,
    nothing is published, and no thread is between `lock()` and `unlock()`. -/
structure Leaked (s : World) (t : Nat) : Prop where
  lock : s.lock = some t
  holder : s.pc t = .threw
  inst : s.inst = none
  outside : ∀ u, (s.pc u).inLock = false

/-- Not yet past `lock()`: about to test the pointer, or waiting for the lock. -/
def Pc.beforeLock : Pc → Bool
  | .check | .lock => true
  | _ => false

theorem execAlloc_cons (b : Body) (pick : Nat × Alloc) (sched : List (Nat × Alloc))
    (s : World) :
    execAlloc b (pick :: sched) s = execAlloc b sched ((stepAlloc b s pick.1 pick.2).getD s) :=
  rfl

/-- Away from the build, the outcome of `new T()` does not matter. -/
theorem stepAlloc_of_ne_alloc (b : Body) {s : World} {u : Nat} (h : s.pc u ≠ .alloc)
    (a : Alloc) : ∃ ok, stepAlloc b s u a = step b s u ok := by
  cases a
  exacts [⟨true, rfl⟩, ⟨false, rfl⟩, ⟨true, if_neg h⟩]

/-- A thread other than the one that threw moves outside the lock. -/
theorem Leaked.move {s : World} {t u : Nat} {p : Pc} (hs : Leaked s t) (hu : u ≠ t)
    (hp : p.inLock = false) (hb : (s.pc u).beforeLock = true → p.beforeLock = true) :
    Leaked (s.move u p) t ∧
      ∀ v, (s.pc v).beforeLock = true → ((s.move u p).pc v).beforeLock = true := by
  refine ⟨⟨hs.lock, by simp [Ne.symm hu, hs.holder], hs.inst, fun v => ?_⟩, fun v hv => ?_⟩ <;>
    by_cases hv' : v = u
  · subst hv'; simpa using hp
  · simpa [hv'] using hs.outside v
  · subst hv'; simpa using hb hv
  · simpa [hv'] using hv

/-- One step after the lock is lost keeps it lost, and keeps every thread not yet past
    `lock()` from passing it. -/
theorem stepAlloc_leaked {b : Body} (hl : b.locked = true) {s s' : World} {t u : Nat}
    {a : Alloc} (hs : Leaked s t) (h : stepAlloc b s u a = some s') :
    Leaked s' t ∧ ∀ v, (s.pc v).beforeLock = true → (s'.pc v).beforeLock = true := by
  have hout := hs.outside u
  obtain ⟨ok, hok⟩ := @stepAlloc_of_ne_alloc b s u (fun e => by simp [e, Pc.inLock] at hout) a
  rw [hok] at h
  have hu : u ≠ t := by rintro rfl; simp [step, hs.holder] at h
  unfold step at h
  split at h <;> rename_i hpc
  case h_1 =>
    cases h
    simpa [hs.inst, hl] using hs.move hu (p := .lock) rfl fun _ => rfl
  case h_2 => simp [hs.lock] at h
  case h_7 =>
    cases h
    exact hs.move hu rfl fun hb => by simp [hpc, Pc.beforeLock] at hb
  case h_8 => cases h
  case h_9 => cases h
  all_goals simp [hpc, Pc.inLock] at hout

/-- Run lemma: every schedule, with any outcomes of `new T()`, keeps the lock lost. -/
theorem execAlloc_leaked {b : Body} (hl : b.locked = true) {t : Nat} :
    ∀ (sched : List (Nat × Alloc)) (s : World), Leaked s t →
      Leaked (execAlloc b sched s) t ∧
        ∀ v, (s.pc v).beforeLock = true → ((execAlloc b sched s).pc v).beforeLock = true
  | [], _, hs => ⟨hs, fun _ h => h⟩
  | pick :: sched, s, hs => by
      rw [execAlloc_cons]
      cases h : stepAlloc b s pick.1 pick.2 with
      | none => exact execAlloc_leaked hl sched s hs
      | some s' =>
          obtain ⟨hs', hb⟩ := stepAlloc_leaked hl hs h
          obtain ⟨hrun, hb'⟩ := execAlloc_leaked hl sched s' hs'
          exact ⟨hrun, fun v hv => hb' v (hb v hv)⟩

/-- The other exception thrown while `t` builds loses the lock. -/
theorem leaked_of_alloc {s : World} (hs : Inv s) {t : Nat} (ht : s.pc t = .alloc) :
    Leaked (s.move t .threw) t := by
  have hth := hs.thread t
  rw [ht] at hth
  refine ⟨hth.1, by simp, hth.2, fun u => ?_⟩
  by_cases hu : u = t
  · subst hu; simp [Pc.inLock]
  · rw [move_pc_ne _ _ hu]
    cases hin : (s.pc u).inLock
    · rfl
    · exact absurd (Option.some_inj.mp ((hs.lock_of_inLock hin).symm.trans hth.1)) hu

/-- **AN EXCEPTION OTHER THAN `bad_alloc` LOCKS EVERY LATER CALLER OUT**: in a
    double-checked body, when `T()`'s constructor throws anything but `std::bad_alloc`
    while a thread builds, the exception passes the `catch` and the `unlock()`, so that
    thread keeps `instanceProtectionLock` for good.  Whatever runs after, and whatever
    `new T()` does then, the lock stays with it, nothing is ever published, and no thread
    that had not yet passed `lock()` ever passes it, so none of them returns. -/
theorem otherException_deadlocks {b : Body} (hl : b.locked = true) {s : World} (hs : Inv s)
    {t : Nat} (ht : s.pc t = .alloc) (sched : List (Nat × Alloc)) :
    let s' := execAlloc b ((t, .other) :: sched) s
    s'.lock = some t ∧ s'.pc t = .threw ∧ s'.inst = none ∧
      ∀ u, (s.pc u).beforeLock = true → (s'.pc u).beforeLock = true := by
  intro s'
  have hs' : s' = execAlloc b sched (s.move t .threw) := by
    show execAlloc b sched ((stepAlloc b s t .other).getD s) = _
    rw [stepAlloc, if_pos ht]
    rfl
  obtain ⟨hrun, hb⟩ := execAlloc_leaked hl sched _ (leaked_of_alloc hs ht)
  rw [hs']
  refine ⟨hrun.lock, hrun.holder, hrun.inst, fun u hu => hb u ?_⟩
  by_cases e : u = t
  · subst e; rw [ht] at hu; cases hu
  · rwa [move_pc_ne _ _ e]

/-- Thread 0 reaches the build of `RequestQueue::getInstance` under the lock; its
    constructor throws, then thread 1 calls. -/
theorem requestQueue_deadlock :
    let s := exec RequestQueue.getInstance [(0, true), (0, true), (0, true)] init
    RequestQueue.getInstance.locked = true ∧ Inv s ∧ s.pc 0 = .alloc ∧
      let s' := execAlloc RequestQueue.getInstance
        ((0, .other) :: [(1, .ok), (1, .ok), (1, .ok)]) s
      s'.lock = some 0 ∧ s'.pc 0 = .threw ∧ s'.inst = none ∧
        ∀ u, (s.pc u).beforeLock = true → (s'.pc u).beforeLock = true :=
  have hs := exec_inv rfl rfl [(0, true), (0, true), (0, true)] init init_inv
  ⟨rfl, hs, rfl, @otherException_deadlocks _ rfl _ hs 0 rfl _⟩

end GetInstance
