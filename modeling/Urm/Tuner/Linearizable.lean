import Urm.Tuner.DoubleChecked
import Urm.Tuner.Atomic
import Mathlib.Data.List.Nodup

/-! # The double-checked `getInstance` is linearizable; the lock-free ones are not

    Every interleaving of double-checked calls is accounted for by atomic calls
    (`runAtomic`), each taken at one step of its own thread: the step where the call reads
    a published pointer, or builds, or fails to.  `Pc.effect` says where a thread stands in
    the atomic world, and `Linearized` ties the two worlds.

    * `step_linearized` — one step of a double-checked body takes effect at most once, at
      a step of the thread whose call it is;
    * `doubleChecked_linearizable` — **LINEARIZABILITY**: by induction over the schedule,
      the calls that have taken effect, in the order they did, end where the interleaved
      calls do;
    * `unlocked_race`, `unlocked_not_linearizable` — without the lock, two interleaved calls
      build two objects and return different ones, which no order of atomic calls does. -/

namespace GetInstance

/-- Where a thread at `p` stands in the atomic world: a call that has taken effect has
    returned there (the published pointer from `unlock` and `ret`, `nullptr` from
    `failUnlock`); one that has not is yet to be made. -/
def Pc.effect (inst : Option Nat) : Pc → Pc
  | .unlock | .ret => .done inst
  | .failUnlock => .done none
  | .done r => .done r
  | .threw => .threw
  | .check | .lock | .recheck | .alloc => .check

/-- The atomic world `a` accounts for the interleaved world `s`: the same pointer and
    objects, and every thread where the effect of its call puts it. -/
structure Linearized (s a : World) : Prop where
  inst : a.inst = s.inst
  built : a.built = s.built
  pc : ∀ t, a.pc t = (s.pc t).effect s.inst

theorem init_linearized : Linearized init init :=
  ⟨rfl, rfl, fun _ => rfl⟩

/-- The lock is not part of the atomic world. -/
theorem Linearized.lock {s a : World} (h : Linearized s a) (l : Option Nat) :
    Linearized { s with lock := l } a :=
  ⟨h.inst, h.built, h.pc⟩

/-- A thread moves and the atomic world follows it to the effect of its new place. -/
theorem Linearized.move {s a : World} (h : Linearized s a) (t : Nat) (p : Pc) :
    Linearized (s.move t p) (a.move t (p.effect s.inst)) := by
  refine ⟨h.inst, h.built, fun u => ?_⟩
  by_cases hu : u = t
  · subst hu; simp
  · simp [hu, h.pc u]

/-- A thread moves without its call taking effect. -/
theorem Linearized.stay {s a : World} (h : Linearized s a) {t : Nat} {p q : Pc}
    (hq : s.pc t = q) (hp : p.effect s.inst = q.effect s.inst) : Linearized (s.move t p) a := by
  refine ⟨h.inst, h.built, fun u => ?_⟩
  by_cases hu : u = t
  · subst hu; simp [h.pc, hq, hp]
  · simp [hu, h.pc u]

/-- Threads away from the build see no difference when it publishes. -/
theorem Pc.effect_publish {lock : Option Nat} {u k : Nat} {p : Pc}
    (h : ThreadOk none lock u p) : p.effect none = p.effect (some k) := by
  cases p <;> simp_all [ThreadOk, Pc.effect]

/-- The atomic call on a published pointer returns it. -/
theorem atomicCall_of_some (b : Body) {s : World} {o : Nat} (hi : s.inst = some o) (t : Nat)
    (ok : Bool) : atomicCall b s t ok = s.move t (.done (some o)) := by
  simp [atomicCall, hi]

/-- **One step of a double-checked body takes effect at most once**: it leaves the atomic
    world as it is, or it is the point where its own call, not yet made there, takes effect
    with the same answer of `new`. -/
theorem step_linearized {b : Body} (hl : b.locked = true) (hc : b.catchesBadAlloc = true)
    {s s' a : World} {t : Nat} {ok : Bool} (hs : Inv s) (ha : Linearized s a)
    (h : step b s t ok = some s') :
    Linearized s' a ∨ a.pc t = .check ∧ Linearized s' (atomicCall b a t ok) := by
  have ht := hs.thread t
  have hfresh : ∀ q : Pc, s.pc t = q → q.effect s.inst = .check → a.pc t = .check :=
    fun q hpc hq => by rw [ha.pc, hpc, hq]
  unfold step at h
  split at h <;> rename_i hpc <;> rw [hpc] at ht
  case h_1 =>
    cases h
    cases hi : s.inst with
    | none => exact .inl (by simpa [hi, hl] using ha.stay hpc (p := .lock) rfl)
    | some o =>
        refine .inr ⟨hfresh _ hpc rfl, ?_⟩
        simpa [atomicCall_of_some b (ha.inst.trans hi), Pc.effect, hi] using ha.move t .ret
  case h_2 =>
    split_ifs at h
    cases h
    exact .inl ((ha.stay hpc (p := .recheck) rfl).lock _)
  case h_3 =>
    cases h
    cases hi : s.inst with
    | none => exact .inl (by simpa [hi] using ha.stay hpc (p := .alloc) rfl)
    | some o =>
        refine .inr ⟨hfresh _ hpc rfl, ?_⟩
        simpa [atomicCall_of_some b (ha.inst.trans hi), Pc.effect, hi] using ha.move t .unlock
  case h_4 =>
    have hai : a.inst = none := ha.inst.trans ht.2
    refine .inr ⟨hfresh _ hpc rfl, ?_⟩
    simp only [hl, hc, Bool.not_true, Bool.false_eq_true, ↓reduceIte] at h
    split_ifs at h with hok
    · cases h
      refine ⟨by simp [atomicCall, hai, hok, ha.built], by simp [atomicCall, hai, hok, ha.built],
        fun u => ?_⟩
      by_cases hu : u = t
      · subst hu; simp [atomicCall, hai, hok, ha.built, Pc.effect]
      · simp only [atomicCall, hai, hok, ↓reduceIte]
        rw [move_pc_ne _ _ hu, move_pc_ne _ _ hu, ha.pc, ht.2]
        exact Pc.effect_publish (ht.2 ▸ hs.thread u)
    · cases h
      simpa [atomicCall, hai, hok, hc, Pc.effect] using ha.move t .failUnlock
  case h_5 => cases h; exact .inl ((ha.stay hpc (p := .ret) rfl).lock _)
  case h_6 => cases h; exact .inl ((ha.stay hpc (p := .done none) rfl).lock _)
  case h_7 => cases h; exact .inl (ha.stay hpc rfl)
  case h_8 => cases h
  case h_9 => cases h

/-- The atomic calls of other threads leave `t` where it is. -/
theorem runAtomic_pc_of_not_mem (b : Body) {t : Nat} :
    ∀ (calls : List (Nat × Bool)) (s : World), t ∉ calls.map Prod.fst →
      (runAtomic b calls s).pc t = s.pc t
  | [], _, _ => rfl
  | c :: calls, s, ht => by
      simp only [List.map_cons, List.mem_cons, not_or] at ht
      exact (runAtomic_pc_of_not_mem b calls _ ht.2).trans (atomicCall_pc_ne b s c.2 ht.1)

/-- A thread the atomic calls leave yet to call has not called. -/
theorem not_mem_of_runAtomic_pc (b : Body) {t : Nat} :
    ∀ (calls : List (Nat × Bool)) (s : World), (runAtomic b calls s).pc t = .check →
      t ∉ calls.map Prod.fst
  | [], _, _ => by simp
  | c :: calls, s, ht => by
      have hrest := not_mem_of_runAtomic_pc b calls _ ht
      rw [runAtomic, List.foldl_cons, ← runAtomic, runAtomic_pc_of_not_mem b calls _ hrest] at ht
      simp only [List.map_cons, List.mem_cons, not_or]
      exact ⟨fun he => atomicCall_pc_self b s c.1 c.2 (he ▸ ht), hrest⟩

theorem runAtomic_append (b : Body) (calls : List (Nat × Bool)) (t : Nat) (ok : Bool)
    (s : World) : runAtomic b (calls ++ [(t, ok)]) s = atomicCall b (runAtomic b calls s) t ok := by
  simp [runAtomic]

/-- Run lemma: the steps of a schedule extend the linearization by calls picked from it. -/
theorem exec_linearized {b : Body} (hl : b.locked = true) (hc : b.catchesBadAlloc = true) :
    ∀ (sched lin : List (Nat × Bool)) (s : World), Inv s → (lin.map Prod.fst).Nodup →
      Linearized s (runAtomic b lin init) →
      ∃ ext, ext.Sublist sched ∧ ((lin ++ ext).map Prod.fst).Nodup ∧
        Linearized (exec b sched s) (runAtomic b (lin ++ ext) init)
  | [], lin, s, _, hn, ha => ⟨[], .slnil, by simpa using hn, by simpa using ha⟩
  | (t, ok) :: sched, lin, s, hs, hn, ha => by
      cases hst : step b s t ok with
      | none =>
          obtain ⟨ext, hsub, hn', ha'⟩ := exec_linearized hl hc sched lin s hs hn ha
          refine ⟨ext, hsub.cons _, hn', ?_⟩
          show Linearized (exec b sched ((step b s t ok).getD s)) _
          rwa [hst]
      | some s' =>
          rw [exec_cons_of_step hst]
          have hs' := step_inv hl hc hs hst
          rcases step_linearized hl hc hs ha hst with ha' | ⟨hcheck, ha'⟩
          · obtain ⟨ext, hsub, hn', ha''⟩ := exec_linearized hl hc sched lin s' hs' hn ha'
            exact ⟨ext, hsub.cons _, hn', ha''⟩
          · have hn1 : ((lin ++ [(t, ok)]).map Prod.fst).Nodup := by
              simpa [List.nodup_append, hn] using not_mem_of_runAtomic_pc b lin init hcheck
            rw [← runAtomic_append] at ha'
            obtain ⟨ext, hsub, hn', ha''⟩ := exec_linearized hl hc sched _ s' hs' hn1 ha'
            exact ⟨(t, ok) :: ext, hsub.cons₂ _, by simpa using hn', by simpa using ha''⟩

/-- **THE DOUBLE-CHECKED `getInstance` IS LINEARIZABLE**: after any interleaving of
    double-checked calls, with `new` failing anywhere, the calls that have taken effect,
    one per thread and each at one of its own steps of the schedule, run as atomic calls
    in that order end with the same pointer and objects built; there every returned
    thread has its result, every thread past the point where its call took effect has the
    result it will return, and every other thread is yet to call. -/
theorem doubleChecked_linearizable (b : Body) (hl : b.locked = true)
    (hc : b.catchesBadAlloc = true) (sched : List (Nat × Bool)) :
    ∃ lin, lin.Sublist sched ∧ (lin.map Prod.fst).Nodup ∧
      Linearized (exec b sched init) (runAtomic b lin init) := by
  simpa using exec_linearized hl hc sched [] init init_inv List.nodup_nil init_linearized

/-- The schedule of `unlocked_race`, on `RequestQueue::getInstance`. -/
theorem requestQueue_linearizable :
    RequestQueue.getInstance.locked = true ∧ RequestQueue.getInstance.catchesBadAlloc = true ∧
      ∃ lin, lin.Sublist [(0, true), (1, true), (0, true), (0, true), (1, true), (1, true)] ∧
        (lin.map Prod.fst).Nodup ∧
        Linearized (exec RequestQueue.getInstance
            [(0, true), (1, true), (0, true), (0, true), (1, true), (1, true)] init)
          (runAtomic RequestQueue.getInstance lin init) :=
  ⟨rfl, rfl, doubleChecked_linearizable RequestQueue.getInstance rfl rfl _⟩

-- ── without the lock ────────────────────────────────────────────────────────

/-- **Without the lock, two calls can return two objects**: thread 0 and thread 1 both see
    a null pointer, then each builds, publishes and returns its own object. -/
theorem unlocked_race (b : Body) (hb : b.locked = false) :
    let s := exec b [(0, true), (1, true), (0, true), (0, true), (1, true), (1, true)] init
    s.built = 2 ∧ s.pc 0 = .done (some 0) ∧ s.pc 1 = .done (some 1) := by
  obtain ⟨locked, catches⟩ := b
  simp only at hb
  subst hb
  cases catches <;> exact ⟨rfl, rfl, rfl⟩


/-- The race of `unlocked_race` against the atomic calls: no order of them, whichever
    threads make them and wherever `new` fails, builds two objects. -/
theorem unlocked_not_linearizable (b : Body) (hb : b.locked = false) :
    let s := exec b [(0, true), (1, true), (0, true), (0, true), (1, true), (1, true)] init
    s.pc 0 = .done (some 0) ∧ s.pc 1 = .done (some 1) ∧
      ¬∃ lin, Linearized s (runAtomic b lin init) := by
  obtain ⟨h2, h0, h1⟩ := unlocked_race b hb
  refine ⟨h0, h1, fun ⟨lin, ha⟩ => ?_⟩
  have hb1 := ha.built
  rcases (runAtomic_quiet b lin init init_quiet).built with ⟨-, h⟩ | ⟨-, h⟩ <;> omega

end GetInstance
