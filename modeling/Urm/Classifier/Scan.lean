import Urm.Classifier.Pruner

/-! # Delimiter scans — the loop shared by the extractor's tokenizers

    Several loops of the extractor read their input one character at a time and cut it at
    separator characters: the token loop of `ParseLog`, every `std::getline` loop (lines
    of `/proc/<pid>/cgroup`, the NUL-separated entries of `/proc/<pid>/environ`), and —
    behind its `start`/`i` index bookkeeping — the argument loop of `ParseCmdline`.
    `Scan.step` is that loop body: a separator hands the pending run to a flush routine
    and clears it, any other character extends the run.

    The run lemma `Scan.foldl_step` says what any number of steps compute: every piece of
    `List.splitOnP` has been flushed, in order, except the last one, which is still
    pending.  Whether a tokenizer keeps its last piece is therefore decided by what it
    does AFTER its loop; `run_flush_pending` is the tokenizer that flushes it. -/

/-- The state of a delimiter scan: what has been flushed, and the run read since the last
    separator. -/
structure Scan where
  emitted : List (List Char)
  pending : List Char

namespace Scan

variable (isSep : Char → Bool) (flush : List Char → List (List Char))

/-- One character: a separator flushes the pending run and clears it, any other character
    is appended to it. -/
def step (s : Scan) (c : Char) : Scan :=
  if isSep c then ⟨s.emitted ++ flush s.pending, []⟩ else ⟨s.emitted, s.pending ++ [c]⟩

/-- The scan of a whole input from the empty state. -/
def run (input : List Char) : Scan :=
  input.foldl (step isSep flush) ⟨[], []⟩

/-- **RUN**: from a pending run free of separators, a scan over `l` has flushed every
    piece of `pending ++ l` but the last, and the last is what is pending. -/
theorem foldl_step {s : Scan} (hs : ∀ c ∈ s.pending, isSep c = false) (l : List Char) :
    ∃ pieces, (s.pending ++ l).splitOnP isSep
        = pieces ++ [(l.foldl (step isSep flush) s).pending] ∧
      (l.foldl (step isSep flush) s).emitted = s.emitted ++ pieces.flatMap flush := by
  induction l generalizing s with
  | nil =>
      refine ⟨[], ?_, by simp⟩
      simpa using List.splitOnP_eq_single isSep s.pending (by simpa using hs)
  | cons c l ih =>
      by_cases hc : isSep c
      · obtain ⟨pieces, hsplit, hemit⟩ :=
          ih (s := ⟨s.emitted ++ flush s.pending, []⟩) (by simp)
        refine ⟨s.pending :: pieces, ?_, by simp [step, hc, hemit]⟩
        rw [List.splitOnP_first isSep _ (by simpa using hs) c hc]
        simpa [step, hc] using hsplit
      · obtain ⟨pieces, hsplit, hemit⟩ :=
          ih (s := ⟨s.emitted, s.pending ++ [c]⟩) (by
            simp only [List.mem_append, List.mem_singleton]
            rintro d (hd | rfl)
            exacts [hs d hd, by simpa using hc])
        exact ⟨pieces, by simpa [step, hc] using hsplit, by simpa [step, hc] using hemit⟩

/-- The scan of a whole input: the pieces of `splitOnP` with the last one pending. -/
theorem run_splitOnP (input : List Char) :
    input.splitOnP isSep
        = (input.splitOnP isSep).dropLast ++ [(run isSep flush input).pending] ∧
      (run isSep flush input).emitted = (input.splitOnP isSep).dropLast.flatMap flush := by
  obtain ⟨pieces, hsplit, hemit⟩ :=
    foldl_step isSep flush (s := ⟨[], []⟩) (by simp) input
  simp only [List.nil_append] at hsplit hemit
  rw [hsplit, List.dropLast_concat]
  exact ⟨rfl, hemit⟩

/-- A scan followed by one more flush of the pending run flushes every piece. -/
theorem run_flush_pending (input : List Char) :
    (run isSep flush input).emitted ++ flush (run isSep flush input).pending
      = (input.splitOnP isSep).flatMap flush := by
  obtain ⟨hsplit, hemit⟩ := run_splitOnP isSep flush input
  conv_rhs => rw [hsplit]
  simp [hemit]

/-- No piece of `splitOnP` holds a separator. -/
theorem splitOnP_sep_free (p : Char → Bool) (l : List Char) :
    ∀ r ∈ l.splitOnP p, ∀ c ∈ r, p c = false := by
  induction l with
  | nil => simp
  | cons x xs ih =>
      obtain ⟨h, t, ht⟩ := List.exists_cons_of_ne_nil (List.splitOnP_ne_nil p xs)
      by_cases hx : p x
      · simp only [List.splitOnP_cons, hx, if_true, List.mem_cons]
        rintro r (rfl | hr)
        · simp
        · exact ih r hr
      · simp only [List.splitOnP_cons, hx, ht, List.modifyHead_cons]
        intro r hr c hc
        rcases List.mem_cons.mp hr with rfl | hr
        · rcases List.mem_cons.mp hc with rfl | hc
          · simpa using hx
          · exact ih h (by simp [ht]) c hc
        · exact ih r (by simp [ht, hr]) c hc

end Scan

namespace FeatureExtractor

/-- Skipping empty pieces inside a `flatMap` is filtering them out first. -/
theorem flatMap_filter_ne_nil {β : Type} (l : List (List Char)) (f : List Char → List β) :
    (l.filter (· ≠ [])).flatMap f = l.flatMap fun e => if e = [] then [] else f e := by
  induction l with
  | nil => rfl
  | cons a l ih => by_cases h : a = [] <;> simpa [h] using ih

/-- The entries that `while (std::getline(in, entry, delim))` reads from a stream holding
    `content`: an entry ends at `delim`, which is consumed, or at the end of the stream,
    and a read that finds the stream at its end fails and stops the loop. -/
def getlineAll (delim : Char) (content : List Char) : List (List Char) :=
  let s := Scan.run (· = delim) (fun entry => [entry]) content
  s.emitted ++ if s.pending = [] then [] else [s.pending]

/-- The `getline` entries are the pieces of `splitOnP`, the last one kept when it is not
    empty: an entry with no delimiter after it is still read. -/
theorem getlineAll_splitOnP (delim : Char) (content : List Char) :
    ∃ pieces last, content.splitOnP (· = delim) = pieces ++ [last] ∧
      getlineAll delim content = pieces ++ if last = [] then [] else [last] := by
  obtain ⟨hsplit, hemit⟩ := Scan.run_splitOnP (· = delim) (fun entry => [entry]) content
  refine ⟨_, _, hsplit, ?_⟩
  rw [getlineAll, hemit, List.flatMap_singleton']

/-- Dropping the empty entries, `getline` reads exactly the non-empty pieces. -/
theorem getlineAll_filter (delim : Char) (content : List Char) :
    (getlineAll delim content).filter (· ≠ [])
      = (content.splitOnP (· = delim)).filter (· ≠ []) := by
  obtain ⟨pieces, last, hsplit, hget⟩ := getlineAll_splitOnP delim content
  rw [hget, hsplit]
  by_cases h : last = [] <;> simp [h]

example : getlineAll '\n' "a\n\nb".toList = ["a".toList, [], "b".toList] := by decide

end FeatureExtractor
