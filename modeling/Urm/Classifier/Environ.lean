import Urm.Classifier.Scan

/-! # `ParseEnviron` — the in-place erase loop

    `ParseEnviron` reads `/proc/<pid>/environ` entry by entry with
    `getline(in, entry, '\0')`, splits every non-empty entry, and strips the delimiter
    characters left in each token with an in-place loop:

        for (size_t i = 0; i < token.size();)
            if (delimiters.find(token[i]) != npos) token.erase(i, 1); else ++i;

    The loop advances `i` only when it does not erase, so neither its termination nor the
    absence of skipped characters can be read off one iteration.  `eraseStep` is one
    iteration and `eraseStep_cases` says everything it can do; from it

    * `eraseStep_measure` — every iteration lowers `token.size() - i`, the measure by
      which `eraseLoop` terminates;
    * `eraseStep_view` — every iteration keeps `token[0, i) ++ filter token[i, end)`;
    * `eraseLoop_zero` — the loop leaves the token with every delimiter removed and every
      other character kept, in order;
    * `parseEnviron_eq` — so the reader is the split-based reading of the file with the
      loop replaced by a filter: every non-empty segment, the last one included. -/

namespace FeatureExtractor

/-- The state of the erase loop: the token as erased so far and the index `i`. -/
structure EraseLoop where
  token : List Char
  i : Nat

/-- One iteration of the erase loop; `none` once `i < token.size()` fails. -/
def eraseStep (delimiters : List Char) (s : EraseLoop) : Option EraseLoop :=
  if h : s.i < s.token.length then
    if s.token[s.i] ∈ delimiters then some ⟨s.token.eraseIdx s.i, s.i⟩
    else some ⟨s.token, s.i + 1⟩
  else none

variable {delimiters : List Char} {s s' : EraseLoop}

/-- Everything one iteration can do: erase the delimiter at `i`, or step past a
    character that is not one. -/
theorem eraseStep_cases (h : eraseStep delimiters s = some s') :
    ∃ hi : s.i < s.token.length,
      (s.token[s.i] ∈ delimiters ∧ s' = ⟨s.token.eraseIdx s.i, s.i⟩) ∨
      (s.token[s.i] ∉ delimiters ∧ s' = ⟨s.token, s.i + 1⟩) := by
  unfold eraseStep at h
  split at h
  · rename_i hi
    refine ⟨hi, ?_⟩
    split at h
    · exact .inl ⟨‹_›, (Option.some.inj h).symm⟩
    · exact .inr ⟨‹_›, (Option.some.inj h).symm⟩
  · cases h

/-- **MEASURE**: every iteration lowers `token.size() - i`. -/
theorem eraseStep_measure (h : eraseStep delimiters s = some s') :
    s'.token.length - s'.i < s.token.length - s.i := by
  obtain ⟨hi, ⟨-, rfl⟩ | ⟨-, rfl⟩⟩ := eraseStep_cases h
  · simp only [List.length_eraseIdx_of_lt hi]; omega
  · simp only; omega

/-- `ParseEnviron`'s erase loop, run until `i < token.size()` fails. -/
def eraseLoop (delimiters : List Char) (s : EraseLoop) : List Char :=
  match h : eraseStep delimiters s with
  | none => s.token
  | some s' =>
      have := eraseStep_measure h
      eraseLoop delimiters s'
termination_by s.token.length - s.i

theorem eraseLoop_of_none (h : eraseStep delimiters s = none) :
    eraseLoop delimiters s = s.token := by
  rw [eraseLoop]; split <;> simp_all

theorem eraseLoop_of_some (h : eraseStep delimiters s = some s') :
    eraseLoop delimiters s = eraseLoop delimiters s' := by
  rw [eraseLoop]; split <;> simp_all

/-- What the loop preserves: the part before `i` followed by the rest without its
    delimiters. -/
def EraseLoop.view (delimiters : List Char) (s : EraseLoop) : List Char :=
  s.token.take s.i ++ (s.token.drop s.i).filter fun c => c ∉ delimiters

/-- **INVARIANT**: no iteration changes the view; in particular the character after an
    erased one is examined, not skipped. -/
theorem eraseStep_view (h : eraseStep delimiters s = some s') :
    s'.view delimiters = s.view delimiters := by
  obtain ⟨hi, ⟨hd, rfl⟩ | ⟨hd, rfl⟩⟩ := eraseStep_cases h
  · have hlen : (s.token.take s.i).length = s.i := by simp; omega
    rw [EraseLoop.view, EraseLoop.view, List.eraseIdx_eq_take_drop_succ, List.take_left' hlen,
      List.drop_left' hlen, List.drop_eq_getElem_cons hi,
      List.filter_cons_of_neg (by simpa using hd)]
  · rw [EraseLoop.view, EraseLoop.view, List.take_succ, List.getElem?_eq_getElem hi,
      List.drop_eq_getElem_cons hi, List.filter_cons_of_pos (by simpa using hd)]
    simp only [Option.toList_some, List.append_assoc, List.singleton_append]

/-- At its exit the loop returns its view. -/
theorem eraseLoop_eq_view (s : EraseLoop) : eraseLoop delimiters s = s.view delimiters := by
  induction s using eraseLoop.induct delimiters with
  | case1 s h =>
      have hi : ¬s.i < s.token.length := by
        intro hi
        simp [eraseStep, hi] at h
        split at h <;> cases h
      rw [eraseLoop_of_none h]
      simp [EraseLoop.view, List.take_of_length_le (not_lt.mp hi),
        List.drop_of_length_le (not_lt.mp hi)]
  | case2 s s' h _ ih => rw [eraseLoop_of_some h, ih, eraseStep_view h]

/-- From `i = 0` the loop removes every delimiter and keeps every other character. -/
theorem eraseLoop_zero (t : List Char) :
    eraseLoop delimiters ⟨t, 0⟩ = t.filter fun c => c ∉ delimiters := by
  simp [eraseLoop_eq_view, EraseLoop.view]

/-- **ParseEnviron's erase loop**: every iteration lowers `token.size() - i`, and from
    `i = 0` the loop ends with exactly the non-delimiter characters of the token, in
    order. -/
theorem eraseLoop_terminates_filters (delimiters t : List Char) :
    (∀ s s' : EraseLoop, eraseStep delimiters s = some s' →
        s'.token.length - s'.i < s.token.length - s.i) ∧
      eraseLoop delimiters ⟨t, 0⟩ = t.filter fun c => c ∉ delimiters :=
  ⟨fun _ _ h => eraseStep_measure h, eraseLoop_zero t⟩

-- ── the whole reader ────────────────────────────────────────────────────────

/-- What `ParseEnviron` does with one token of an entry: run the erase loop, then drop
    the result if it is all special characters, empty, or holds a digit. -/
def environToken (fp : FeaturePruner) (delimiters token : List Char) : Option (List Char) :=
  let token := eraseLoop delimiters ⟨token, 0⟩
  if fp.isAllSpecialChars token then none
  else if token ≠ [] ∧ !fp.hasDigit token then some token else none

/-- `FeatureExtractor::ParseEnviron` on the bytes of `/proc/<pid>/environ`, `none` when
    the file cannot be opened. -/
def parseEnviron (fp : FeaturePruner) (delimiters : List Char) :
    Option (List Char) → List (List Char)
  | none => []
  | some content => (getlineAll '\x00' content).flatMap fun entry =>
      if entry = [] then [] else (fp.splitString entry delimiters).filterMap
        (environToken fp delimiters)

variable (fp : FeaturePruner)

/-- What `ParseEnviron` keeps of the pieces of one entry: each piece with its delimiters
    erased, when that is not all special characters, not empty and digit-free. -/
theorem filterMap_environToken (tokens : List (List Char)) :
    tokens.filterMap (environToken fp delimiters)
      = (tokens.map fun token => token.filter fun c => c ∉ delimiters).filter
          fun t => !fp.isAllSpecialChars t ∧ t ≠ [] ∧ !fp.hasDigit t := by
  induction tokens with
  | nil => rfl
  | cons token tokens ih =>
      rw [List.filterMap_cons, ih, List.map_cons, List.filter_cons]
      simp only [environToken, eraseLoop_zero]
      generalize token.filter (fun c => c ∉ delimiters) = t
      split_ifs <;> simp_all

/-- **ParseEnviron** reads every non-empty NUL-free segment of the file, the last one
    included whether or not a `'\0'` follows it, and keeps each piece of a segment with its
    delimiters erased when that is not all special characters, not empty and digit-free. -/
theorem parseEnviron_eq (content : List Char) :
    parseEnviron fp delimiters (some content)
      = ((content.splitOnP (· = '\x00')).filter (· ≠ [])).flatMap fun entry =>
          ((fp.splitString entry delimiters).map fun token =>
              token.filter fun c => c ∉ delimiters).filter
            fun t => !fp.isAllSpecialChars t ∧ t ≠ [] ∧ !fp.hasDigit t := by
  rw [← getlineAll_filter, flatMap_filter_ne_nil]
  simp only [parseEnviron, filterMap_environToken]

end FeatureExtractor
