import Urm.Classifier.Pruner
import Mathlib.Data.List.Nodup

/-! # `ParseMapFiles` and `ParseFd` — deduplicated link targets

    Both readers walk a directory of symbolic links (`/proc/<pid>/map_files`,
    `/proc/<pid>/fd`), skip the entries whose name starts with `'.'` and those whose
    `readlink` fails, split every target, and push each accepted token unless
    `std::find` already sees it in `results`.  They differ only in the test a token
    passes, so the loop is one definition, `scanLinkTargets`, with the test as a
    parameter; `ParseFd`'s test checks the token itself for emptiness before the helper
    runs, which `ParseMapFiles`' test does not (`parseFd_skips_empty_token`).

    The specification is `firstOccurrences`: every element once, in order of first
    occurrence.  `foldl_pushUnique` is the invariant of the guarded push over a whole run,
    and `scanLinkTargets_eq` lifts it through the two nested loops. -/

namespace FeatureExtractor

-- ── first occurrences ───────────────────────────────────────────────────────

/-- The elements of a list in order of first occurrence, each once. -/
def firstOccurrences : List (List Char) → List (List Char)
  | [] => []
  | a :: as => a :: (firstOccurrences as).filter (· ≠ a)

theorem mem_firstOccurrences {x : List Char} :
    ∀ {l : List (List Char)}, x ∈ firstOccurrences l ↔ x ∈ l
  | [] => Iff.rfl
  | a :: as => by
      by_cases h : x = a
      · simp [firstOccurrences, h]
      · simp [firstOccurrences, h, mem_firstOccurrences]

theorem nodup_firstOccurrences : ∀ l : List (List Char), (firstOccurrences l).Nodup
  | [] => List.nodup_nil
  | a :: as => List.nodup_cons.mpr
      ⟨by simp, (nodup_firstOccurrences as).filter _⟩

/-- Keeping the first occurrences commutes with filtering. -/
theorem firstOccurrences_filter (p : List Char → Bool) :
    ∀ l : List (List Char), firstOccurrences (l.filter p) = (firstOccurrences l).filter p
  | [] => rfl
  | a :: as => by
      by_cases ha : p a
      · simp only [List.filter_cons, ha, if_true, firstOccurrences, firstOccurrences_filter p as,
          List.filter_filter, Bool.and_comm]
      · rw [List.filter_cons_of_neg ha, firstOccurrences, List.filter_cons_of_neg ha,
          firstOccurrences_filter p as, List.filter_filter]
        refine List.filter_congr fun b _ => ?_
        by_cases hba : b = a <;> simp_all

/-- `if (std::find(results.begin(), results.end(), s) == results.end()) results.push_back(s)`. -/
def pushUnique (results : List (List Char)) (s : List Char) : List (List Char) :=
  if s ∈ results then results else results ++ [s]

/-- **INVARIANT**: a run of guarded pushes appends the first occurrences of what is not
    already recorded. -/
theorem foldl_pushUnique (xs : List (List Char)) :
    ∀ results : List (List Char),
      xs.foldl pushUnique results = results ++ firstOccurrences (xs.filter (· ∉ results)) := by
  induction xs with
  | nil => simp [firstOccurrences]
  | cons x xs ih =>
      intro results
      by_cases hx : x ∈ results
      · simp [pushUnique, hx, ih]
      · rw [List.foldl_cons, pushUnique, if_neg hx, ih, List.filter_cons_of_pos (by simpa),
          firstOccurrences, ← firstOccurrences_filter, List.filter_filter]
        simp only [List.mem_append, List.mem_singleton, List.append_assoc, List.singleton_append]
        congr 3
        refine List.filter_congr fun b _ => ?_
        by_cases h1 : b ∈ results <;> by_cases h2 : b = x <;> simp [h1, h2]

-- ── the link readers ────────────────────────────────────────────────────────

/-- A directory entry as `readdir` gives it, with the buffer `readlink` fills for it
    (`none` when `readlink` returns -1). -/
structure DirEntry where
  dName : List Char
  linkTarget : Option (List Char)

/-- The inner loop body: push an accepted token unless it is already recorded. -/
def pushAccepted (accept : List Char → Option (List Char)) (results : List (List Char))
    (tok : List Char) : List (List Char) :=
  match accept tok with
  | none => results
  | some s => pushUnique results s

/-- The outer loop body: skip an entry starting with `'.'` or whose `readlink` failed,
    else run the inner loop over the pieces of its target. -/
def scanEntry (accept : List Char → Option (List Char)) (fp : FeaturePruner)
    (delimiters : List Char) (results : List (List Char)) (entry : DirEntry) :
    List (List Char) :=
  if entry.dName.head? = some '.' then results
  else match entry.linkTarget with
    | none => results
    | some target =>
        (fp.splitString (cString target) delimiters).foldl (pushAccepted accept) results

/-- The loop of `ParseMapFiles` and `ParseFd` over a directory, `none` when `opendir`
    fails. -/
def scanLinkTargets (accept : List Char → Option (List Char)) (fp : FeaturePruner)
    (delimiters : List Char) : Option (List DirEntry) → List (List Char)
  | none => []
  | some entries => entries.foldl (scanEntry accept fp delimiters) []

/-- `ParseMapFiles`' test: keep `normalizeLibraryName(tok)` unless it is empty, of size at
    most one, or digits-only. -/
def mapFilesAccept (fp : FeaturePruner) (tok : List Char) : Option (List Char) :=
  let simplified := fp.normalizeLibraryName tok
  if simplified = [] ∨ simplified.length ≤ 1 then none
  else if fp.isDigitsOnly simplified then none
  else some simplified

/-- `ParseFd`'s test: skip an empty token, then keep `removeDatesAndTimesFromToken(tok)`
    unless it is empty or all `isdigit`. -/
def fdAccept (fp : FeaturePruner) (tok : List Char) : Option (List Char) :=
  if tok = [] then none
  else
    let cleaned := fp.removeDatesAndTimesFromToken tok
    if cleaned = [] then none
    else if cleaned.all Char.isDigit then none
    else some cleaned

/-- `FeatureExtractor::ParseMapFiles` over the listing of `/proc/<pid>/map_files`. -/
def parseMapFiles (fp : FeaturePruner) (delimiters : List Char) :
    Option (List DirEntry) → List (List Char) :=
  scanLinkTargets (mapFilesAccept fp) fp delimiters

/-- `FeatureExtractor::ParseFd` over the listing of `/proc/<pid>/fd`. -/
def parseFd (fp : FeaturePruner) (delimiters : List Char) :
    Option (List DirEntry) → List (List Char) :=
  scanLinkTargets (fdAccept fp) fp delimiters

/-- The targets the loop reads: those of the entries not starting with `'.'` whose
    `readlink` succeeds. -/
def linkTargets (entries : List DirEntry) : List (List Char) :=
  entries.filterMap fun entry =>
    if entry.dName.head? = some '.' then none else entry.linkTarget.map cString

/-- Every accepted token of every target read, in order, duplicates included. -/
def acceptedLinkTokens (accept : List Char → Option (List Char)) (fp : FeaturePruner)
    (delimiters : List Char) (entries : List DirEntry) : List (List Char) :=
  (linkTargets entries).flatMap fun target => (fp.splitString target delimiters).filterMap accept

variable (accept : List Char → Option (List Char)) (fp : FeaturePruner) (delimiters : List Char)

/-- The inner loop: the guarded pushes of the accepted tokens of one target. -/
theorem foldl_pushAccepted (toks results : List (List Char)) :
    toks.foldl (pushAccepted accept) results = (toks.filterMap accept).foldl pushUnique results := by
  induction toks generalizing results with
  | nil => rfl
  | cons tok toks ih =>
      cases h : accept tok <;> simp [pushAccepted, h, ih, List.filterMap_cons]

/-- The outer loop: the guarded pushes of the accepted tokens of every target read. -/
theorem foldl_scanEntry (entries : List DirEntry) (results : List (List Char)) :
    entries.foldl (scanEntry accept fp delimiters) results
      = (acceptedLinkTokens accept fp delimiters entries).foldl pushUnique results := by
  induction entries generalizing results with
  | nil => rfl
  | cons entry entries ih =>
      rw [List.foldl_cons, ih]
      by_cases hdot : entry.dName.head? = some '.'
      · simp [scanEntry, acceptedLinkTokens, linkTargets, hdot]
      · cases htarget : entry.linkTarget with
        | none => simp [scanEntry, acceptedLinkTokens, linkTargets, hdot, htarget]
        | some target =>
            simp [scanEntry, acceptedLinkTokens, linkTargets, hdot, htarget, foldl_pushAccepted,
              List.foldl_append]

/-- **The link readers**: the accepted tokens of all targets read, each once, in order of
    first occurrence. -/
theorem scanLinkTargets_eq (entries : List DirEntry) :
    scanLinkTargets accept fp delimiters (some entries)
      = firstOccurrences (acceptedLinkTokens accept fp delimiters entries) := by
  rw [scanLinkTargets, foldl_scanEntry, foldl_pushUnique]
  simp

/-- The reader's result has no duplicate and holds every accepted token. -/
theorem scanLinkTargets_spec (entries : List DirEntry) :
    scanLinkTargets accept fp delimiters (some entries)
        = firstOccurrences (acceptedLinkTokens accept fp delimiters entries) ∧
      (scanLinkTargets accept fp delimiters (some entries)).Nodup ∧
      ∀ tok ∈ acceptedLinkTokens accept fp delimiters entries,
        tok ∈ scanLinkTargets accept fp delimiters (some entries) := by
  rw [scanLinkTargets_eq]
  exact ⟨rfl, nodup_firstOccurrences _, fun _ => mem_firstOccurrences.mpr⟩

/-- **ParseMapFiles and ParseFd**: each returns the accepted tokens of all the targets it
    reads, once each, in order of first occurrence; so its result has no duplicate and
    holds every accepted token.  `ParseFd` accepts a token only when it is non-empty. -/
theorem parseMapFiles_parseFd_firstOccurrences (entries : List DirEntry) :
    (parseMapFiles fp delimiters (some entries)
        = firstOccurrences (acceptedLinkTokens (mapFilesAccept fp) fp delimiters entries) ∧
      (parseMapFiles fp delimiters (some entries)).Nodup ∧
      ∀ tok ∈ acceptedLinkTokens (mapFilesAccept fp) fp delimiters entries,
        tok ∈ parseMapFiles fp delimiters (some entries)) ∧
    (parseFd fp delimiters (some entries)
        = firstOccurrences (acceptedLinkTokens (fdAccept fp) fp delimiters entries) ∧
      (parseFd fp delimiters (some entries)).Nodup ∧
      ∀ tok ∈ acceptedLinkTokens (fdAccept fp) fp delimiters entries,
        tok ∈ parseFd fp delimiters (some entries)) :=
  ⟨scanLinkTargets_spec _ fp delimiters entries, scanLinkTargets_spec _ fp delimiters entries⟩

/-- `ParseFd`'s test without its `tok.empty()` guard: keep
    `removeDatesAndTimesFromToken(tok)` unless it is empty or all digits, whatever `tok` is. -/
def fdAcceptUnguarded (fp : FeaturePruner) (tok : List Char) : Option (List Char) :=
  let cleaned := fp.removeDatesAndTimesFromToken tok
  if cleaned = [] then none
  else if cleaned.all Char.isDigit then none
  else some cleaned

/-- With a `splitString` that yields one empty piece and a `removeDatesAndTimesFromToken`
    that turns it into `"x"`, the test without the guard records `"x"`; `ParseFd` skips
    the empty token before the helper runs. -/
theorem parseFd_skips_empty_token :
    parseFd { FeaturePruner.passthrough with
        splitString := fun _ _ => [[]], removeDatesAndTimesFromToken := fun _ => ['x'] }
        ":[]/()=".toList (some [⟨['3'], some "/dev/null".toList⟩]) = [] ∧
      firstOccurrences (acceptedLinkTokens (fdAcceptUnguarded { FeaturePruner.passthrough with
          splitString := fun _ _ => [[]], removeDatesAndTimesFromToken := fun _ => ['x'] })
        { FeaturePruner.passthrough with
          splitString := fun _ _ => [[]], removeDatesAndTimesFromToken := fun _ => ['x'] }
        ":[]/()=".toList [⟨['3'], some "/dev/null".toList⟩]) = [['x']] := by
  decide

end FeatureExtractor
