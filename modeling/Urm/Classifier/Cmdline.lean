import Urm.Classifier.Scan

/-! # `ParseCmdline` — the argument loop, and the argument it never reaches

    `ParseCmdline` reads `/proc/<pid>/cmdline` whole and walks it by index: `start` marks
    the beginning of the current argument, and at every `'\0'` the argument
    `content.substr(start, i - start)` is tokenized (when it is not empty) and `start`
    moves past the terminator.  Nothing happens after the loop.

    The development runs in three steps:

    * `parseCmdlineStep_sim` — one index of the loop simulates one `Scan.step` on the
      abstract state (tokens, `content.substr(start, i - start)`);
    * `parseCmdline_foldl_sim` — by induction, the loop over the first `n` indices
      simulates the scan of `content.take n`;
    * `parseCmdline_eq` — with the run lemma of `Scan`: the tokens are those of every
      NUL-free piece of the file BUT THE LAST.  A final argument with no `'\0'` after it
      is dropped (`parseCmdline_drops_unterminated`), unlike `getline`-based readers
      (`getlineAll_splitOnP`) and `ParseLog`, which flush after their loops. -/

namespace FeatureExtractor

variable (fp : FeaturePruner) (delimiters : List Char)

/-- The inner loop of `ParseCmdline` on one argument: split it, drop the delimiter
    characters of each piece, trim, and keep what is non-empty, not digits-only and longer
    than one character. -/
def cmdlineArgTokens (arg : List Char) : List (List Char) :=
  (fp.splitString arg delimiters).filterMap fun raw =>
    let cleaned := fp.trim (raw.filter fun c => c ∉ delimiters)
    if cleaned ≠ [] ∧ !fp.isDigitsOnly cleaned ∧ cleaned.length > 1 then some cleaned
    else none

/-- The loop state of `ParseCmdline`: the start of the current argument and the tokens
    pushed so far. -/
structure CmdlineLoop where
  start : Nat
  tokens : List (List Char)

/-- Index `i` of `ParseCmdline`'s loop: at a `'\0'` the argument
    `content.substr(start, i - start)` is tokenized if `i > start`, and `start = i + 1`. -/
def parseCmdlineStep (content : List Char) (st : CmdlineLoop) (i : Nat) : CmdlineLoop :=
  if content[i]? = some '\x00' then
    ⟨i + 1, if i > st.start then
        st.tokens ++ cmdlineArgTokens fp delimiters ((content.drop st.start).take (i - st.start))
      else st.tokens⟩
  else st

/-- `FeatureExtractor::ParseCmdline` on the bytes of `/proc/<pid>/cmdline`, `none` when
    the file cannot be opened. -/
def parseCmdline : Option (List Char) → List (List Char)
  | none => []
  | some content =>
      ((List.range content.length).foldl (parseCmdlineStep fp delimiters content)
        ⟨0, []⟩).tokens

/-- What `ParseCmdline` does with an argument at its terminator: tokenize it unless it is
    empty. -/
def flushArg (arg : List Char) : List (List Char) :=
  if arg = [] then [] else cmdlineArgTokens fp delimiters arg

/-- The argument read so far at index `i`: `content.substr(start, i - start)`. -/
def CmdlineLoop.pending (content : List Char) (st : CmdlineLoop) (i : Nat) : List Char :=
  (content.drop st.start).take (i - st.start)

/-- The loop state seen as a scan over the characters before `i`. -/
def CmdlineLoop.toScan (content : List Char) (st : CmdlineLoop) (i : Nat) : Scan :=
  ⟨st.tokens, st.pending content i⟩

-- ── simulation of the index loop by the scan ────────────────────────────────

/-- **STEP**: index `i` of the loop is one scan step on `content[i]`. -/
theorem parseCmdlineStep_sim {content : List Char} {st : CmdlineLoop} {i : Nat}
    (hi : i < content.length) (hst : st.start ≤ i) :
    (parseCmdlineStep fp delimiters content st i).start ≤ i + 1 ∧
      (parseCmdlineStep fp delimiters content st i).toScan content (i + 1)
        = Scan.step (· = '\x00') (flushArg fp delimiters) (st.toScan content i)
            content[i] := by
  by_cases hc : content[i] = '\x00'
  · have hget : content[i]? = some '\x00' := by rw [List.getElem?_eq_getElem hi, hc]
    refine ⟨by simp [parseCmdlineStep, hget], ?_⟩
    by_cases hgt : i > st.start
    · simp [parseCmdlineStep, hget, hgt, CmdlineLoop.toScan, CmdlineLoop.pending, Scan.step,
        hc, flushArg, show i - st.start ≠ 0 by omega, show ¬content.length ≤ st.start by omega]
    · simp [parseCmdlineStep, hget, hgt, CmdlineLoop.toScan, CmdlineLoop.pending, Scan.step,
        hc, flushArg, show i - st.start = 0 by omega]
  · have hnot : content[i]? ≠ some '\x00' := by simpa [List.getElem?_eq_getElem hi] using hc
    refine ⟨by simp [parseCmdlineStep, hnot]; omega, ?_⟩
    simp only [parseCmdlineStep, hnot, if_false, Scan.step, hc, decide_False,
      Bool.false_eq_true, CmdlineLoop.toScan, CmdlineLoop.pending]
    rw [show i + 1 - st.start = i - st.start + 1 by omega, List.take_succ,
      List.getElem?_drop, show st.start + (i - st.start) = i by omega,
      List.getElem?_eq_getElem hi]
    rfl

/-- **RUN**: the loop over the first `n` indices is the scan of `content.take n`. -/
theorem parseCmdline_foldl_sim (content : List Char) {n : Nat} (hn : n ≤ content.length) :
    ((List.range n).foldl (parseCmdlineStep fp delimiters content) ⟨0, []⟩).start ≤ n ∧
      ((List.range n).foldl (parseCmdlineStep fp delimiters content) ⟨0, []⟩).toScan
          content n
        = Scan.run (· = '\x00') (flushArg fp delimiters) (content.take n) := by
  induction n with
  | zero => simp [CmdlineLoop.toScan, CmdlineLoop.pending, Scan.run]
  | succ n ih =>
      obtain ⟨hstart, hsim⟩ := ih (by omega)
      have hlt : n < content.length := by omega
      obtain ⟨hstart', hstep⟩ := parseCmdlineStep_sim fp delimiters hlt hstart
      rw [List.range_succ, List.foldl_append, List.foldl_cons, List.foldl_nil]
      refine ⟨hstart', ?_⟩
      rw [hstep, hsim, List.take_succ, List.getElem?_eq_getElem hlt, Scan.run,
        Scan.run, Option.toList_some, List.foldl_append, List.foldl_cons, List.foldl_nil]

/-- `ParseCmdline` emits what the scan of the whole file has flushed. -/
theorem parseCmdline_eq_run (content : List Char) :
    parseCmdline fp delimiters (some content)
      = (Scan.run (· = '\x00') (flushArg fp delimiters) content).emitted := by
  have h := (parseCmdline_foldl_sim fp delimiters content (le_refl _)).2
  rw [List.take_length] at h
  rw [← h]
  rfl

/-- Flushing through `flushArg` is tokenizing the non-empty arguments. -/
theorem flatMap_flushArg (args : List (List Char)) :
    args.flatMap (flushArg fp delimiters)
      = (args.filter (· ≠ [])).flatMap (cmdlineArgTokens fp delimiters) := by
  rw [flatMap_filter_ne_nil]
  rfl

/-- **ParseCmdline**: the tokens are those of every non-empty NUL-free piece of the file
    but the last piece, which has no `'\0'` after it. -/
theorem parseCmdline_eq (content : List Char) :
    parseCmdline fp delimiters (some content)
      = (((content.splitOnP (· = '\x00')).dropLast).filter (· ≠ [])).flatMap
          (cmdlineArgTokens fp delimiters) := by
  rw [parseCmdline_eq_run, (Scan.run_splitOnP _ _ content).2, flatMap_flushArg]

-- ── the argument with no terminator ─────────────────────────────────────────

/-- The tokens of every maximal non-empty NUL-free segment of the file, the last one
    included: what a reader that also flushed after its loop would return. -/
def cmdlineSegmentTokens (content : List Char) : List (List Char) :=
  ((content.splitOnP (· = '\x00')).filter (· ≠ [])).flatMap (cmdlineArgTokens fp delimiters)

/-- The segment reading is `ParseCmdline` followed by the flush of the piece still pending
    when the loop ends. -/
theorem cmdlineSegmentTokens_eq (content : List Char) :
    cmdlineSegmentTokens fp delimiters content
      = parseCmdline fp delimiters (some content)
          ++ flushArg fp delimiters
              (Scan.run (· = '\x00') (flushArg fp delimiters) content).pending := by
  rw [parseCmdline_eq_run, Scan.run_flush_pending, flatMap_flushArg]
  rfl

/-- A file whose last byte is `'\0'` loses nothing: `ParseCmdline` reads every segment. -/
theorem parseCmdline_eq_of_terminated {content : List Char}
    (h : content.getLast? = some '\x00') :
    parseCmdline fp delimiters (some content) = cmdlineSegmentTokens fp delimiters content := by
  obtain ⟨init, rfl⟩ : ∃ init, content = init ++ ['\x00'] :=
    ⟨content.dropLast, (List.dropLast_append_getLast? _ h).symm⟩
  rw [cmdlineSegmentTokens_eq]
  simp [Scan.run, Scan.step, flushArg]

/-- `ls -l` as the kernel writes it, every argument ended by a NUL. -/
theorem parseCmdline_ls :
    "ls\x00-l\x00".toList.getLast? = some '\x00' ∧
      parseCmdline FeaturePruner.passthrough ".=/!".toList (some "ls\x00-l\x00".toList)
        = cmdlineSegmentTokens FeaturePruner.passthrough ".=/!".toList "ls\x00-l\x00".toList :=
  ⟨by decide, parseCmdline_eq_of_terminated _ _ (by decide)⟩

/-- An argument at the end of the file with no `'\0'` after it is dropped whatever the
    helpers compute: `ParseCmdline` reads every NUL-free piece but the last, so `"abc"`
    yields nothing, and `"a\0bc"` loses `"bc"`. -/
theorem parseCmdline_drops_unterminated :
    (∀ (fp : FeaturePruner) (delimiters content : List Char),
      parseCmdline fp delimiters (some content)
        = (((content.splitOnP (· = '\x00')).dropLast).filter (· ≠ [])).flatMap
            (cmdlineArgTokens fp delimiters)) ∧
    (∀ fp : FeaturePruner, parseCmdline fp ".=/!".toList (some "abc".toList) = []) ∧
      cmdlineSegmentTokens FeaturePruner.passthrough ".=/!".toList "abc".toList
        = ["abc".toList] ∧
      parseCmdline FeaturePruner.passthrough ".=/!".toList (some "a\x00bc".toList) = [] ∧
      cmdlineSegmentTokens FeaturePruner.passthrough ".=/!".toList "a\x00bc".toList
        = ["bc".toList] :=
  ⟨parseCmdline_eq, fun _ => rfl, by decide, by decide, by decide⟩

end FeatureExtractor
