import Urm.Classifier.Scan

/-! # `ParseLog` and the journal reader

    The `logs` feature comes from the last lines `journalctl` prints for the process.
    `ReadJournalForPid` collects them with `fgets` into a 4096-byte buffer,
    `ExtractProcessNameAndMessage` keeps `name: message` of the lines its regex matches,
    and `ParseLog` cuts each of those at the delimiters with a character loop whose
    pending token is flushed at every delimiter and once more after the loop.

    The headline is `parseLog_eq_runs`: the streaming loop computes exactly the
    split-based reading — the maximal delimiter-free runs, through `removePunctuation`,
    filtered.  It rests on the run lemma of `Scan`: the in-loop flushes take every run but
    the last, the post-loop flush takes the last; and (`mem_parseLog`) each token comes from
    one non-empty run holding no delimiter.

    The journal side is `readJournalForPid_eq_iff`: for a NUL-free output, the lines are
    exactly the well-formed `fgets` chunks of the output (`FgetsChunks`), which determine
    the chunking (`fgetsAll_eq_iff`: the loop's chunks are well formed, and well-formed
    chunks are the ones the loop reads from their concatenation). -/

namespace FeatureExtractor

variable (fp : FeaturePruner)

/-- The flush of `ParseLog`, the same inside its loop and after it: a non-empty token
    goes through `removePunctuation` and is kept when non-empty, not a single-character
    token and not digits-only. -/
def flushLogToken (token : List Char) : List (List Char) :=
  if token = [] then [] else
    let token := fp.removePunctuation token
    if token ≠ [] ∧ !fp.isSingleCharToken token ∧ !fp.isDigitsOnly token then [token] else []

/-- `FeatureExtractor::ParseLog`: drop the bracketed tags and every `'\n'`, then scan,
    flushing the pending token at each delimiter and once more after the loop. -/
def parseLog (stripBracketedTags : List Char → List Char) (input delimiters : List Char) :
    List (List Char) :=
  let cleanedInput := (stripBracketedTags input).filter (· ≠ '\n')
  let s := Scan.run (· ∈ delimiters) (flushLogToken fp) cleanedInput
  s.emitted ++ flushLogToken fp s.pending

/-- The split-based reading of a log line: the maximal non-empty runs of the cleaned line
    with no delimiter, in order, through `removePunctuation`, kept when non-empty, not a
    single-character token and not digits-only. -/
def logRunTokens (stripBracketedTags : List Char → List Char) (input delimiters : List Char) :
    List (List Char) :=
  let cleanedInput := (stripBracketedTags input).filter (· ≠ '\n')
  (((cleanedInput.splitOnP (· ∈ delimiters)).filter (· ≠ [])).map fp.removePunctuation).filter
    fun token => token ≠ [] ∧ !fp.isSingleCharToken token ∧ !fp.isDigitsOnly token

/-- Flushing every run through `flushLogToken` is mapping and filtering the non-empty
    runs. -/
theorem flatMap_flushLogToken (runs : List (List Char)) :
    runs.flatMap (flushLogToken fp)
      = ((runs.filter (· ≠ [])).map fp.removePunctuation).filter
          fun token => token ≠ [] ∧ !fp.isSingleCharToken token ∧ !fp.isDigitsOnly token := by
  induction runs with
  | nil => rfl
  | cons r runs ih =>
      rw [List.flatMap_cons, ih]
      by_cases hr : r = []
      · simp [hr, flushLogToken]
      · simp only [flushLogToken, hr, if_false, List.filter_cons, List.map_cons]
        split <;> simp_all

/-- Every token of `ParseLog` is `removePunctuation` of one non-empty run of the cleaned
    line holding no delimiter. -/
theorem mem_parseLog {stripBracketedTags : List Char → List Char} {input delimiters t : List Char}
    (h : t ∈ parseLog fp stripBracketedTags input delimiters) :
    ∃ run ∈ ((stripBracketedTags input).filter (· ≠ '\n')).splitOnP (· ∈ delimiters),
      run ≠ [] ∧ (∀ c ∈ run, c ∉ delimiters) ∧ t = fp.removePunctuation run := by
  rw [parseLog, Scan.run_flush_pending, List.mem_flatMap] at h
  obtain ⟨run, hrun, ht⟩ := h
  by_cases hr : run = []
  · simp [hr, flushLogToken] at ht
  · refine ⟨run, hrun, hr, fun c hc => ?_, ?_⟩
    · simpa using Scan.splitOnP_sep_free _ _ run hrun c hc
    · simp only [flushLogToken, hr, if_false] at ht
      split at ht
      · exact List.mem_singleton.mp ht
      · cases ht

/-- **ParseLog**: the character loop with its two flushes computes the split-based
    reading, on every line and for every delimiter set, and never emits a token that is not
    `removePunctuation` of one non-empty run of the cleaned line holding no delimiter. -/
theorem parseLog_eq_runs (stripBracketedTags : List Char → List Char)
    (input delimiters : List Char) :
    parseLog fp stripBracketedTags input delimiters
        = logRunTokens fp stripBracketedTags input delimiters ∧
      ∀ t ∈ parseLog fp stripBracketedTags input delimiters,
        ∃ run ∈ ((stripBracketedTags input).filter (· ≠ '\n')).splitOnP (· ∈ delimiters),
          run ≠ [] ∧ (∀ c ∈ run, c ∉ delimiters) ∧ t = fp.removePunctuation run := by
  refine ⟨?_, fun _ => mem_parseLog fp⟩
  rw [parseLog, Scan.run_flush_pending, flatMap_flushLogToken]
  rfl

example : parseLog FeaturePruner.passthrough id "sshd: Accepted key for root".toList
    " :".toList = ["sshd", "Accepted", "key", "for", "root"].map String.toList := by decide

-- ── the journal lines ───────────────────────────────────────────────────────

/-- The chunks `while (fgets(buffer, 4096, pipe))` reads from the output of a command: a
    chunk ends after a `'\n'`, after 4095 characters, or at the end of the output. -/
def fgetsAll (output : List Char) : List (List Char) :=
  go output []
where
  go : List Char → List Char → List (List Char)
    | [], buffer => if buffer = [] then [] else [buffer]
    | c :: cs, buffer =>
        if c = '\n' ∨ (buffer ++ [c]).length = 4095 then (buffer ++ [c]) :: go cs []
        else go cs (buffer ++ [c])

/-- `fgets` loses nothing: its chunks put back together are the output. -/
theorem fgetsAll_go_flatten (output buffer : List Char) :
    (fgetsAll.go output buffer).flatten = buffer ++ output := by
  induction output generalizing buffer with
  | nil => by_cases h : buffer = [] <;> simp [fgetsAll.go, h]
  | cons c cs ih =>
      simp only [fgetsAll.go]
      split <;> simp [ih]

/-- What `fgets` into a 4096-byte buffer reads: non-empty chunks of at most 4095
    characters, a newline only as a chunk's last character, and every chunk but the last
    ended by a newline or full. -/
def FgetsChunks (chunks : List (List Char)) : Prop :=
  (∀ chunk ∈ chunks, chunk ≠ [] ∧ chunk.length ≤ 4095 ∧ '\n' ∉ chunk.dropLast) ∧
    ∀ chunk ∈ chunks.dropLast, chunk.getLast? = some '\n' ∨ chunk.length = 4095

theorem mem_dropLast_cons {α : Type} {x y : α} {l : List α} (h : y ∈ (x :: l).dropLast) :
    y = x ∨ y ∈ l.dropLast := by
  cases l with
  | nil => cases h
  | cons z l => simpa only [List.dropLast_cons₂, List.mem_cons] using h

/-- The loop's chunks are well formed, from a buffer holding no newline and not full. -/
theorem fgetsAll_go_chunks (output buffer : List Char) (hn : '\n' ∉ buffer)
    (hb : buffer.length < 4095) : FgetsChunks (fgetsAll.go output buffer) := by
  induction output generalizing buffer with
  | nil =>
      by_cases h : buffer = []
      · simp [fgetsAll.go, h, FgetsChunks]
      · simp only [fgetsAll.go, h, ↓reduceIte, FgetsChunks]
        exact ⟨by simpa using ⟨h, by omega, fun hd => hn (List.dropLast_subset _ hd)⟩, by simp⟩
  | cons c cs ih =>
      simp only [fgetsAll.go]
      split
      · rename_i hcut
        obtain ⟨hall, hlast⟩ := ih [] (by simp) (by simp)
        refine ⟨fun chunk hchunk => ?_, fun chunk hchunk => ?_⟩
        · rcases List.mem_cons.mp hchunk with rfl | hchunk
          · simp only [List.dropLast_concat, List.length_append, List.length_singleton]
            exact ⟨by simp, by omega, hn⟩
          · exact hall chunk hchunk
        · rcases mem_dropLast_cons hchunk with rfl | hchunk
          · rcases hcut with rfl | hfull
            · simp
            · exact .inr hfull
          · exact hlast chunk hchunk
      · rename_i hcut
        push_neg at hcut
        refine ih _ ?_ ?_
        · simp [hn, Ne.symm hcut.1]
        · simp only [List.length_append, List.length_singleton] at hcut ⊢
          omega

/-- From a buffer whose run up to the end of `pre` holds no newline and is not full, the
    loop reads `pre` into the buffer without cutting. -/
theorem fgetsAll_go_append (pre rest buffer : List Char) (hn : '\n' ∉ buffer ++ pre)
    (hb : (buffer ++ pre).length < 4095) :
    fgetsAll.go (pre ++ rest) buffer = fgetsAll.go rest (buffer ++ pre) := by
  induction pre generalizing buffer with
  | nil => simp
  | cons x pre ih =>
      have hx : x ≠ '\n' := fun e => hn (by simp [e])
      have hlen : (buffer ++ [x]).length ≠ 4095 := by
        simp only [List.length_append, List.length_cons, List.length_nil] at hb ⊢
        omega
      rw [List.cons_append, fgetsAll.go, if_neg (not_or.mpr ⟨hx, hlen⟩),
        ih _ (by simpa using hn) (by simpa using hb)]
      simp

/-- Well-formed chunks are the ones `fgets` reads from their concatenation. -/
theorem fgetsAll_of_chunks :
    ∀ chunks : List (List Char), FgetsChunks chunks → fgetsAll chunks.flatten = chunks
  | [], _ => rfl
  | chunk :: chunks, ⟨hall, hlast⟩ => by
      obtain ⟨hne, hlen, hnl⟩ := hall chunk (List.mem_cons_self _ _)
      obtain ⟨pre, x, rfl⟩ := List.eq_nil_or_concat chunk |>.resolve_left hne
      simp only [List.concat_eq_append] at hall hlast hlen hnl ⊢
      rw [fgetsAll, List.flatten_cons, List.append_assoc,
        fgetsAll_go_append _ _ [] (by simpa using hnl) (by simp at hlen ⊢; omega),
        List.nil_append, List.singleton_append, fgetsAll.go]
      cases chunks with
      | nil => split <;> simp [fgetsAll.go]
      | cons d ds =>
          have hrest : FgetsChunks (d :: ds) := ⟨fun c hc => hall c (List.mem_cons_of_mem _ hc),
            fun c hc => hlast c (List.mem_cons_of_mem _ hc)⟩
          have hcut := (hlast (pre ++ [x]) (by simp)).imp_left (by simpa using ·)
          rw [if_pos hcut, ← fgetsAll, fgetsAll_of_chunks (d :: ds) hrest]

/-- **FGETS**: the loop `while (fgets(buffer, 4096, pipe))` reads a command's output as
    exactly the chunks that are well formed and put back together give the output. -/
theorem fgetsAll_eq_iff (output : List Char) (chunks : List (List Char)) :
    fgetsAll output = chunks ↔ chunks.flatten = output ∧ FgetsChunks chunks := by
  constructor
  · rintro rfl
    exact ⟨by simpa using fgetsAll_go_flatten output [], fgetsAll_go_chunks output [] (by simp)
      (by simp)⟩
  · rintro ⟨rfl, h⟩
    exact fgetsAll_of_chunks chunks h

/-- The command `ReadJournalForPid` hands to `popen`, with the first line of `comm`. -/
def journalCommand (numLines : Nat) (comm : List Char) : List Char :=
  "journalctl --no-pager -n ".toList ++ (toString numLines).toList ++ " _COMM=".toList ++ comm

/-- `FeatureExtractor::ReadJournalForPid`: nothing when `/proc/<pid>/comm` cannot be
    opened or `popen` fails; else every `fgets` chunk of the output of
    `journalctl --no-pager -n <numLines> _COMM=<comm>`, cut at its first NUL as
    `lines.emplace_back(buffer)` does. -/
def readJournalForPid (commFile : Option (List Char)) (numLines : Nat)
    (journalctl : List Char → Option (List Char)) : List (List Char) :=
  match commFile with
  | none => []
  | some content =>
      match journalctl (journalCommand numLines ((getlineAll '\n' content).headD [])) with
      | none => []
      | some output => (fgetsAll output).map cString

/-- **THE JOURNAL LINES**: when `/proc/<pid>/comm` opens and `popen` runs the command for
    its first line, and the output holds no NUL, `ReadJournalForPid` returns exactly the
    well-formed `fgets` chunks of the output: put back together they give the output,
    each is non-empty, at most 4095 characters, with a newline only at its end, and each
    but the last ends with a newline or is full. -/
theorem readJournalForPid_eq_iff {content output : List Char} {numLines : Nat}
    {journalctl : List Char → Option (List Char)}
    (hrun : journalctl (journalCommand numLines ((getlineAll '\n' content).headD []))
      = some output)
    (hnul : '\x00' ∉ output) (lines : List (List Char)) :
    readJournalForPid (some content) numLines journalctl = lines ↔
      lines.flatten = output ∧ FgetsChunks lines := by
  have hflat : (fgetsAll output).flatten = output := ((fgetsAll_eq_iff output _).mp rfl).1
  have hchunks : ∀ chunk ∈ fgetsAll output, cString chunk = chunk := fun chunk hc =>
    List.takeWhile_eq_self_iff.mpr fun c hcc =>
      decide_eq_true fun e => hnul (e ▸ hflat ▸ List.mem_flatten.mpr ⟨chunk, hc, hcc⟩)
  simp only [readJournalForPid, hrun]
  rw [List.map_congr_left hchunks, List.map_id', fgetsAll_eq_iff]

/-- A journal of two lines, the last with no newline after it. -/
theorem readJournalForPid_two_lines :
    let journalctl : List Char → Option (List Char) := fun _ => some "a\nb".toList
    journalctl (journalCommand 20 ((getlineAll '\n' "sshd\n".toList).headD []))
        = some "a\nb".toList ∧ '\x00' ∉ "a\nb".toList ∧
      (readJournalForPid (some "sshd\n".toList) 20 journalctl = ["a\n".toList, "b".toList] ↔
        ["a\n".toList, "b".toList].flatten = "a\nb".toList ∧
          FgetsChunks ["a\n".toList, "b".toList]) :=
  ⟨rfl, by decide,
    @readJournalForPid_eq_iff "sshd\n".toList "a\nb".toList 20 _ rfl (by decide) _⟩

/-- `FeatureExtractor::ExtractProcessNameAndMessage`: `name: message` for every line the
    journal pattern matches. -/
def extractProcessNameAndMessage (journalMatch : List Char → Option (List Char × List Char))
    (journalLines : List (List Char)) : List (List Char) :=
  journalLines.filterMap fun line =>
    (journalMatch line).map fun m => m.1 ++ ": ".toList ++ m.2

end FeatureExtractor
