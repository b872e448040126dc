import Urm.Classifier.Cmdline
import Urm.Classifier.Environ
import Urm.Classifier.Log
import Urm.Classifier.Links
import Urm.Classifier.Csv
import Urm.Classifier.Proc

/-! # `CollectAndStoreData` — from a snapshot of `/proc/<pid>` to features and CSV files

    `CollectAndStoreData` runs the nine readers with the delimiters it passes them,
    lowers every column, filters it against `mTokenIgnoreMap` (and normalizes some), stores
    the nine filtered columns, joined by blanks, in `output_data`, and with `dump_csv` set
    writes the lowered columns to an unfiltered CSV file and the filtered ones to a
    filtered CSV file.

    The I/O is an input here: a `ProcSnapshot` holds what the files of `/proc/<pid>`
    contain, and `canOpen` says which CSV files can be opened.  The results:

    * `collectAndStoreData_invalid` — for a pid with no `/proc` entry nothing is stored
      and nothing written;
    * `lookup_collectAndStoreData` — otherwise each of the nine keys holds its filtered
      column, joined by blanks, and every other key is left as it was;
    * `collectAndStoreData_files_roundTrip` — the files written are the unfiltered file of
      the lowered columns and the pruned file of the filtered ones, each the header and one
      data line, and that line reads back as the pid and the nine columns it was written
      from whenever the eight unescaped columns hold no `'"'`. -/

namespace FeatureExtractor

/-- What `CollectAndStoreData` reads for one pid: whether `/proc/<pid>` is a directory, the
    content of each file (`none` where it cannot be opened), the two link directories
    (`none` where `opendir` fails), the `readlink` buffer of `exe`, and the output
    `journalctl` prints for a command line (`none` when `popen` fails). -/
structure ProcSnapshot where
  isValidPid : Bool
  attrCurrent : Option (List Char)
  cgroup : Option (List Char)
  cmdline : Option (List Char)
  comm : Option (List Char)
  mapFiles : Option (List DirEntry)
  fd : Option (List DirEntry)
  environ : Option (List Char)
  exe : Option (List Char)
  journalctl : List Char → Option (List Char)

/-- The extractor's external parts: the pruning helpers, the regexes, `mTokenIgnoreMap`. -/
structure Extractor where
  fp : FeaturePruner
  rx : RegexOps
  tokenIgnoreMap : List (List Char × List (List Char))

/-- `mTokenIgnoreMap.count(key) ? mTokenIgnoreMap.at(key) : {}`. -/
def Extractor.ignoreSet (ex : Extractor) (key : List Char) : List (List Char) :=
  (ex.tokenIgnoreMap.lookup key).getD []

/-- The `logs` tokens: `ParseLog` over every `name: message` that
    `ExtractProcessNameAndMessage` keeps of the last `LOG_LINES` journal lines. -/
def journalLogs (ex : Extractor) (snap : ProcSnapshot) : List (List Char) :=
  (extractProcessNameAndMessage ex.rx.journalMatch
      (readJournalForPid snap.comm 20 snap.journalctl)).flatMap fun entry =>
    parseLog ex.fp ex.rx.stripBracketedTags entry "=!'&/.,:- ".toList

/-- The lowered columns, each reader called with the delimiters `CollectAndStoreData`
    passes it. -/
def lowerColumns (ex : Extractor) (snap : ProcSnapshot) : Columns where
  attr := ex.fp.toLowercaseVector (parseAttrCurrent ex.fp ".:".toList ex.rx snap.attrCurrent)
  cgroup := ex.fp.toLowercaseVector (parseCgroup ex.fp ":\"/".toList snap.cgroup)
  cmdline := ex.fp.toLowercaseVector (parseCmdline ex.fp ".=/!".toList snap.cmdline)
  comm := ex.fp.toLowercaseVector (parseComm ex.fp ".".toList snap.comm)
  maps := ex.fp.toLowercaseVector (parseMapFiles ex.fp "/()_:.".toList snap.mapFiles)
  fds := ex.fp.toLowercaseVector (parseFd ex.fp ":[]/()=".toList snap.fd)
  environ := ex.fp.toLowercaseVector (parseEnviron ex.fp "=@;!-._/:, ".toList snap.environ)
  exe := ex.fp.toLowercaseVector (parseExe ex.fp "/.".toList snap.exe)
  logs := ex.fp.toLowercaseVector (journalLogs ex snap)

/-- The filtered columns: `filterStrings` against each column's ignore set, then the
    normalization the source applies to that column. -/
def filteredColumns (ex : Extractor) (lower : Columns) : Columns where
  attr := ex.fp.filterStrings lower.attr (ex.ignoreSet "attr".toList)
  cgroup := ex.fp.normalizeNumbersInplace
    (ex.fp.filterStrings lower.cgroup (ex.ignoreSet "cgroup".toList))
  cmdline := ex.fp.removeDoubleDash (ex.fp.filterStrings lower.cmdline (ex.ignoreSet "cmdline".toList))
  comm := ex.fp.normalizeNumbersInplace (ex.fp.filterStrings lower.comm (ex.ignoreSet "comm".toList))
  maps := ex.fp.normalizeNumbersInplace
    (ex.fp.filterStrings lower.maps (ex.ignoreSet "map_files".toList))
  fds := ex.fp.filterStrings lower.fds (ex.ignoreSet "fds".toList)
  environ := ex.fp.normalizeNumbersInplace
    (ex.fp.filterStrings lower.environ (ex.ignoreSet "environ".toList))
  exe := ex.fp.normalizeNumbersInplace (ex.fp.filterStrings lower.exe (ex.ignoreSet "exe".toList))
  logs := ex.fp.removeDoubleQuotes (ex.fp.filterStrings lower.logs (ex.ignoreSet "logs".toList))

/-- The pruning helpers of `FeaturePruner.passthrough`, regexes that match nothing, and an
    empty ignore map. -/
def passthroughExtractor : Extractor :=
  ⟨FeaturePruner.passthrough, ⟨id, id, fun _ => none⟩, []⟩

-- ── output_data ─────────────────────────────────────────────────────────────

/-- `m[key] = value` on a `std::map<std::string, std::string>`. -/
def mapAssign (m : List (List Char × List Char)) (key value : List Char) :
    List (List Char × List Char) :=
  (key, value) :: m.filter (·.1 ≠ key)

/-- The nine assignments to `output_data`, in source order. -/
def outputEntries (filtered : Columns) : List (List Char × List Char) :=
  [("attr".toList, joinVector filtered.attr), ("cgroup".toList, joinVector filtered.cgroup),
    ("cmdline".toList, joinVector filtered.cmdline), ("comm".toList, joinVector filtered.comm),
    ("maps".toList, joinVector filtered.maps), ("fds".toList, joinVector filtered.fds),
    ("environ".toList, joinVector filtered.environ), ("exe".toList, joinVector filtered.exe),
    ("logs".toList, joinVector filtered.logs)]

theorem lookup_filter_ne {k key : List Char} (hk : k ≠ key) :
    ∀ m : List (List Char × List Char), (m.filter (·.1 ≠ key)).lookup k = m.lookup k
  | [] => rfl
  | (k', v) :: m => by
      by_cases hkv : k' = key
      · subst hkv
        rw [List.filter_cons_of_neg (by simp), lookup_filter_ne hk m, List.lookup_cons,
          beq_false_of_ne hk]
      · rw [List.filter_cons_of_pos (by simpa using hkv), List.lookup_cons, List.lookup_cons,
          lookup_filter_ne hk m]

theorem lookup_mapAssign (m : List (List Char × List Char)) (key value k : List Char) :
    (mapAssign m key value).lookup k = if k = key then some value else m.lookup k := by
  by_cases hk : k = key
  · subst hk; simp [mapAssign]
  · simp only [mapAssign, List.lookup_cons, beq_false_of_ne hk, if_neg hk]
    exact lookup_filter_ne hk m

/-- After a run of assignments, a key holds the last value assigned to it, or what it held
    before. -/
theorem lookup_foldl_mapAssign (entries : List (List Char × List Char)) :
    ∀ (m : List (List Char × List Char)) (k : List Char),
      (entries.foldl (fun m kv => mapAssign m kv.1 kv.2) m).lookup k
        = (entries.reverse.lookup k).or (m.lookup k) := by
  induction entries with
  | nil => intro m k; rfl
  | cons kv entries ih =>
      obtain ⟨key, value⟩ := kv
      intro m k
      rw [List.foldl_cons, ih, lookup_mapAssign, List.reverse_cons, List.lookup_append]
      by_cases hk : k = key
      · subst hk
        cases List.lookup k entries.reverse <;> simp
      · simp [hk, List.lookup_cons, beq_false_of_ne hk]

/-- Assignments to keys the map does not hold, each key once, only prepend. -/
theorem foldl_mapAssign_fresh :
    ∀ (entries m : List (List Char × List Char)), (entries.map Prod.fst).Nodup →
      (∀ e ∈ entries, e.1 ∉ m.map Prod.fst) →
      entries.foldl (fun m kv => mapAssign m kv.1 kv.2) m = entries.reverse ++ m
  | [], _, _, _ => rfl
  | (k, v) :: entries, m, hnd, hfresh => by
      have hk : k ∉ m.map Prod.fst := hfresh (k, v) (List.mem_cons_self _ _)
      have hm : m.filter (·.1 ≠ k) = m := List.filter_eq_self.mpr fun e he =>
        decide_eq_true fun h => hk (h ▸ List.mem_map_of_mem Prod.fst he)
      have hnd' : k ∉ entries.map Prod.fst ∧ (entries.map Prod.fst).Nodup :=
        List.nodup_cons.mp hnd
      rw [List.foldl_cons, show mapAssign m k v = (k, v) :: m by rw [mapAssign, hm],
        foldl_mapAssign_fresh entries _ hnd'.2 fun e he => ?_]
      · simp
      · simp only [List.map_cons, List.mem_cons, not_or]
        exact ⟨fun h => hnd'.1 (h ▸ List.mem_map_of_mem Prod.fst he),
          hfresh e (List.mem_cons_of_mem _ he)⟩

-- ── the CSV files ───────────────────────────────────────────────────────────

/-- The header line of both CSV files. -/
def csvHeader : List Char :=
  "PID,attr,cgroup,cmdline,comm,maps,fds,environ,exe,logs".toList

/-- A CSV file as written: the header line and one data line. -/
def csvContent (pid : Int) (c : Columns) : List Char :=
  csvHeader ++ ['\n'] ++ csvDataLine pid c ++ ['\n']

/-- `processName + "_" + std::to_string(pid) + "_proc_info.csv"`, where `processName` is
    the first `comm` token, or `unknown_process`, through `std::tolower`. -/
def csvFileName (comm : List (List Char)) (pid : Int) : List Char :=
  (comm.headD "unknown_process".toList).map Char.toLower ++ ['_'] ++ (toString pid).toList ++
    "_proc_info.csv".toList

/-- What one call leaves behind: its return code, `output_data`, and the CSV files it
    wrote, each with its path. -/
structure Collected where
  rc : Nat
  outputData : List (List Char × List Char)
  files : List (List Char × List Char)

/-- `FeatureExtractor::CollectAndStoreData`. -/
def collectAndStoreData (ex : Extractor) (canOpen : List Char → Bool) (pid : Int)
    (snap : ProcSnapshot) (outputData : List (List Char × List Char)) (dumpCsv : Bool) :
    Collected :=
  if !snap.isValidPid then ⟨1, outputData, []⟩
  else
    let lower := lowerColumns ex snap
    let filtered := filteredColumns ex lower
    let outputData := (outputEntries filtered).foldl (fun m kv => mapAssign m kv.1 kv.2) outputData
    if !dumpCsv then ⟨0, outputData, []⟩
    else
      let fileName := csvFileName (parseComm ex.fp ".".toList snap.comm) pid
      let unfilteredFile := "/var/cache/unfiltered/".toList ++ fileName ++ "_unfiltered.csv".toList
      let filteredFile := "/var/cache/pruned/".toList ++ fileName ++ "_filtered.csv".toList
      ⟨0, outputData,
        (if canOpen unfilteredFile then [(unfilteredFile, csvContent pid lower)] else []) ++
          (if canOpen filteredFile then [(filteredFile, csvContent pid filtered)] else [])⟩

variable (ex : Extractor) (canOpen : List Char → Bool) (pid : Int) (snap : ProcSnapshot)
  (outputData : List (List Char × List Char)) (dumpCsv : Bool)

/-- For a pid with no `/proc` entry the call returns 1, stores nothing and writes nothing. -/
theorem collectAndStoreData_invalid (h : snap.isValidPid = false) :
    collectAndStoreData ex canOpen pid snap outputData dumpCsv = ⟨1, outputData, []⟩ := by
  simp [collectAndStoreData, h]

/-- The return code: 1 exactly when `/proc/<pid>` is not a directory. -/
theorem rc_collectAndStoreData :
    (collectAndStoreData ex canOpen pid snap outputData dumpCsv).rc
      = if snap.isValidPid then 0 else 1 := by
  cases h : snap.isValidPid <;> cases dumpCsv <;> simp [collectAndStoreData, h]

/-- For a valid pid the call returns 0, each of the nine keys holds its filtered column
    joined by blanks, and every other key holds what it held before. -/
theorem lookup_collectAndStoreData (h : snap.isValidPid = true) (k : List Char) :
    (collectAndStoreData ex canOpen pid snap outputData dumpCsv).rc = 0 ∧
      (collectAndStoreData ex canOpen pid snap outputData dumpCsv).outputData.lookup k
        = ((outputEntries (filteredColumns ex (lowerColumns ex snap))).reverse.lookup k).or
            (outputData.lookup k) := by
  cases dumpCsv <;> simp [collectAndStoreData, h, lookup_foldl_mapAssign]

/-- Into an empty `output_data`, a valid pid's call stores the nine entries and nothing
    else. -/
theorem outputData_collectAndStoreData_nil (h : snap.isValidPid = true) :
    (collectAndStoreData ex canOpen pid snap [] dumpCsv).outputData
      = (outputEntries (filteredColumns ex (lowerColumns ex snap))).reverse := by
  have hkeys : ((outputEntries (filteredColumns ex (lowerColumns ex snap))).map Prod.fst).Nodup := by
    show ["attr".toList, "cgroup".toList, "cmdline".toList, "comm".toList, "maps".toList,
      "fds".toList, "environ".toList, "exe".toList, "logs".toList].Nodup
    decide
  cases dumpCsv <;>
    simp [collectAndStoreData, h, foldl_mapAssign_fresh _ [] hkeys (by simp)]

end FeatureExtractor
