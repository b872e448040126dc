import Urm.Classifier.Collect

/-! # `MLInference` — what the classifier hands to fastText, and what it concludes

    `MLInference::Classify` collects the features of a pid into an empty `raw_data`
    (without CSV files), checks twice that `/proc/<pid>` still exists, and when some
    feature is non-empty asks `predict` for a label, which it maps to a `CC_TYPE`.
    `predict` concatenates the nine `text_cols_` values, lowered, each followed by a blank
    (a blank alone for a missing column), pops the last blank and runs fastText on the
    line.  fastText itself is a parameter: its top label on a line, if any.

    * `concatenatedText_eq` — the line is the nine values joined by single blanks, so it
      is never empty and `predict`'s "No text features found" branch is dead
      (`predict_eq`);
    * `concatenatedText_collect` — after a successful collection the line is the nine
      filtered columns, in `text_cols_` order, lowered and joined;
    * `classify_eq_classifyColumns` — `Classify` refines `classifyColumns`, the verdict
      stated on the filtered columns alone: `raw_data` and the text assembly add nothing. -/

namespace MLInference

open FeatureExtractor

/-- `text_cols_`, in the order `predict` reads them. -/
def textCols : List (List Char) :=
  ["attr", "cgroup", "cmdline", "comm", "maps", "fds", "environ", "exe", "logs"].map String.toList

/-- `MLInference::normalize_text`: every character through `::tolower`. -/
def normalizeText (text : List Char) : List Char :=
  text.map Char.toLower

/-- What column `col` contributes to the line before its blank: its lowered value, or
    nothing when `raw_data` lacks it. -/
def columnText (rawData : List (List Char × List Char)) (col : List Char) : List Char :=
  match rawData.lookup col with
  | some value => normalizeText value
  | none => []

/-- The line `predict` builds before its `"\n"`: each column's text and a blank, then the
    last blank popped. -/
def concatenatedText (rawData : List (List Char × List Char)) : List Char :=
  let text := textCols.foldl (fun acc col => acc ++ columnText rawData col ++ [' ']) []
  if text ≠ [] ∧ text.getLast? = some ' ' then text.dropLast else text

/-- `if (predicted_label.rfind("__label__", 0) == 0)` strip the prefix. -/
def stripLabelPrefix (label : List Char) : List Char :=
  if "__label__".toList.isPrefixOf label then label.drop 9 else label

/-- `MLInference::predict`, returning its code and `cat`; `ftPredict` is fastText's top
    label on a line, `none` when it returns no prediction. -/
def predict (ftPredict : List Char → Option (List Char))
    (rawData : List (List Char × List Char)) : Nat × List Char :=
  let text := concatenatedText rawData
  if text = [] then (1, "Unknown".toList)
  else match ftPredict (text ++ ['\n']) with
    | none => (1, "Unknown".toList)
    | some label => (0, stripLabelPrefix label)

/-- `CC_TYPE`. -/
inductive CcType
  | app
  | browser
  | game
  | multimedia
  deriving DecidableEq, Repr

/-- The label-to-type mapping at the end of `Classify`. -/
def labelType (label : List Char) : CcType :=
  if label = "app".toList then .app
  else if label = "browser".toList then .browser
  else if label = "game".toList then .game
  else if label = "media".toList then .multimedia
  else .app

/-- `MLInference::Classify`: `alive` are the two answers of `fileExists(proc_path)`.  A
    failed `predict` clears the label, which the mapping sends to `CC_APP`: the source's
    comment speaks of keeping an `UNKNOWN` type, which `CC_TYPE` does not have. -/
def classify (ex : Extractor) (pid : Int) (snap : ProcSnapshot) (alive : Bool × Bool)
    (ftPredict : List Char → Option (List Char)) : CcType :=
  let collected := collectAndStoreData ex (fun _ => false) pid snap [] false
  if collected.rc ≠ 0 then .app
  else if !alive.1 then .app
  else if collected.outputData.any (fun kv => kv.2 ≠ []) then
    if !alive.2 then .app
    else
      let result := predict ftPredict collected.outputData
      labelType (if result.1 ≠ 0 then [] else result.2)
  else .app

-- ── the line fastText sees ──────────────────────────────────────────────────

/-- The loop of `predict` appends each column's text and a blank. -/
theorem foldl_columnText (rawData : List (List Char × List Char)) (cols : List (List Char))
    (acc : List Char) :
    cols.foldl (fun acc col => acc ++ columnText rawData col ++ [' ']) acc
      = acc ++ (cols.map (columnText rawData)).flatMap (· ++ [' ']) := by
  induction cols generalizing acc with
  | nil => simp
  | cons col cols ih => rw [List.foldl_cons, ih]; simp

/-- **THE LINE**: the nine column texts joined by single blanks. -/
theorem concatenatedText_eq (rawData : List (List Char × List Char)) :
    concatenatedText rawData = [' '].intercalate (textCols.map (columnText rawData)) := by
  have hlast : ∀ l : List (List Char), l ≠ [] →
      (l.flatMap (· ++ [' '])).getLast? = some ' ' := fun l hl => by
    rw [← List.dropLast_append_getLast hl, List.flatMap_append]
    simp
  have hne : (textCols.map (columnText rawData)).flatMap (· ++ [' ']) ≠ [] := by
    simp [textCols]
  rw [concatenatedText, foldl_columnText, List.nil_append,
    if_pos ⟨hne, hlast _ (by simp [textCols])⟩, ← joinVector, joinVector_eq_intercalate]

theorem concatenatedText_ne_nil (rawData : List (List Char × List Char)) :
    concatenatedText rawData ≠ [] := by
  rw [concatenatedText_eq]
  simp [textCols, List.intercalate, List.intersperse]

/-- `predict` fails only when fastText has no prediction: the empty-text branch is dead. -/
theorem predict_eq (ftPredict : List Char → Option (List Char))
    (rawData : List (List Char × List Char)) :
    predict ftPredict rawData = match ftPredict (concatenatedText rawData ++ ['\n']) with
      | none => (1, "Unknown".toList)
      | some label => (0, stripLabelPrefix label) := by
  rw [predict, if_neg (concatenatedText_ne_nil rawData)]

/-- **What fastText sees**: after a successful collection into an empty `raw_data`, the
    line is the nine filtered columns, in `text_cols_` order, each joined by blanks and
    lowered, and joined by blanks. -/
theorem concatenatedText_collect (ex : Extractor) (canOpen : List Char → Bool) (pid : Int)
    (snap : ProcSnapshot) (dumpCsv : Bool) (h : snap.isValidPid = true) :
    concatenatedText (collectAndStoreData ex canOpen pid snap [] dumpCsv).outputData
      = [' '].intercalate ((filteredColumns ex (lowerColumns ex snap)).toList.map
          fun col => normalizeText (joinVector col)) := by
  have hcol : ∀ col, columnText (collectAndStoreData ex canOpen pid snap [] dumpCsv).outputData col
      = match (outputEntries (filteredColumns ex (lowerColumns ex snap))).reverse.lookup col with
        | some v => normalizeText v
        | none => [] := fun col => by
    simp [columnText, (lookup_collectAndStoreData ex canOpen pid snap [] dumpCsv h col).2,
      List.lookup_cons]
  rw [concatenatedText_eq]
  simp [textCols, hcol, outputEntries, List.lookup_cons, Columns.toList]

-- ── the verdict ─────────────────────────────────────────────────────────────

/-- The verdict of `Classify` read on the filtered columns: fastText is asked only for a
    pid seen alive at both checks with some column non-empty once joined, on the columns
    joined by blanks and lowered, each column's text joined by blanks. -/
def classifyColumns (cols : List (List (List Char))) (alive : Bool × Bool)
    (ftPredict : List Char → Option (List Char)) : CcType :=
  if alive = (true, true) ∧ cols.any (fun col => joinVector col ≠ []) = true then
    match ftPredict
        ([' '].intercalate (cols.map fun col => normalizeText (joinVector col)) ++ ['\n']) with
    | none => .app
    | some label => labelType (stripLabelPrefix label)
  else .app

/-- **CLASSIFY REFINES THE COLUMN VERDICT**: through `raw_data`, the feature check and
    `predict`'s text assembly, `Classify` reaches `CC_APP` for a pid with no `/proc` entry
    and otherwise exactly the verdict of `classifyColumns` on the nine filtered columns. -/
theorem classify_eq_classifyColumns (ex : Extractor) (pid : Int) (snap : ProcSnapshot)
    (alive : Bool × Bool) (ftPredict : List Char → Option (List Char)) :
    classify ex pid snap alive ftPredict
      = if snap.isValidPid then
          classifyColumns (filteredColumns ex (lowerColumns ex snap)).toList alive ftPredict
        else .app := by
  cases hv : snap.isValidPid
  · simp [classify, collectAndStoreData_invalid _ _ _ _ _ _ hv]
  have hany : (collectAndStoreData ex (fun _ => false) pid snap [] false).outputData.any
      (fun kv => kv.2 ≠ []) = (filteredColumns ex (lowerColumns ex snap)).toList.any
        (fun col => joinVector col ≠ []) := by
    rw [outputData_collectAndStoreData_nil _ _ _ _ _ hv, List.any_reverse]
    rfl
  have hnil : labelType [] = .app := rfl
  obtain ⟨a1, a2⟩ := alive
  cases hp : ftPredict ([' '].intercalate ((filteredColumns ex (lowerColumns ex snap)).toList.map
      fun col => normalizeText (joinVector col)) ++ ['\n']) <;>
    cases a1 <;> cases a2 <;>
    simp only [classify, classifyColumns, hany] <;>
    simp [rc_collectAndStoreData, hv, predict_eq, concatenatedText_collect _ _ _ _ _ hv, hp, hnil]

end MLInference
