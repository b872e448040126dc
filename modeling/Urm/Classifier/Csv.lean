import Urm.Classifier.Pruner

/-! # The CSV rows of `CollectAndStoreData`, read back under RFC 4180

    With `dump_csv` set, `CollectAndStoreData` writes one header line and one data line to
    an unfiltered and to a filtered CSV file: the pid, then nine columns, each written as
    `,"` + the column's tokens separated by `,` + `"`.  Only the environ column doubles
    the `'"'` of its tokens; `write_csv_field` and `write_filtered_field` write the other
    eight columns as they are.

    `Csv.parseRecord` reads one record under the quoting rules of RFC 4180.  The
    development proves the writer's round trip (`parseRecord_csvDataLine`): when no token
    of the eight unescaped columns holds a `'"'`, the data line reads back as exactly ten
    fields, the pid and the nine joined columns.  The environ column needs no such
    condition (`parseFrom_quoted_escape`).  Without it the field boundaries shift:
    `csvDataLine_quote_shift` is a cmdline token `a","b` read back as two fields. -/

namespace Csv

/-- Where an RFC 4180 record parser stands. -/
inductive State
  | fieldStart
  | unquoted
  | quoted
  | quoteSeen
  deriving DecidableEq, Repr

/-- A character a non-escaped field may hold: anything but a comma, a double quote, CR
    and LF. -/
def plainChar (c : Char) : Bool :=
  c ≠ ',' ∧ c ≠ '"' ∧ c ≠ '\r' ∧ c ≠ '\n'

/-- One record under the quoting rules of RFC 4180, from `state`, with the field `cur`
    read so far and the fields `acc` before it: fields are separated by `,`; a field is
    non-escaped (plain characters only) or escaped (between `'"'`s, a `'"'` inside written
    `""`, every other character taken as it is).  `none` for a malformed record. -/
def parseFrom : State → List Char → List Char → List (List Char) → Option (List (List Char))
  | .fieldStart, [], _, acc => some (acc ++ [[]])
  | .fieldStart, c :: cs, _, acc =>
      if c = '"' then parseFrom .quoted cs [] acc
      else if c = ',' then parseFrom .fieldStart cs [] (acc ++ [[]])
      else if plainChar c then parseFrom .unquoted cs [c] acc
      else none
  | .unquoted, [], cur, acc => some (acc ++ [cur])
  | .unquoted, c :: cs, cur, acc =>
      if c = ',' then parseFrom .fieldStart cs [] (acc ++ [cur])
      else if plainChar c then parseFrom .unquoted cs (cur ++ [c]) acc
      else none
  | .quoted, [], _, _ => none
  | .quoted, c :: cs, cur, acc =>
      if c = '"' then parseFrom .quoteSeen cs cur acc
      else parseFrom .quoted cs (cur ++ [c]) acc
  | .quoteSeen, [], cur, acc => some (acc ++ [cur])
  | .quoteSeen, c :: cs, cur, acc =>
      if c = '"' then parseFrom .quoted cs (cur ++ ['"']) acc
      else if c = ',' then parseFrom .fieldStart cs [] (acc ++ [cur])
      else none

/-- The fields of one record (a line without its line break). -/
def parseRecord (line : List Char) : Option (List (List Char)) :=
  parseFrom .fieldStart line [] []

variable {c : Char} (cs cur : List Char) (acc : List (List Char))

theorem parseFrom_fieldStart_quote : parseFrom .fieldStart ('"' :: cs) cur acc
    = parseFrom .quoted cs [] acc := rfl

theorem parseFrom_fieldStart_plain (h : plainChar c) : parseFrom .fieldStart (c :: cs) cur acc
    = parseFrom .unquoted cs [c] acc := by
  simp only [plainChar, decide_eq_true_eq] at h
  simp [parseFrom, h.1, h.2.1, plainChar, h.2.2]

theorem parseFrom_unquoted_comma : parseFrom .unquoted (',' :: cs) cur acc
    = parseFrom .fieldStart cs [] (acc ++ [cur]) := rfl

theorem parseFrom_unquoted_plain (h : plainChar c) : parseFrom .unquoted (c :: cs) cur acc
    = parseFrom .unquoted cs (cur ++ [c]) acc := by
  simp only [plainChar, decide_eq_true_eq] at h
  simp [parseFrom, h.1, plainChar, h.2]

theorem parseFrom_quoted_quote : parseFrom .quoted ('"' :: cs) cur acc
    = parseFrom .quoteSeen cs cur acc := rfl

theorem parseFrom_quoted_other (h : c ≠ '"') : parseFrom .quoted (c :: cs) cur acc
    = parseFrom .quoted cs (cur ++ [c]) acc := by
  simp [parseFrom, h]

theorem parseFrom_quoteSeen_quote : parseFrom .quoteSeen ('"' :: cs) cur acc
    = parseFrom .quoted cs (cur ++ ['"']) acc := rfl

theorem parseFrom_quoteSeen_comma : parseFrom .quoteSeen (',' :: cs) cur acc
    = parseFrom .fieldStart cs [] (acc ++ [cur]) := rfl

end Csv

namespace FeatureExtractor

open Csv

/-- A token as the environ column writes it: every `'"'` doubled. -/
def escapeQuotes (t : List Char) : List Char :=
  t.flatMap fun ch => if ch = '"' then ['"', '"'] else [ch]

/-- `write_csv_field` and `write_filtered_field`: `,"`, the tokens separated by `,`, then
    `"`, with nothing escaped. -/
def writeCsvField (vec : List (List Char)) : List Char :=
  ",\"".toList ++ [','].intercalate vec ++ ['"']

/-- The environ column: the same, with every `'"'` of a token doubled. -/
def writeEnvironField (vec : List (List Char)) : List Char :=
  ",\"".toList ++ [','].intercalate (vec.map escapeQuotes) ++ ['"']

/-- The nine token columns of a CSV row, in the order of the header
    `PID,attr,cgroup,cmdline,comm,maps,fds,environ,exe,logs`. -/
structure Columns where
  attr : List (List Char)
  cgroup : List (List Char)
  cmdline : List (List Char)
  comm : List (List Char)
  maps : List (List Char)
  fds : List (List Char)
  environ : List (List Char)
  exe : List (List Char)
  logs : List (List Char)

/-- The columns in header order. -/
def Columns.toList (c : Columns) : List (List (List Char)) :=
  [c.attr, c.cgroup, c.cmdline, c.comm, c.maps, c.fds, c.environ, c.exe, c.logs]

/-- The data line `CollectAndStoreData` writes to either file, without its `"\n"`. -/
def csvDataLine (pid : Int) (c : Columns) : List Char :=
  (toString pid).toList ++ writeCsvField c.attr ++ writeCsvField c.cgroup ++
    writeCsvField c.cmdline ++ writeCsvField c.comm ++ writeCsvField c.maps ++
    writeCsvField c.fds ++ writeEnvironField c.environ ++ writeCsvField c.exe ++
    writeCsvField c.logs

/-- No token of the eight columns written unescaped holds a `'"'`. -/
def Columns.RawQuoteFree (c : Columns) : Prop :=
  ∀ col ∈ [c.attr, c.cgroup, c.cmdline, c.comm, c.maps, c.fds, c.exe, c.logs],
    ∀ t ∈ col, '"' ∉ t

instance (c : Columns) : Decidable c.RawQuoteFree :=
  inferInstanceAs (Decidable (∀ col ∈ [c.attr, c.cgroup, c.cmdline, c.comm, c.maps, c.fds,
    c.exe, c.logs], ∀ t ∈ col, '"' ∉ t))

-- ── reading one field back ──────────────────────────────────────────────────

/-- An escaped field as written: `"`, the escaped content, `"`. -/
def quotedField (s : List Char) : List Char :=
  '"' :: (escapeQuotes s ++ ['"'])

theorem escapeQuotes_cons (c : Char) (s : List Char) :
    escapeQuotes (c :: s) = (if c = '"' then ['"', '"'] else [c]) ++ escapeQuotes s := rfl

/-- Inside an escaped field, escaped content reads back as the content. -/
theorem parseFrom_quoted_escape (s rest cur : List Char) (acc : List (List Char)) :
    parseFrom .quoted (escapeQuotes s ++ rest) cur acc = parseFrom .quoted rest (cur ++ s) acc := by
  induction s generalizing cur with
  | nil => simp [escapeQuotes]
  | cons c s ih =>
      by_cases hc : c = '"'
      · subst hc
        rw [escapeQuotes_cons, if_pos rfl, List.append_assoc, List.cons_append,
          List.cons_append, List.nil_append, parseFrom_quoted_quote, parseFrom_quoteSeen_quote, ih]
        simp
      · rw [escapeQuotes_cons, if_neg hc, List.append_assoc, List.cons_append, List.nil_append,
          parseFrom_quoted_other _ _ _ hc, ih]
        simp

/-- A whole escaped field, read from the start of a field. -/
theorem parseFrom_quotedField (s rest : List Char) (cur : List Char) (acc : List (List Char)) :
    parseFrom .fieldStart (quotedField s ++ rest) cur acc = parseFrom .quoteSeen rest s acc := by
  rw [quotedField, List.cons_append, parseFrom_fieldStart_quote, List.append_assoc,
    parseFrom_quoted_escape, List.singleton_append, parseFrom_quoted_quote, List.nil_append]

/-- A non-escaped field of plain characters, read up to the comma after it. -/
theorem parseFrom_unquoted_plains {s : List Char} (hs : ∀ c ∈ s, plainChar c)
    (rest cur : List Char) (acc : List (List Char)) :
    parseFrom .unquoted (s ++ ',' :: rest) cur acc
      = parseFrom .fieldStart rest [] (acc ++ [cur ++ s]) := by
  induction s generalizing cur with
  | nil => simp [parseFrom_unquoted_comma]
  | cons c s ih =>
      rw [List.cons_append, parseFrom_unquoted_plain _ _ _ (hs c (List.mem_cons_self c s)),
        ih (fun d hd => hs d (List.mem_cons_of_mem c hd))]
      simp

/-- A first field of plain characters, read up to the comma after it. -/
theorem parseFrom_fieldStart_plains {s : List Char} (hs : ∀ c ∈ s, plainChar c)
    (rest : List Char) (acc : List (List Char)) :
    parseFrom .fieldStart (s ++ ',' :: rest) [] acc = parseFrom .fieldStart rest [] (acc ++ [s]) := by
  cases s with
  | nil => rfl
  | cons c s =>
      rw [List.cons_append, parseFrom_fieldStart_plain _ _ _ (hs c (List.mem_cons_self c s)),
        parseFrom_unquoted_plains (fun d hd => hs d (List.mem_cons_of_mem c hd))]
      simp

/-- **FIELDS**: a run of `,`-prefixed escaped fields after a closed escaped field reads
    back field by field. -/
theorem parseFrom_quotedFields (fs : List (List Char)) :
    ∀ (cur : List Char) (acc : List (List Char)),
      parseFrom .quoteSeen (fs.flatMap fun f => ',' :: quotedField f) cur acc
        = some (acc ++ cur :: fs) := by
  induction fs with
  | nil => intro cur acc; rfl
  | cons f fs ih =>
      intro cur acc
      rw [List.flatMap_cons, List.cons_append, parseFrom_quoteSeen_comma, parseFrom_quotedField,
        ih]
      simp

-- ── the pid field ───────────────────────────────────────────────────────────

theorem digitChar_plain : ∀ k < 10, plainChar (Nat.digitChar k) := by decide

theorem toDigitsCore_succ (f n : Nat) (ds : List Char) :
    Nat.toDigitsCore 10 (f + 1) n ds
      = if n / 10 = 0 then Nat.digitChar (n % 10) :: ds
        else Nat.toDigitsCore 10 f (n / 10) (Nat.digitChar (n % 10) :: ds) := rfl

/-- A decimal digit string holds only the digits `digitChar` gives below ten. -/
theorem mem_toDigitsCore {f n : Nat} {ds : List Char} {c : Char}
    (h : c ∈ Nat.toDigitsCore 10 f n ds) : c ∈ ds ∨ ∃ k < 10, c = Nat.digitChar k := by
  induction f generalizing n ds with
  | zero => exact .inl h
  | succ f ih =>
      have hd : ∀ {c ds}, c ∈ Nat.digitChar (n % 10) :: ds →
          c ∈ ds ∨ ∃ k < 10, c = Nat.digitChar k := fun hc => by
        rcases List.mem_cons.mp hc with rfl | hc
        · exact .inr ⟨_, Nat.mod_lt n (by decide), rfl⟩
        · exact .inl hc
      rw [toDigitsCore_succ] at h
      split at h
      · exact hd h
      · rcases ih h with h | h
        · exact hd h
        · exact .inr h

/-- The printed pid is a non-escaped field: digits, and a `'-'` when negative. -/
theorem pid_plain (pid : Int) : ∀ c ∈ (toString pid).toList, plainChar c := by
  have hnat : ∀ m : Nat, ∀ c ∈ (toString m).toList, plainChar c := fun m c hc => by
    have hc' : c ∈ Nat.toDigitsCore 10 (m + 1) m [] := hc
    rcases mem_toDigitsCore hc' with h | ⟨k, hk, rfl⟩
    · cases h
    · exact digitChar_plain k hk
  cases pid with
  | ofNat m => exact hnat m
  | negSucc m =>
      intro c hc
      simp only [toString, String.toList, String.data_append, List.mem_append] at hc
      rcases hc with hc | hc
      · simp at hc; subst hc; decide
      · exact hnat (m + 1) c hc

-- ── the round trip ──────────────────────────────────────────────────────────

/-- Doubling the quotes of each token is doubling the quotes of the joined column. -/
theorem escapeQuotes_intercalate (vec : List (List Char)) :
    [','].intercalate (vec.map escapeQuotes) = escapeQuotes ([','].intercalate vec) := by
  induction vec with
  | nil => rfl
  | cons a vec ih =>
      cases vec with
      | nil => simp [List.intercalate]
      | cons b vec =>
          simp only [List.map_cons] at ih ⊢
          simp [List.intercalate, List.intersperse_cons_cons, escapeQuotes] at ih ⊢
          simp [ih]

theorem escapeQuotes_of_quote_free {t : List Char} (h : '"' ∉ t) : escapeQuotes t = t := by
  induction t with
  | nil => rfl
  | cons c t ih =>
      have hc : c ≠ '"' := fun hc => h (hc ▸ List.mem_cons_self c t)
      simp [escapeQuotes, hc] at ih ⊢
      exact ih (fun h' => h (List.mem_cons_of_mem c h'))

/-- An unescaped column whose tokens hold no `'"'` is written as an escaped field. -/
theorem writeCsvField_eq {vec : List (List Char)} (h : ∀ t ∈ vec, '"' ∉ t) :
    writeCsvField vec = ',' :: quotedField ([','].intercalate vec) := by
  have hmap : vec.map escapeQuotes = vec := by
    conv_rhs => rw [← List.map_id vec]
    exact List.map_congr_left fun t ht => escapeQuotes_of_quote_free (h t ht)
  rw [quotedField, ← escapeQuotes_intercalate, hmap]
  rfl

/-- The environ column is always written as an escaped field. -/
theorem writeEnvironField_eq (vec : List (List Char)) :
    writeEnvironField vec = ',' :: quotedField ([','].intercalate vec) := by
  rw [writeEnvironField, escapeQuotes_intercalate, quotedField]
  rfl

/-- Under `RawQuoteFree`, the data line is the pid followed by nine escaped fields. -/
theorem csvDataLine_eq (pid : Int) {c : Columns} (h : c.RawQuoteFree) :
    csvDataLine pid c = (toString pid).toList ++
      (c.toList.map ([','].intercalate)).flatMap fun f => ',' :: quotedField f := by
  have hcol : ∀ col ∈ [c.attr, c.cgroup, c.cmdline, c.comm, c.maps, c.fds, c.exe, c.logs],
      writeCsvField col = ',' :: quotedField ([','].intercalate col) :=
    fun col hcol => writeCsvField_eq (h col hcol)
  rw [csvDataLine, hcol c.attr (by simp), hcol c.cgroup (by simp), hcol c.cmdline (by simp),
    hcol c.comm (by simp), hcol c.maps (by simp), hcol c.fds (by simp), writeEnvironField_eq,
    hcol c.exe (by simp), hcol c.logs (by simp)]
  simp [Columns.toList]

/-- **ROUND TRIP**: when no token of the eight unescaped columns holds a `'"'`, the data
    line reads back under RFC 4180 as exactly ten fields: the pid, then the nine columns,
    each its tokens joined by `,`. -/
theorem parseRecord_csvDataLine (pid : Int) {c : Columns} (h : c.RawQuoteFree) :
    parseRecord (csvDataLine pid c)
      = some ((toString pid).toList :: c.toList.map ([','].intercalate)) := by
  rw [csvDataLine_eq pid h, parseRecord, Columns.toList, List.map_cons, List.flatMap_cons,
    List.cons_append, parseFrom_fieldStart_plains (pid_plain pid), parseFrom_quotedField,
    parseFrom_quotedFields]
  rfl

/-- The columns of a process whose only feature is the command-line token `a","b`. -/
def quoteShiftColumns : Columns :=
  ⟨[], [], ["a\",\"b".toList], [], [], [], [], [], []⟩

/-- A `'"'` in an unescaped column shifts the field boundaries: with the cmdline token
    `a","b` the data line reads back as eleven fields, the cmdline column cut in two,
    and not as the pid and the nine joined columns. -/
theorem csvDataLine_quote_shift :
    parseRecord (csvDataLine 4242 quoteShiftColumns)
        = some ["4242".toList, [], [], ['a'], ['b'], [], [], [], [], [], []] ∧
      parseRecord (csvDataLine 4242 quoteShiftColumns)
        ≠ some ((toString (4242 : Int)).toList :: quoteShiftColumns.toList.map ([','].intercalate)) := by
  decide

end FeatureExtractor
