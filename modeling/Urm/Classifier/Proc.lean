import Urm.Classifier.Scan

/-! # The single-file readers: `attr/current`, `cgroup`, `comm`, `exe`

    Four readers take one file or link of `/proc/<pid>` and split it with
    `FeaturePruner::splitString`.  Their line handling is `std::getline`'s
    (`getlineAll`): `ParseAttrCurrent` and `ParseComm` use the first line only,
    `ParseCgroup` every line, the last one whether or not a `'\n'` ends it
    (`parseCgroup_eq`).  `ParseComm` keeps only trimmed tokens longer than one
    character, `ParseExe` only tokens that are not digits-only. -/

namespace FeatureExtractor

variable (fp : FeaturePruner) (delimiters : List Char)

/-- `FeatureExtractor::ParseAttrCurrent`: the first line of `/proc/<pid>/attr/current`
    without its ` (enforce)` suffix, split; nothing when the file cannot be opened or has
    no line. -/
def parseAttrCurrent (rx : RegexOps) : Option (List Char) → List (List Char)
  | none => []
  | some content =>
      match (getlineAll '\n' content).head? with
      | none => []
      | some line => fp.splitString (rx.stripEnforce line) delimiters

/-- `FeatureExtractor::ParseCgroup`: every line of `/proc/<pid>/cgroup`, split. -/
def parseCgroup : Option (List Char) → List (List Char)
  | none => []
  | some content => (getlineAll '\n' content).flatMap fun line => fp.splitString line delimiters

/-- `FeatureExtractor::ParseComm`: the first line of `/proc/<pid>/comm` (empty when there
    is none), split, each piece trimmed and kept when longer than one character. -/
def parseComm : Option (List Char) → List (List Char)
  | none => []
  | some content =>
      (fp.splitString ((getlineAll '\n' content).headD []) delimiters).filterMap fun t =>
        let cleaned := fp.trim t
        if cleaned ≠ [] ∧ cleaned.length > 1 then some cleaned else none

/-- `FeatureExtractor::ParseExe` on the buffer `readlink` fills for `/proc/<pid>/exe`
    (`none` when it returns -1): the pieces of the path that are not digits-only. -/
def parseExe : Option (List Char) → List (List Char)
  | none => []
  | some buf => (fp.splitString (cString buf) delimiters).filter fun part => !fp.isDigitsOnly part

/-- `ParseCgroup` splits every line of the file; a last line with no `'\n'` after it is
    read as well. -/
theorem parseCgroup_eq (content : List Char) :
    ∃ pieces last, content.splitOnP (· = '\n') = pieces ++ [last] ∧
      parseCgroup fp delimiters (some content)
        = (pieces ++ if last = [] then [] else [last]).flatMap
            fun line => fp.splitString line delimiters := by
  obtain ⟨pieces, last, hsplit, hget⟩ := getlineAll_splitOnP '\n' content
  exact ⟨pieces, last, hsplit, by rw [parseCgroup, hget]⟩

end FeatureExtractor
