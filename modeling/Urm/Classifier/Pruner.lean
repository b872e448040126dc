import Mathlib.Data.List.Basic

/-! # The pruning helpers — the extractor's external string routines

    `FeatureExtractor` turns the files under `/proc/<pid>` into lists of tokens.  The
    string work is split between the extractor's own loops and calls into
    `FeaturePruner`, whose bodies live outside the extractor, and into `std::regex`.  The
    model keeps every loop of the extractor and takes those routines as the fields of two
    records, so each theorem of the development holds for WHATEVER they compute.

    A `std::string` is its list of characters, a `std::vector<std::string>` a list of
    those, an in-place routine on a vector a function returning the new vector, and an
    `unordered_set` of strings the list of its members. -/

/-- The `FeaturePruner` routines the extractor calls, as uninterpreted functions. -/
structure FeaturePruner where
  splitString : List Char → List Char → List (List Char)
  trim : List Char → List Char
  isDigitsOnly : List Char → Bool
  normalizeLibraryName : List Char → List Char
  removeDatesAndTimesFromToken : List Char → List Char
  removePunctuation : List Char → List Char
  isSingleCharToken : List Char → Bool
  isAllSpecialChars : List Char → Bool
  hasDigit : List Char → Bool
  toLowercaseVector : List (List Char) → List (List Char)
  filterStrings : List (List Char) → List (List Char) → List (List Char)
  normalizeNumbersInplace : List (List Char) → List (List Char)
  removeDoubleDash : List (List Char) → List (List Char)
  removeDoubleQuotes : List (List Char) → List (List Char)

/-- The extractor's three `std::regex` evaluations, as uninterpreted functions. -/
structure RegexOps where
  /-- `regex_replace(line, std::regex(R"(\s*\(enforce\))"), "")` in `ParseAttrCurrent`. -/
  stripEnforce : List Char → List Char
  /-- `regex_replace(input, bracketedTag, "")` in `ParseLog`. -/
  stripBracketedTags : List Char → List Char
  /-- `regex_search` with `.*? (\S+)\[(\d+)\]: (.*)`: groups 1 and 3 on a match. -/
  journalMatch : List Char → Option (List Char × List Char)

namespace FeaturePruner

/-- A helper set for running the model on concrete inputs: `splitString` cuts at the
    delimiters and drops empty pieces, the predicates test what their names say, and
    every rewriting routine leaves its input as it is (`removeDoubleQuotes` apart). -/
def passthrough : FeaturePruner where
  splitString s delimiters := (s.splitOnP (fun c => c ∈ delimiters)).filter (· ≠ [])
  trim s := s
  isDigitsOnly s := !s.isEmpty && s.all Char.isDigit
  normalizeLibraryName s := s
  removeDatesAndTimesFromToken s := s
  removePunctuation s := s
  isSingleCharToken s := s.length == 1
  isAllSpecialChars s := !s.isEmpty && s.all (fun c => !c.isAlphanum)
  hasDigit s := s.any Char.isDigit
  toLowercaseVector v := v.map (List.map Char.toLower)
  filterStrings v ignore := v.filter (· ∉ ignore)
  normalizeNumbersInplace v := v
  removeDoubleDash v := v
  removeDoubleQuotes v := v.map (List.filter (· ≠ '"'))

end FeaturePruner

namespace FeatureExtractor

/-- `std::string(buf)` on a C buffer: the characters before the first NUL. -/
def cString (buf : List Char) : List Char :=
  buf.takeWhile (· ≠ '\x00')

/-- `join_vector`: every token followed by a blank, then the last blank popped. -/
def joinVector (vec : List (List Char)) : List Char :=
  (vec.flatMap (· ++ [' '])).dropLast

/-- `join_vector` separates the tokens by single blanks. -/
theorem joinVector_eq_intercalate (vec : List (List Char)) :
    joinVector vec = [' '].intercalate vec := by
  induction vec with
  | nil => rfl
  | cons a rest ih =>
      cases rest with
      | nil => simp [joinVector, List.intercalate]
      | cons b rest =>
          have hne : (b :: rest).flatMap (· ++ [' ']) ≠ [] := by simp
          rw [joinVector, List.flatMap_cons, List.append_assoc, List.singleton_append,
            List.dropLast_append_cons, List.dropLast_cons_of_ne_nil hne, ← joinVector, ih]
          simp [List.intercalate, List.intersperse_cons_cons]

example : joinVector ["ls".toList, "-l".toList] = "ls -l".toList := by decide

end FeatureExtractor
