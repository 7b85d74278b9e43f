import RealmBoot.Archive.Manifest
import Mathlib.Data.List.Basic
import Mathlib.Data.Nat.Find

/-!
# Manifests as They Are Written

A value may be written over several lines: its first piece stands behind the name, and every other
piece has a line of its own that starts with a space. Each line ends with a line feed or with a
carriage return and a line feed, the whole may start with a byte order mark, and behind the
attributes the text ends or goes on after an empty line. However it is done, reading gives the
attributes back. Reading fails only at a line that continues nothing and gives no name, and the
error tells its number.

## Main results

* `readLines_folded`: what the lines of attributes add to those read before.
* `parse_rendering`: reading undoes writing.
* `readLines_eq_error_iff`: the lines at fault, after any attributes.
* `parse_rendering_and_eq_error_iff`: what is written is read, and what is not read is at fault.
-/

namespace RealmBoot

namespace Manifest

/-! ### Writing -/

/-- How a line ends. -/
inductive LineEnd where
  | feed
  | returnFeed
deriving DecidableEq, Repr

/-- The characters that end a line. -/
def LineEnd.text : LineEnd → String
  | .feed => "\n"
  | .returnFeed => "\r\n"

/-- A part of a value that fits in a line, and how its line ends. It has no line feed, and it does
not stop with a carriage return, which would belong to the end of its line. -/
structure Piece where
  /-- The part of the value. -/
  text : String
  /-- The end of its line. -/
  lineEnd : LineEnd
  feed_notMem : '\n' ∉ text.toList
  getLast?_ne_return : text.toList.getLast? ≠ some '\r'

/-- An attribute whose value is cut into pieces. Its name has no blanks, no colons and no byte order
marks. -/
structure Folded where
  /-- The name. -/
  name : String
  /-- The piece behind the name. -/
  first : Piece
  /-- The pieces on lines of their own. -/
  further : List Piece
  name_ne_empty : name ≠ ""
  name_any_isBlank : name.toList.any Text.isBlank = false
  colon_notMem : ':' ∉ name.toList
  mark_notMem : '\ufeff' ∉ name.toList

/-- What may stand behind the attributes. -/
inductive Rest where
  /-- The text ends. -/
  | nothing
  /-- An empty line, and then any text. -/
  | emptyLine (lineEnd : LineEnd) (text : String)
deriving DecidableEq, Repr

/-- A piece and the end of its line. -/
def Piece.written (p : Piece) : String := p.text ++ p.lineEnd.text

/-- The lines of an attribute. -/
def Folded.written (a : Folded) : String :=
  a.name ++ ": " ++ a.first.written ++ String.join (a.further.map fun p => " " ++ p.written)

/-- The pieces of a value, joined. -/
def Folded.value (a : Folded) : String := String.join ((a.first :: a.further).map Piece.text)

/-- What stands behind the attributes. -/
def Rest.written : Rest → String
  | .nothing => ""
  | .emptyLine lineEnd text => lineEnd.text ++ text

/-- A manifest as it is written, with or without a byte order mark before it. -/
def rendering (marked : Bool) (attributes : List Folded) (rest : Rest) : String :=
  (if marked then "\ufeff" else "") ++ String.join (attributes.map Folded.written) ++ rest.written

/-- A version cut in two, under a mark and with either line end. -/
example :
    rendering true
      [⟨"Short-Name", ⟨"job", .returnFeed, by decide, by decide⟩, [],
         by decide, by decide, by decide, by decide⟩,
       ⟨"Plugin-Dependencies", ⟨"api:2.4", .feed, by decide, by decide⟩,
         [⟨"7,scm:1", .feed, by decide, by decide⟩],
         by decide, by decide, by decide, by decide⟩]
      (.emptyLine .feed "Name: other") =
    "\ufeffShort-Name: job\r\nPlugin-Dependencies: api:2.4\n 7,scm:1\n\nName: other" := by
  decide

/-! ### The lines of what is written -/

/-- The lines of an attribute, without their ends. -/
def Folded.lines (a : Folded) : List (List Char) :=
  (a.name.toList ++ ':' :: ' ' :: a.first.text.toList) ::
    a.further.map fun p => ' ' :: p.text.toList

/-- What an attribute says, in characters. -/
def Folded.entry (a : Folded) : List Char × List Char := (a.name.toList, a.value.toList)

/-- The value of a folded attribute is all its pieces, one after the other. -/
theorem Folded.value_toList (a : Folded) :
    a.value.toList = a.first.text.toList ++ a.further.flatMap fun p => p.text.toList := by
  rw [value, String.toList_join, List.map_cons, List.flatMap_cons, List.flatMap_map]

/-- The name of an attribute has no blank in it. -/
theorem Folded.isBlank_of_mem (a : Folded) {c : Char} (hc : c ∈ a.name.toList) :
    Text.isBlank c = false :=
  Bool.eq_false_iff.mpr (List.any_eq_false.mp a.name_any_isBlank c hc)

/-- So no blank is in the name. -/
theorem Folded.blank_notMem (a : Folded) {c : Char} (hc : Text.isBlank c = true) :
    c ∉ a.name.toList := by
  intro hmem
  rw [a.isBlank_of_mem hmem] at hc
  cases hc

/-- Either way to end a line ends it. -/
theorem lines_append_lineEnd {line : List Char} (hfeed : '\n' ∉ line)
    (hreturn : line.getLast? ≠ some '\r') (lineEnd : LineEnd) (rest : List Char) :
    Text.lines (line ++ lineEnd.text.toList ++ rest) = line :: Text.lines rest := by
  cases lineEnd with
  | feed =>
      have hshape : line ++ LineEnd.feed.text.toList ++ rest = line ++ '\n' :: rest := by
        rw [List.append_assoc]
        rfl
      rw [hshape, Text.lines_append_feed hfeed, Text.dropReturn_of_getLast? hreturn]
  | returnFeed =>
      have hshape : line ++ LineEnd.returnFeed.text.toList ++ rest =
          line ++ ['\r'] ++ '\n' :: rest := by
        rw [List.append_assoc, List.append_assoc]
        rfl
      have hfeed' : '\n' ∉ line ++ ['\r'] := by simp [hfeed]
      rw [hshape, Text.lines_append_feed hfeed', Text.dropReturn_append]

/-- A piece stands in one line, together with what is before it. The space between them is there
even if the piece is empty, so the line does not stop with a carriage return. -/
theorem Piece.lines_written (p : Piece) {before : List Char} (hbefore : '\n' ∉ before)
    (rest : List Char) :
    Text.lines (before ++ ' ' :: (p.written.toList ++ rest)) =
      (before ++ ' ' :: p.text.toList) :: Text.lines rest := by
  have hfeed : '\n' ∉ before ++ ' ' :: p.text.toList := by simp [hbefore, p.feed_notMem]
  have hreturn : (before ++ ' ' :: p.text.toList).getLast? ≠ some '\r' := by
    have hlast := p.getLast?_ne_return
    cases htext : p.text.toList.getLast? with
    | none => simp [List.getLast?_append, List.getLast?_cons, htext]
    | some c =>
        rw [htext] at hlast
        simpa [List.getLast?_append, List.getLast?_cons, htext] using hlast
  rw [← lines_append_lineEnd hfeed hreturn p.lineEnd rest, written, String.toList_append]
  simp only [List.append_assoc, List.cons_append]

/-- Each further piece is a line that begins with a blank. -/
theorem lines_further (further : List Piece) (rest : List Char) :
    Text.lines ((String.join (further.map fun p => " " ++ p.written)).toList ++ rest) =
      (further.map fun p => ' ' :: p.text.toList) ++ Text.lines rest := by
  induction further with
  | nil => rfl
  | cons p further ih =>
    have hshape : (String.join ((p :: further).map fun p => " " ++ p.written)).toList ++ rest =
        [] ++ ' ' :: (p.written.toList ++
          ((String.join (further.map fun p => " " ++ p.written)).toList ++ rest)) := by
      simp [String.toList_join]
    rw [hshape, p.lines_written List.not_mem_nil, ih]
    rfl

/-- A folded attribute is written in its own lines. -/
theorem Folded.lines_written (a : Folded) (rest : List Char) :
    Text.lines (a.written.toList ++ rest) = a.lines ++ Text.lines rest := by
  have hfeed : '\n' ∉ a.name.toList ++ [':'] := by
    simpa using a.blank_notMem (by decide)
  have hshape : a.written.toList ++ rest = (a.name.toList ++ [':']) ++ ' ' ::
      (a.first.written.toList ++
        ((String.join (a.further.map fun p => " " ++ p.written)).toList ++ rest)) := by
    simp [written]
  rw [hshape, a.first.lines_written hfeed, lines_further]
  simp [lines]

/-- So attributes are written in their lines, one after the other. -/
theorem lines_attributes (attributes : List Folded) (rest : List Char) :
    Text.lines ((String.join (attributes.map Folded.written)).toList ++ rest) =
      attributes.flatMap Folded.lines ++ Text.lines rest := by
  induction attributes with
  | nil => rfl
  | cons a attributes ih =>
    have hshape : (String.join ((a :: attributes).map Folded.written)).toList ++ rest =
        a.written.toList ++ ((String.join (attributes.map Folded.written)).toList ++ rest) := by
      simp [String.toList_join]
    rw [hshape, a.lines_written, ih, List.flatMap_cons, List.append_assoc]

/-- Without a byte order mark nothing is dropped. -/
theorem dropMark_of_head? {cs : List Char} (h : cs.head? ≠ some '\ufeff') : dropMark cs = cs := by
  unfold dropMark
  split
  · exact absurd rfl h
  · rfl

/-- A mark before the attributes is dropped, and they do not start with one of their own. What comes
first is a name, or else a line end. -/
theorem dropMark_rendering (marked : Bool) (attributes : List Folded) (rest : Rest) :
    dropMark (rendering marked attributes rest).toList =
      (String.join (attributes.map Folded.written)).toList ++ rest.written.toList := by
  cases marked with
  | true => simp [rendering, dropMark]
  | false =>
      have hhead : ((String.join (attributes.map Folded.written)).toList ++
          rest.written.toList).head? ≠ some '\ufeff' := by
        cases attributes with
        | nil =>
            cases rest with
            | nothing => simp [Rest.written]
            | emptyLine lineEnd text => cases lineEnd <;> simp [Rest.written, LineEnd.text]
        | cons a attributes =>
            cases hname : a.name.toList with
            | nil => exact absurd (String.toList_eq_nil_iff.mp hname) a.name_ne_empty
            | cons c cs =>
                have hmark := a.mark_notMem
                rw [hname, List.mem_cons, not_or] at hmark
                simpa [String.toList_join, Folded.written, hname] using Ne.symm hmark.1
      rw [← dropMark_of_head? hhead]
      simp [rendering]

/-! ### What a line says -/

/-- What stands before the first colon of a line, without the blanks at its ends. -/
def nameIn (line : List Char) : List Char := Text.trimChars (line.takeWhile (· ≠ ':'))

/-- A line that gives no name: it has no colon, or there is nothing but blanks before the colon, or
there are blanks inside the name. -/
def Nameless (line : List Char) : Prop :=
  ':' ∉ line ∨ nameIn line = [] ∨ ∃ c ∈ nameIn line, Text.isBlank c = true

/-- A line that begins with a blank continues the one before. -/
theorem Line.ofChars_continuation {line : List Char} (h : line.head? = some ' ') :
    ∃ text, Line.ofChars line = .more text := by
  obtain ⟨text, rfl⟩ := List.head?_eq_some_iff.mp h
  exact ⟨text, rfl⟩

/-- Any other line is read by its first colon. -/
theorem Line.ofChars_of_head? {line : List Char} (hne : line ≠ []) (h : line.head? ≠ some ' ') :
    Line.ofChars line =
      match Text.cut ':' line with
      | none => .malformed
      | some (before, after) =>
        let name := Text.trimChars before
        if name.isEmpty || name.any Text.isBlank then .malformed
        else .attribute name (dropSpace after) := by
  unfold Line.ofChars
  split
  · exact absurd rfl hne
  · exact absurd rfl h
  · rfl

/-- A line without a name is malformed. -/
theorem Line.ofChars_nameless {line : List Char} (hne : line ≠ []) (h : line.head? ≠ some ' ')
    (hname : Nameless line) : Line.ofChars line = .malformed := by
  rw [ofChars_of_head? hne h]
  by_cases hcolon : ':' ∈ line
  · have hbad : ((nameIn line).isEmpty || (nameIn line).any Text.isBlank) = true := by
      rcases hname with hnone | hempty | ⟨c, hc, hblank⟩
      · exact absurd hcolon hnone
      · rw [hempty]
        rfl
      · rw [List.any_eq_true.mpr ⟨c, hc, hblank⟩, Bool.or_true]
    rw [Text.cut_of_mem hcolon]
    exact if_pos hbad
  · rw [Text.cut_eq_none_iff.mpr hcolon]

/-- A line with a name is an attribute. -/
theorem Line.ofChars_attribute {line before after : List Char} (h : line.head? ≠ some ' ')
    (hcut : Text.cut ':' line = some (before, after)) (hempty : Text.trimChars before ≠ [])
    (hblank : ∀ c ∈ Text.trimChars before, Text.isBlank c = false) :
    Line.ofChars line = .attribute (Text.trimChars before) (dropSpace after) := by
  have hne : line ≠ [] := by
    rintro rfl
    cases hcut
  have hgood : ¬ ((Text.trimChars before).isEmpty || (Text.trimChars before).any Text.isBlank) =
      true := by
    rw [Bool.or_eq_true, not_or, List.isEmpty_iff, List.any_eq_true]
    refine ⟨hempty, ?_⟩
    rintro ⟨c, hc, hc'⟩
    rw [hblank c hc] at hc'
    cases hc'
  rw [ofChars_of_head? hne h, hcut]
  exact if_neg hgood

/-- Its name is what comes before the first colon, and its value what comes after. -/
theorem Line.ofChars_named {line : List Char} (h : line.head? ≠ some ' ')
    (hname : ¬ Nameless line) :
    Line.ofChars line =
      .attribute (nameIn line) (dropSpace (line.dropWhile (· ≠ ':')).tail) := by
  rw [Nameless, not_or, not_or, not_not] at hname
  obtain ⟨hcolon, hempty, hblank⟩ := hname
  refine ofChars_attribute h (Text.cut_of_mem hcolon) hempty fun c hc => ?_
  rw [← Bool.not_eq_true]
  exact fun hc' => hblank ⟨c, hc, hc'⟩

/-- The first line of an attribute says its name and its first piece. -/
theorem Folded.ofChars_first (a : Folded) :
    Line.ofChars (a.name.toList ++ ':' :: ' ' :: a.first.text.toList) =
      .attribute a.name.toList a.first.text.toList := by
  have hne : a.name.toList ≠ [] := fun h => a.name_ne_empty (String.toList_eq_nil_iff.mp h)
  have hspace : (a.name.toList ++ ':' :: ' ' :: a.first.text.toList).head? ≠ some ' ' := by
    intro h
    rw [List.head?_append, List.head?_eq_some_head hne, Option.some_or, Option.some.injEq] at h
    exact a.blank_notMem (by decide) (h ▸ List.head_mem hne)
  have htrim : Text.trimChars a.name.toList = a.name.toList :=
    Text.trimChars_of_forall fun c hc => a.isBlank_of_mem hc
  have hsays := Line.ofChars_attribute hspace (Text.cut_append_sep a.colon_notMem _)
    (by rwa [htrim]) (by rw [htrim]; exact fun c hc => a.isBlank_of_mem hc)
  rwa [htrim] at hsays

/-! ### Reading what is written -/

/-- An attribute is added to those that were read. -/
theorem readLines_attribute {line name value : List Char}
    (h : Line.ofChars line = .attribute name value) (n : Nat)
    (sofar : List (List Char × List Char)) (rest : List (List Char)) :
    readLines n sofar (line :: rest) = readLines (n + 1) (sofar ++ [(name, value)]) rest := by
  rw [readLines, h]

/-- A continuation goes to the value of the last attribute. -/
theorem extendLast_concat (text : List Char) (sofar : List (List Char × List Char))
    (name value : List Char) :
    extendLast text (sofar ++ [(name, value)]) = some (sofar ++ [(name, value ++ text)]) := by
  induction sofar with
  | nil => rfl
  | cons a sofar ih =>
    cases sofar with
    | nil => rfl
    | cons b sofar =>
        rw [List.cons_append, List.cons_append, extendLast, ← List.cons_append, ih]
        rfl

/-- A line that starts with a space goes on with the last value. -/
theorem readLines_continuation (text : List Char) (n : Nat) (sofar : List (List Char × List Char))
    (name value : List Char) (rest : List (List Char)) :
    readLines n (sofar ++ [(name, value)]) ((' ' :: text) :: rest) =
      readLines (n + 1) (sofar ++ [(name, value ++ text)]) rest := by
  rw [readLines, Line.ofChars]
  simp only [extendLast_concat]

/-- Further pieces go to the value of the last attribute, one after the other. -/
theorem readLines_further (further : List Piece) (n : Nat) (sofar : List (List Char × List Char))
    (name value : List Char) (rest : List (List Char)) :
    readLines n (sofar ++ [(name, value)]) ((further.map fun p => ' ' :: p.text.toList) ++ rest) =
      readLines (n + further.length)
        (sofar ++ [(name, value ++ further.flatMap fun p => p.text.toList)]) rest := by
  induction further generalizing n value with
  | nil => simp
  | cons p further ih =>
    rw [List.map_cons, List.cons_append, readLines_continuation, ih, List.flatMap_cons,
      List.append_assoc, List.length_cons, Nat.add_assoc, Nat.add_comm 1]

/-- The lines of an attribute add its name with the joined pieces. -/
theorem readLines_lines (a : Folded) (n : Nat) (sofar : List (List Char × List Char))
    (rest : List (List Char)) :
    readLines n sofar (a.lines ++ rest) =
      readLines (n + a.lines.length) (sofar ++ [a.entry]) rest := by
  rw [Folded.lines, List.cons_append, readLines_attribute a.ofChars_first, readLines_further,
    Folded.entry, a.value_toList, List.length_cons, List.length_map, Nat.add_assoc, Nat.add_comm 1]

/-- **The lines of attributes add what they say to what was read before.** -/
theorem readLines_folded (attributes : List Folded) (n : Nat)
    (sofar : List (List Char × List Char)) (rest : List (List Char)) :
    readLines n sofar (attributes.flatMap Folded.lines ++ rest) =
      readLines (n + (attributes.flatMap Folded.lines).length)
        (sofar ++ attributes.map Folded.entry) rest := by
  induction attributes generalizing n sofar with
  | nil => simp
  | cons a attributes ih =>
    rw [List.flatMap_cons, List.append_assoc, readLines_lines, ih, List.map_cons,
      List.length_append, Nat.add_assoc, List.append_assoc, List.singleton_append]

/-- Nothing behind the attributes is read. -/
theorem Rest.readLines_written (rest : Rest) (n : Nat) (sofar : List (List Char × List Char)) :
    readLines n sofar (Text.lines rest.written.toList) = .ok sofar := by
  cases rest with
  | nothing => rfl
  | emptyLine lineEnd text =>
      have hlines : Text.lines (Rest.emptyLine lineEnd text).written.toList =
          [] :: Text.lines text.toList := by
        have hnone : ([] : List Char).getLast? ≠ some '\r' := by simp
        rw [← lines_append_lineEnd List.not_mem_nil hnone lineEnd, written, String.toList_append,
          List.nil_append]
      rw [hlines]
      rfl

/-- **Reading undoes writing,** however the values are cut and the lines are ended. -/
theorem parse_rendering (marked : Bool) (attributes : List Folded) (rest : Rest) :
    parse (rendering marked attributes rest) =
      .ok ⟨attributes.map fun a => (a.name, a.value)⟩ := by
  have hread : readLines 1 [] (Text.lines (dropMark (rendering marked attributes rest).toList)) =
      .ok (attributes.map Folded.entry) := by
    rw [dropMark_rendering, lines_attributes, readLines_folded, rest.readLines_written,
      List.nil_append]
  have hstrings : (attributes.map Folded.entry).map
      (fun entry => (String.ofList entry.1, String.ofList entry.2)) =
        attributes.map fun a => (a.name, a.value) := by
    simp [Folded.entry, Function.comp_def]
  rw [parse, hread, ← hstrings]
  rfl

/-! ### Lines at fault -/

/-- Line `n` is at fault if it is the first one and continues a value, or if it neither continues a
value nor gives a name. -/
def Faulty (line : List Char) (n : Nat) : Prop :=
  (n = 1 ∧ line.head? = some ' ') ∨ (line.head? ≠ some ' ' ∧ Nameless line)

/-- The error of line `n` if it is at fault. -/
def faultOf (line : List Char) (n : Nat) : ManifestError :=
  if line.head? = some ' ' then .danglingContinuation n else .malformedLine n

/-- The lines up to the first empty one, with their numbers, the first of which is `n`. -/
def numberedFrom (n : Nat) (lines : List (List Char)) : List (List Char × Nat) :=
  (lines.takeWhile (· ≠ [])).zipIdx n

/-- The numbered lines of the main section of a text. They end before the first empty line, and a
byte order mark before them is not a part of the first one. -/
def numbered (text : String) : List (List Char × Nat) :=
  numberedFrom 1 (Text.lines (dropMark text.toList))

/-- Of some numbered lines, line `n` is the first one at fault. -/
structure FirstFault (lines : List (List Char × Nat)) (line : List Char) (n : Nat) : Prop where
  mem : (line, n) ∈ lines
  faulty : Faulty line n
  least : ∀ other m, (other, m) ∈ lines → Faulty other m → n ≤ m

/-- A line that is not empty has the number that is next. -/
theorem numberedFrom_cons {line : List Char} (hne : line ≠ []) (n : Nat)
    (rest : List (List Char)) :
    numberedFrom n (line :: rest) = (line, n) :: numberedFrom (n + 1) rest := by
  rw [numberedFrom, List.takeWhile_cons_of_pos (by simpa using hne), List.zipIdx_cons]
  rfl

/-- Without lines there is no first fault. -/
theorem not_firstFault_nil {line : List Char} {n : Nat} : ¬ FirstFault [] line n := fun h =>
  List.not_mem_nil h.mem

/-- If the first of the lines is at fault, no other one counts. -/
theorem firstFault_of_faulty {line : List Char} {n : Nat} (hline : Faulty line n)
    {rest : List (List Char)} {other : List Char} {m : Nat} :
    FirstFault ((line, n) :: numberedFrom (n + 1) rest) other m ↔ other = line ∧ m = n := by
  have hlater : ∀ {l k}, (l, k) ∈ numberedFrom (n + 1) rest → n < k := fun hmem =>
    List.le_snd_of_mem_zipIdx hmem
  constructor
  · rintro ⟨hmem, -, hleast⟩
    rcases List.mem_cons.mp hmem with heq | hmem
    · exact Prod.mk.inj heq
    · have hle : m ≤ n := hleast line n List.mem_cons_self hline
      exact absurd (hlater hmem) (Nat.not_lt.mpr hle)
  · rintro ⟨rfl, rfl⟩
    refine ⟨List.mem_cons_self, hline, fun l k hl _ => ?_⟩
    rcases List.mem_cons.mp hl with heq | hl
    · exact Nat.le_of_eq (Prod.mk.inj heq).2.symm
    · exact Nat.le_of_lt (hlater hl)

/-- A line that is not at fault is passed over. -/
theorem firstFault_of_not_faulty {line : List Char} {n : Nat} (hline : ¬ Faulty line n)
    {rest : List (List Char × Nat)} {other : List Char} {m : Nat} :
    FirstFault ((line, n) :: rest) other m ↔ FirstFault rest other m := by
  constructor
  · rintro ⟨hmem, hfaulty, hleast⟩
    rcases List.mem_cons.mp hmem with heq | hmem
    · obtain ⟨rfl, rfl⟩ := Prod.mk.inj heq
      exact absurd hfaulty hline
    · exact ⟨hmem, hfaulty, fun l k hl => hleast l k (List.mem_cons_of_mem _ hl)⟩
  · rintro ⟨hmem, hfaulty, hleast⟩
    refine ⟨List.mem_cons_of_mem _ hmem, hfaulty, fun l k hl hfault => ?_⟩
    rcases List.mem_cons.mp hl with heq | hl
    · obtain ⟨rfl, rfl⟩ := Prod.mk.inj heq
      exact absurd hfault hline
    · exact hleast l k hl hfault

/-- A line at fault ends the reading. Attributes were read before it exactly if it is not the first
one. -/
theorem readLines_faulty {line : List Char} {n : Nat} {sofar : List (List Char × List Char)}
    (hsofar : sofar = [] ↔ n = 1) (hne : line ≠ []) (h : Faulty line n)
    (rest : List (List Char)) :
    readLines n sofar (line :: rest) = .error (faultOf line n) := by
  rcases h with ⟨hfirst, hspace⟩ | ⟨hspace, hname⟩
  · obtain ⟨text, hline⟩ := Line.ofChars_continuation hspace
    rw [readLines, hline, hsofar.mpr hfirst, faultOf, if_pos hspace]
    rfl
  · rw [readLines, Line.ofChars_nameless hne hspace hname, faultOf, if_neg hspace]

/-- After a line that is not at fault there are attributes, and reading goes on. -/
theorem readLines_faultless {line : List Char} {n : Nat} {sofar : List (List Char × List Char)}
    (hsofar : sofar = [] ↔ n = 1) (h : ¬ Faulty line n) (rest : List (List Char)) :
    ∃ more, more ≠ [] ∧ readLines n sofar (line :: rest) = readLines (n + 1) more rest := by
  rw [Faulty, not_or] at h
  obtain ⟨hfirst, hname⟩ := h
  by_cases hspace : line.head? = some ' '
  · obtain ⟨text, rfl⟩ := List.head?_eq_some_iff.mp hspace
    have hne : sofar ≠ [] := fun hnil => hfirst ⟨hsofar.mp hnil, hspace⟩
    obtain ⟨before, ⟨name, value⟩, rfl⟩ := (List.eq_nil_or_concat' sofar).resolve_left hne
    exact ⟨before ++ [(name, value ++ text)], by simp,
      readLines_continuation text n before name value rest⟩
  · have hnamed : ¬ Nameless line := fun hline => hname ⟨hspace, hline⟩
    exact ⟨_, by simp, readLines_attribute (Line.ofChars_named hspace hnamed) n sofar rest⟩

/-- **Reading fails at the first line at fault.** The induction is on the lines; what is read so far
counts only in whether it is empty, which it is before the first line and never again. -/
theorem readLines_eq_error_iff (lines : List (List Char)) {n : Nat}
    {sofar : List (List Char × List Char)} (hn : 0 < n) (hsofar : sofar = [] ↔ n = 1)
    (e : ManifestError) :
    readLines n sofar lines = .error e ↔
      ∃ line m, FirstFault (numberedFrom n lines) line m ∧ e = faultOf line m := by
  induction lines generalizing n sofar with
  | nil => exact iff_of_false (by rintro ⟨⟩) fun ⟨_, _, hfirst, _⟩ => not_firstFault_nil hfirst
  | cons line rest ih =>
    by_cases hne : line = []
    · subst hne
      exact iff_of_false (by rintro ⟨⟩) fun ⟨_, _, hfirst, _⟩ => not_firstFault_nil hfirst
    · rw [numberedFrom_cons hne]
      by_cases hline : Faulty line n
      · rw [readLines_faulty hsofar hne hline, Except.error.injEq]
        simp only [firstFault_of_faulty hline]
        constructor
        · rintro rfl
          exact ⟨line, n, ⟨rfl, rfl⟩, rfl⟩
        · rintro ⟨other, m, ⟨rfl, rfl⟩, rfl⟩
          rfl
      · obtain ⟨more, hmore, hstep⟩ := readLines_faultless hsofar hline rest
        have hnext : more = [] ↔ n + 1 = 1 := iff_of_false hmore (by omega)
        rw [hstep, ih (Nat.succ_pos n) hnext]
        simp only [firstFault_of_not_faulty hline]

/-- Among lines of which one is at fault there is a first one. -/
theorem exists_firstFault {lines : List (List Char × Nat)} {line : List Char} {n : Nat}
    (hmem : (line, n) ∈ lines) (hfaulty : Faulty line n) :
    ∃ first m, FirstFault lines first m := by
  classical
  have hsome : ∃ m, ∃ other, (other, m) ∈ lines ∧ Faulty other m := ⟨n, line, hmem, hfaulty⟩
  obtain ⟨first, hfirst, hfault⟩ := Nat.find_spec hsome
  exact ⟨first, Nat.find hsome, hfirst, hfault,
    fun other m h h' => Nat.find_min' hsome ⟨other, h, h'⟩⟩

/-- Reading a text fails at the first line at fault of its main section. -/
theorem parse_eq_error_iff (text : String) (e : ManifestError) :
    parse text = .error e ↔
      ∃ line n, FirstFault (numbered text) line n ∧ e = faultOf line n := by
  have hread := readLines_eq_error_iff (Text.lines (dropMark text.toList)) Nat.one_pos
    (iff_of_true rfl rfl) e
  rw [numbered, ← hread, parse]
  cases readLines 1 [] (Text.lines (dropMark text.toList)) with
  | error _ => simp only [bind, Except.bind, Except.error.injEq]
  | ok _ => simp only [bind, Except.bind, pure, Except.pure, reduceCtorEq]

/-- **Manifests as they are written.** Whatever way attributes are written, they are read back, with
the pieces of their values joined. Any text is read unless a line of its main section is at fault,
and then the error is that of the first such line and tells its number. -/
theorem parse_rendering_and_eq_error_iff :
    (∀ marked attributes rest, parse (rendering marked attributes rest) =
        .ok ⟨attributes.map fun a => (a.name, a.value)⟩) ∧
      ∀ text,
        ((∃ e, parse text = .error e) ↔ ∃ line n, (line, n) ∈ numbered text ∧ Faulty line n) ∧
          ∀ e, parse text = .error e ↔
            ∃ line n, FirstFault (numbered text) line n ∧ e = faultOf line n := by
  refine ⟨parse_rendering, fun text => ⟨?_, parse_eq_error_iff text⟩⟩
  constructor
  · rintro ⟨e, he⟩
    obtain ⟨line, n, hfirst, -⟩ := (parse_eq_error_iff text e).mp he
    exact ⟨line, n, hfirst.mem, hfirst.faulty⟩
  · rintro ⟨line, n, hmem, hfaulty⟩
    obtain ⟨first, m, hfirst⟩ := exists_firstFault hmem hfaulty
    exact ⟨faultOf first m, (parse_eq_error_iff text _).mpr ⟨first, m, hfirst, rfl⟩⟩

end Manifest

end RealmBoot
