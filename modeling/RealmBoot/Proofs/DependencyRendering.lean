import RealmBoot.Extension.Dependency
import RealmBoot.Proofs.ItemsOfTexts

/-!
# Dependencies Are Read Exactly

A list of dependencies may be written with blanks around its names and versions, with further parts
behind semicolons, and with items that are blank. Whatever is added in this way, the same
dependencies are read. A list that was not written like this has an item that is at fault, and the
first of those is the one its error names.

## Main results

* `Dependency.ofChars?_eq_ite`: what is read of one item, told from its text alone.
* `Dependency.parseItems_eq_error_iff`: which item a list is not read for.
* `Dependency.parseItems_written`: what is read of the items of a list as it is written.
* `Dependency.parseList_rendering_and_error_iff`: the two halves for whole lists.
-/

namespace RealmBoot

namespace Dependency

open Text (isBlank trimChars)

/-! ### One item -/

/-- The part of an item before its first semicolon. -/
def head (item : List Char) : List Char := item.takeWhile (· ≠ ';')

/-- What stands before the first colon of that part: all of it, if there is none. -/
def named (item : List Char) : List Char := (head item).takeWhile (· ≠ ':')

/-- What stands behind the first colon of that part: nothing, if there is none. -/
def versioned (item : List Char) : List Char := ((head item).dropWhile (· ≠ ':')).tail

/-- The parts of an item behind its first semicolon. -/
def parameters (item : List Char) : List (List Char) := (Text.pieces ';' item).tail

/-- Whether one of these parts marks the dependency as optional, apart from blanks around it. -/
def isMarked (item : List Char) : Bool :=
  (parameters item).any fun part => trimChars part == optionalMark.toList

/-- An item is at fault if there is no colon before its first semicolon, or if only blanks stand on
one side of the first colon there. -/
def Faulty (item : String) : Prop :=
  ':' ∉ head item.toList ∨ (∀ c ∈ named item.toList, isBlank c = true) ∨
    ∀ c ∈ versioned item.toList, isBlank c = true

/-- The dependency an item without fault declares. -/
def declared (item : String) : Dependency where
  name := String.ofList (trimChars (named item.toList))
  version := String.ofList (trimChars (versioned item.toList))
  optional := isMarked item.toList

variable {items : List String} {declaredBy : String} {e : ResolutionError}

/-- What is read of the parts around a colon, if neither of them is blank. -/
private def ofParts? (optional : Bool) (part : List Char × List Char) : Option Dependency :=
  if part.1.isEmpty || part.2.isEmpty then none
  else some ⟨String.ofList part.1, String.ofList part.2, optional⟩

/-- An item is read with the blanks around it removed. -/
private theorem ofChars?_eq_trimmed (item : List Char) :
    ofChars? item = ((Text.cut ':' (head (trimChars item))).map (Prod.map trimChars trimChars)).bind
      (ofParts? (isMarked (trimChars item))) := by
  rw [ofChars?, Text.pieces_eq_cons]
  change _ = ((Text.cut ':' ((trimChars item).takeWhile _)).map _).bind _
  dsimp only
  cases Text.cut ':' ((trimChars item).takeWhile (· ≠ ';')) with
  | none => rfl
  | some part => rfl

/-- The blanks around an item make no difference to what its parts are, once these are trimmed. -/
private theorem head_parameters_trimChars (item : List Char) :
    trimChars (head (trimChars item)) = trimChars (head item) ∧
      (parameters (trimChars item)).map trimChars = (parameters item).map trimChars := by
  have hpieces := Text.pieces_trimChars (by decide : isBlank ';' = false) item
  rw [Text.pieces_eq_cons ';' item, Text.pieces_eq_cons ';' (trimChars item)] at hpieces
  exact List.cons.inj hpieces

/-- The blanks around an item make no difference to whether it is marked. -/
private theorem isMarked_trimChars (item : List Char) :
    isMarked (trimChars item) = isMarked item := by
  have hmarked : ∀ parts : List (List Char),
      (parts.any fun part => trimChars part == optionalMark.toList) =
        (parts.map trimChars).any (· == optionalMark.toList) := fun parts => by
    rw [List.any_map]
    rfl
  rw [isMarked, hmarked, (head_parameters_trimChars item).2, ← hmarked, isMarked]

/-- The blanks around an item make no difference to what is read of it. -/
private theorem ofChars?_eq (item : List Char) :
    ofChars? item = ((Text.cut ':' (head item)).map (Prod.map trimChars trimChars)).bind
      (ofParts? (isMarked item)) := by
  rw [ofChars?_eq_trimmed, isMarked_trimChars,
    Text.cut_congr (by decide) (head_parameters_trimChars item).1]

/-- **Nothing is read of an item at fault, and what it declares of any other one.** -/
theorem ofChars?_eq_ite (item : String) [Decidable (Faulty item)] :
    ofChars? item.toList = if Faulty item then none else some (declared item) := by
  have hempty : ∀ cs : List Char, (trimChars cs).isEmpty = true ↔ ∀ c ∈ cs, isBlank c = true :=
    fun cs => List.isEmpty_iff.trans Text.trimChars_eq_nil_iff
  rw [ofChars?_eq]
  by_cases hcolon : ':' ∈ head item.toList
  · rw [Text.cut_of_mem hcolon]
    refine ite_congr (propext ?_) (fun _ => rfl) fun _ => rfl
    rw [Bool.or_eq_true, Faulty, or_iff_right (not_not_intro hcolon)]
    exact or_congr (hempty _) (hempty _)
  · rw [Text.cut_eq_none_iff.mpr hcolon, if_pos (.inl hcolon)]
    rfl

/-! ### The items of a list -/

/-- The items of a list: what stands between its commas, as far as it is not blank. -/
def itemsOf (list : String) : List String :=
  (Text.piecesOf ',' list).filter (!Text.isBlankText ·)

/-- An item is refused if it is faulty, and read for what it declares otherwise. -/
theorem parse_eq_ite (item declaredBy : String) [Decidable (Faulty item)] :
    parse item declaredBy =
      if Faulty item then .error (.malformedDependency item declaredBy)
      else .ok (declared item) := by
  rw [parse, ofChars?_eq_ite]
  split_ifs <;> rfl

/-- **Items are not read exactly if one is at fault, and the error is about the first of these.** -/
theorem parseItems_eq_error_iff :
    parseItems declaredBy items = .error e ↔
      ∃ before item, FirstOf Faulty items before item ∧
        e = .malformedDependency item declaredBy := by
  classical
  induction items with
  | nil => simp [parseItems, not_firstOf_nil]
  | cons item items ih =>
      rw [parseItems, parse_eq_ite]
      by_cases hfaulty : Faulty item
      · rw [if_pos hfaulty, exists_firstOf_cons_of_pos hfaulty]
        constructor
        · rintro ⟨⟩
          rfl
        · rintro rfl
          rfl
      · rw [if_neg hfaulty, exists_firstOf_cons_of_neg hfaulty, ← ih]
        cases parseItems declaredBy items with
        | error e' => rfl
        | ok ds => exact ⟨nofun, nofun⟩

/-! ### Lists as they are written -/

/-- A name or a version as it is written in a list, with blanks around it. -/
structure Padded where
  /-- The blanks before it. -/
  before : List Char
  /-- The name or the version itself. -/
  text : String
  /-- The blanks behind it. -/
  after : List Char
  before_blank : ∀ c ∈ before, isBlank c = true
  after_blank : ∀ c ∈ after, isBlank c = true
  text_ne : text ≠ ""
  text_trim : Text.trim text = text
  text_plain : ',' ∉ text.toList ∧ ';' ∉ text.toList

/-- A dependency as it is written in a list. Blanks around the whole of it are those before its name
and those behind its last part. -/
structure Declaration where
  /-- The name, which has no colon in it. -/
  name : Padded
  /-- The version, which may have colons in it. -/
  version : Padded
  /-- The further parts, in the order they are written in. -/
  parts : List String
  /-- Whether one of them is the mark of an optional dependency. -/
  optional : Bool
  name_plain : ':' ∉ name.text.toList
  parts_plain : ∀ part ∈ parts, ',' ∉ part.toList ∧ ';' ∉ part.toList
  optional_iff : optional = true ↔ ∃ part ∈ parts, Text.trim part = optionalMark

/-- What stands between two commas of a list: blanks, or a dependency. -/
inductive Token where
  | blank (text : String) (h : Text.isBlankText text = true)
  | item (declaration : Declaration)

/-- A name or a version with the blanks around it. -/
def Padded.written (p : Padded) : String :=
  String.ofList (p.before ++ (p.text.toList ++ p.after))

/-- The dependency that is written. -/
def Declaration.dependency (d : Declaration) : Dependency :=
  ⟨d.name.text, d.version.text, d.optional⟩

/-- A dependency with everything around it. -/
def Declaration.written (d : Declaration) : String :=
  Text.joined ";" ((d.name.written ++ ":" ++ d.version.written) :: d.parts)

/-- What stands between two commas. -/
def Token.written : Token → String
  | .blank text _ => text
  | .item declaration => declaration.written

/-- The dependency that stands between two commas, if one does. -/
def Token.dependency? : Token → Option Dependency
  | .blank .. => none
  | .item declaration => some declaration.dependency

/-- A list as it is written. -/
def rendering (tokens : List Token) : String := Text.joined "," (tokens.map Token.written)

/-- A character other than a blank is in the text only. -/
theorem Padded.notMem_written (p : Padded) {c : Char} (hblank : isBlank c = false)
    (h : c ∉ p.text.toList) : c ∉ p.written.toList := by
  have hbefore := Text.notMem_of_blank hblank p.before_blank
  have hafter := Text.notMem_of_blank hblank p.after_blank
  simp [written, hbefore, h, hafter]

/-- The blanks around a name or a version are trimmed away. -/
theorem Padded.trimChars_written (p : Padded) : trimChars p.written.toList = p.text.toList := by
  have htrim := congrArg String.toList p.text_trim
  rw [Text.trim, String.toList_ofList] at htrim
  rw [written, String.toList_ofList, Text.trimChars_append p.before_blank,
    Text.append_trimChars p.after_blank, htrim]

/-- The parts of a dependency are those it was written with. -/
theorem Declaration.pieces_written (d : Declaration) :
    Text.pieces ';' d.written.toList =
      (d.name.written ++ ":" ++ d.version.written).toList :: d.parts.map String.toList := by
  have hname := d.name.notMem_written (by decide) d.name.text_plain.2
  have hversion := d.version.notMem_written (by decide) d.version.text_plain.2
  refine Text.pieces_joined (by simp) fun part hpart => ?_
  rcases List.mem_cons.mp hpart with rfl | hpart
  · simp [hname, hversion]
  · exact (d.parts_plain part hpart).2

/-- It is marked if it is written as optional. -/
theorem Declaration.isMarked_written (d : Declaration) :
    isMarked d.written.toList = d.optional := by
  rw [Bool.eq_iff_iff, d.optional_iff, isMarked, parameters, d.pieces_written, List.tail_cons,
    List.any_map, List.any_eq_true]
  simp [Text.trim, ← String.toList_inj]

/-- **Of a dependency as it is written that dependency is read.** -/
theorem Declaration.ofChars?_written (d : Declaration) :
    ofChars? d.written.toList = some d.dependency := by
  have hcolon := d.name.notMem_written (by decide) d.name_plain
  have hhead : head d.written.toList =
      d.name.written.toList ++ ':' :: d.version.written.toList := by
    have hpieces := (Text.pieces_eq_cons ';' d.written.toList).symm.trans d.pieces_written
    exact (List.cons.inj hpieces).1.trans (by simp)
  have hname : d.name.text.toList ≠ [] := by simpa using d.name.text_ne
  have hversion : d.version.text.toList ≠ [] := by simpa using d.version.text_ne
  rw [ofChars?_eq, hhead, Text.cut_append_sep hcolon, d.isMarked_written]
  simp [ofParts?, Padded.trimChars_written, hname, hversion, dependency]

/-- No comma is written within a dependency, and the whole of it is not blank. -/
theorem Declaration.written_plain (d : Declaration) :
    ',' ∉ d.written.toList ∧ Text.isBlankText d.written = false := by
  have hall : d.written.toList = d.name.written.toList ++ ':' :: (d.version.written.toList ++
      (d.parts.map fun part => ';' :: part.toList).flatten) := by
    have hparts : ∀ (first : String) (parts : List String),
        (Text.joined ";" (first :: parts)).toList =
          first.toList ++ (parts.map fun part => ';' :: part.toList).flatten := by
      intro first parts
      induction parts generalizing first with
      | nil => simp [Text.joined]
      | cons part parts ih => simp [Text.joined, ih]
    rw [written, hparts]
    simp
  rw [Text.isBlankText, hall]
  constructor
  · have hname := d.name.notMem_written (by decide) d.name.text_plain.1
    have hversion := d.version.notMem_written (by decide) d.version.text_plain.1
    have hparts : ∀ part ∈ d.parts, ',' ∉ part.toList := fun part h => (d.parts_plain part h).1
    simpa [hname, hversion] using hparts
  · have hcolon : isBlank ':' = false := by decide
    simp [hcolon]

/-! ### Whole lists -/

/-- What stands between two commas has no comma in it. -/
theorem Token.notMem_written (token : Token) : ',' ∉ token.written.toList := by
  cases token with
  | blank text h => exact Text.notMem_of_blank (by decide) (List.all_eq_true.mp h)
  | item d => exact d.written_plain.1

/-- The items of a list as it is written are its dependencies. -/
theorem itemsOf_rendering (tokens : List Token) :
    itemsOf (rendering tokens) =
      (tokens.map Token.written).filter (!Text.isBlankText ·) := by
  cases tokens with
  | nil => decide
  | cons token tokens =>
      have hcommas : ∀ text ∈ (token :: tokens).map Token.written, ',' ∉ text.toList := by
        intro text htext
        obtain ⟨token', -, rfl⟩ := List.mem_map.mp htext
        exact token'.notMem_written
      have hpieces := Text.pieces_joined (by simp) hcommas
      rw [itemsOf, Text.piecesOf, rendering, show "," = String.singleton ',' from rfl, hpieces,
        List.map_map]
      simp

/-- **The dependencies of a list as it is written are read, in their order.** -/
theorem parseItems_written (tokens : List Token) (declaredBy : String) :
    parseItems declaredBy ((tokens.map Token.written).filter (!Text.isBlankText ·)) =
      .ok (tokens.filterMap Token.dependency?) := by
  induction tokens with
  | nil => rfl
  | cons token tokens ih =>
      rw [List.map_cons]
      cases token with
      | blank text h =>
          rw [List.filter_cons_of_neg (by simpa [Token.written] using h), ih]
          rfl
      | item d =>
          have hread : parse (Token.item d).written declaredBy = .ok d.dependency := by
            rw [parse, Token.written, d.ofChars?_written]
          have hkept : Text.isBlankText (Token.item d).written = false := by
            simpa [Token.written] using d.written_plain.2
          rw [List.filter_cons_of_pos (by simp [hkept]), parseItems, hread, ih]
          rfl

/-- **Lists of dependencies are read exactly.** However a list of dependencies is written, those
dependencies are read, in their order. No list at all is read exactly if one of its items is at
fault, and then the error says which is the first of these, as it is written. -/
theorem parseList_rendering_and_error_iff :
    (∀ (tokens : List Token) (declaredBy : String),
        parseList (rendering tokens) declaredBy = .ok (tokens.filterMap Token.dependency?)) ∧
      ∀ list declaredBy : String,
        ((∃ e, parseList list declaredBy = .error e) ↔
          ∃ item ∈ itemsOf list, Faulty item) ∧
        ∀ e, parseList list declaredBy = .error e ↔
          ∃ before item, FirstOf Faulty (itemsOf list) before item ∧
            e = .malformedDependency item declaredBy := by
  refine ⟨fun tokens declaredBy => ?_, fun list declaredBy => ⟨?_, fun e => ?_⟩⟩
  · exact (congrArg _ (itemsOf_rendering tokens)).trans (parseItems_written tokens declaredBy)
  · rw [← exists_firstOf_iff]
    constructor
    · rintro ⟨e, he⟩
      obtain ⟨before, item, hfirst, -⟩ := parseItems_eq_error_iff.mp he
      exact ⟨before, item, hfirst⟩
    · rintro ⟨before, item, hfirst⟩
      exact ⟨_, parseItems_eq_error_iff.mpr ⟨before, item, hfirst, rfl⟩⟩
  · exact parseItems_eq_error_iff

example : parseList " core : 2.1 ;scope; resolution:=optional , ,shell:1:0" "ui" =
    .ok [⟨"core", "2.1", true⟩, ⟨"shell", "1:0", false⟩] := by decide

example : parseList "core:2.1, shell;:1 , ;" "ui" =
    .error (.malformedDependency " shell;:1 " "ui") := by decide

end Dependency

end RealmBoot
