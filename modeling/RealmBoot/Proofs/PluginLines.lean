import RealmBoot.Launch.PluginList
import RealmBoot.Proofs.ItemsOfTexts
import RealmBoot.Proofs.Outcome

/-!
# Lines of Plugin Lists

What a plugin list says can be told from its lines one by one. A line says something if there is
more than blanks before its first `#`. Each such line names a module, and the list is refused if one
of these modules has an empty name, an empty version or a slash in its name.

## Main results

* `PluginList.entry?_content`: what one line names, and when that is refused.
* `PluginList.readLines_cons_of_silent`, `PluginList.readLines_cons_of_refused`,
  `PluginList.readLines_cons_of_named`: what one line adds to what the lines behind it say.
* `PluginList.parse_eq_ok_iff`, `PluginList.parse_eq_error_iff`: when a list is read and what is
  read then, and which line a list is refused for.
-/

namespace RealmBoot

namespace PluginList

open Text (isBlank trimChars)

/-- The part of a line before its first `#`. -/
def spoken (line : List Char) : List Char := line.takeWhile (· ≠ '#')

/-- Whether a line says something: not all of that part is blank. -/
def speaks (line : List Char) : Bool := (spoken line).any (!isBlank ·)

/-- The module a line names: the name and the version stand around the first colon, and without a
colon all of it is the name. -/
def named (line : List Char) : PluginEntry where
  name := String.ofList (trimChars ((spoken line).takeWhile (· ≠ ':')))
  version :=
    if ':' ∈ spoken line then
      String.ofList (trimChars ((spoken line).dropWhile (· ≠ ':')).tail)
    else latest

/-- A module that cannot be named in a list. -/
def Refused (e : PluginEntry) : Prop :=
  e.name = "" ∨ e.version = "" ∨ '/' ∈ e.name.toList ∨ '\\' ∈ e.name.toList

instance : DecidablePred Refused := fun _ => inferInstanceAs (Decidable (_ ∨ _))

variable {path : Path} {text : String} {line : List Char} {lines : List (List Char)} {n : Nat}
  {entries : List PluginEntry} {fault : Nat × String}

/-- The content of a line is what it says before a comment, without blanks at the ends. -/
theorem content_eq (line : List Char) : content line = trimChars (spoken line) := by
  rw [content, spoken]
  by_cases hmark : '#' ∈ line
  · rw [Text.cut_of_mem hmark]
    rfl
  · rw [Text.cut_eq_none_iff.mpr hmark, Text.takeWhile_of_notMem hmark]
    rfl

/-- It is empty if the line says nothing. -/
theorem content_isEmpty (line : List Char) : (content line).isEmpty = !speaks line := by
  rw [content_eq, Bool.eq_iff_iff, List.isEmpty_iff, Text.trimChars_eq_nil_iff, speaks]
  simp

/-- What is read of the parts around a colon. -/
private def ofParts? (part : List Char × List Char) : Option PluginEntry :=
  if part.1.isEmpty || part.2.isEmpty || part.1.any (fun c => c = '/' || c = '\\') then none
  else some ⟨String.ofList part.1, String.ofList part.2⟩

/-- What is read of a text around its first colon, or of all of it. -/
private theorem entry?_eq (cs : List Char) :
    entry? cs = ofParts? (match Text.cut ':' cs with
      | some part => part.map trimChars trimChars
      | none => (cs, latest.toList)) := by
  unfold entry?
  cases Text.cut ':' cs <;> rfl

/-- The parts around the colon of what a line says are those of the line, once they are trimmed. -/
private theorem entry?_content_eq (line : List Char) :
    entry? (content line) = ofParts? ((named line).name.toList, (named line).version.toList) := by
  have hcut := Text.cut_trimChars (by decide : isBlank ':' = false) (spoken line)
  rw [entry?_eq, content_eq, named]
  by_cases hcolon : ':' ∈ spoken line
  · rw [Text.cut_of_mem hcolon] at hcut
    obtain ⟨part, hpart, htrim⟩ := Option.map_eq_some_iff.mp hcut
    rw [hpart, if_pos hcolon, String.toList_ofList, String.toList_ofList]
    exact congrArg ofParts? htrim
  · rw [Text.cut_eq_none_iff.mpr hcolon, Option.map_none, Option.map_eq_none_iff] at hcut
    rw [hcut, if_neg hcolon, Text.takeWhile_of_notMem hcolon, String.toList_ofList]

/-- **A line that says something names a module, unless that module is refused.** -/
theorem entry?_content (line : List Char) :
    entry? (content line) = if Refused (named line) then none else some (named line) := by
  have hslash : ∀ cs : List Char, cs.any (fun c => c = '/' || c = '\\') = true ↔
      '/' ∈ cs ∨ '\\' ∈ cs := fun cs => by
    simp [List.any_eq_true, and_or_left, exists_or]
  rw [entry?_content_eq, ofParts?, String.ofList_toList, String.ofList_toList]
  refine ite_congr (propext ?_) (fun _ => rfl) fun _ => rfl
  rw [Bool.or_eq_true, Bool.or_eq_true, hslash, Refused, or_assoc]
  simp

/-- A line that says nothing adds nothing. -/
theorem readLines_cons_of_silent (h : speaks line = false) (n : Nat) (lines : List (List Char)) :
    readLines n (line :: lines) = readLines (n + 1) lines := by
  rw [readLines]
  simp [content_isEmpty, h]

/-- A line that names a refused module has the list refused. -/
theorem readLines_cons_of_refused (h : speaks line = true) (hrefused : Refused (named line))
    (n : Nat) (lines : List (List Char)) :
    readLines n (line :: lines) = .error (n, String.ofList (content line)) := by
  rw [readLines]
  simp [content_isEmpty, h, entry?_content, hrefused]

/-- A line that names another module adds it. -/
theorem readLines_cons_of_named (h : speaks line = true) (hnamed : ¬ Refused (named line)) (n : Nat)
    (lines : List (List Char)) :
    readLines n (line :: lines) = (readLines (n + 1) lines).map (named line :: ·) := by
  rw [readLines]
  simp [content_isEmpty, h, entry?_content, hnamed]

/-- A line a list is refused for. -/
def AtFault (line : List Char) : Prop := speaks line = true ∧ Refused (named line)

/-- Lines are read if none of them is at fault, and give what each that says something names. -/
theorem readLines_eq_ok_iff :
    readLines n lines = .ok entries ↔
      (∀ line ∈ lines, ¬ AtFault line) ∧ entries = (lines.filter speaks).map named := by
  induction lines generalizing n entries with
  | nil => simp [readLines, eq_comm]
  | cons line lines ih =>
      rw [List.forall_mem_cons]
      cases hspeaks : speaks line with
      | false =>
          have hclear : ¬ AtFault line := fun h => Bool.false_ne_true (hspeaks.symm.trans h.1)
          rw [readLines_cons_of_silent hspeaks, ih, List.filter_cons_of_neg (by simp [hspeaks])]
          simp [hclear]
      | true =>
          by_cases hrefused : Refused (named line)
          · rw [readLines_cons_of_refused hspeaks hrefused]
            simp [AtFault, hspeaks, hrefused]
          · have hclear : ¬ AtFault line := fun h => hrefused h.2
            rw [readLines_cons_of_named hspeaks hrefused, List.filter_cons_of_pos hspeaks,
              List.map_cons, except_map_eq_ok_iff]
            constructor
            · rintro ⟨rest, hrest, rfl⟩
              obtain ⟨hall, rfl⟩ := ih.mp hrest
              exact ⟨⟨hclear, hall⟩, rfl⟩
            · rintro ⟨⟨-, hall⟩, rfl⟩
              exact ⟨_, ih.mpr ⟨hall, rfl⟩, rfl⟩

/-- They are refused for the first line at fault, by its number and content. -/
theorem readLines_eq_error_iff :
    readLines n lines = .error fault ↔
      ∃ before line, FirstOf AtFault lines before line ∧
        fault = (n + before.length, String.ofList (content line)) := by
  induction lines generalizing n with
  | nil => simp [readLines, not_firstOf_nil]
  | cons line lines ih =>
      by_cases hfault : AtFault line
      · rw [readLines_cons_of_refused hfault.1 hfault.2, exists_firstOf_cons_of_pos hfault]
        constructor
        · rintro ⟨⟩
          rfl
        · rintro rfl
          rfl
      · have hnext : readLines n (line :: lines) = .error fault ↔
            readLines (n + 1) lines = .error fault := by
          cases hspeaks : speaks line with
          | false => rw [readLines_cons_of_silent hspeaks]
          | true =>
              rw [readLines_cons_of_named hspeaks fun h => hfault ⟨hspeaks, h⟩,
                except_map_eq_error_iff]
        rw [exists_firstOf_cons_of_neg hfault, hnext, ih]
        simp [Nat.add_assoc, Nat.add_comm 1]

/-- **A list is read exactly if no line is at fault, and then the modules it names are read, in the
order of their lines.** -/
theorem parse_eq_ok_iff :
    parse path text = .ok entries ↔
      (∀ line ∈ Text.lines text.toList, ¬ AtFault line) ∧
        entries = ((Text.lines text.toList).filter speaks).map named := by
  rw [← readLines_eq_ok_iff (n := 1), parse]
  cases readLines 1 (Text.lines text.toList) with
  | ok found => simp
  | error fault => simp

/-- **A list is refused for its first line at fault,** and the failure says which line it is. -/
theorem parse_eq_error_iff {f : Failure} :
    parse path text = .error f ↔
      ∃ before line, FirstOf AtFault (Text.lines text.toList) before line ∧
        f = .pluginList path (before.length + 1) (String.ofList (content line)) := by
  have hread : parse path text = .error f ↔
      ∃ fault, readLines 1 (Text.lines text.toList) = .error fault ∧
        f = .pluginList path fault.1 fault.2 := by
    rw [parse]
    cases readLines 1 (Text.lines text.toList) with
    | ok found => simp
    | error fault => simp [eq_comm]
  rw [hread]
  constructor
  · rintro ⟨fault, hfault, rfl⟩
    obtain ⟨before, line, hfirst, rfl⟩ := readLines_eq_error_iff.mp hfault
    exact ⟨before, line, hfirst, by rw [Nat.add_comm]⟩
  · rintro ⟨before, line, hfirst, rfl⟩
    exact ⟨_, readLines_eq_error_iff.mpr ⟨before, line, hfirst, rfl⟩, by rw [Nat.add_comm]⟩

/-- What is read of a list is not refused. -/
theorem not_refused_of_parse (h : parse path text = .ok entries) : ∀ e ∈ entries, ¬ Refused e := by
  obtain ⟨hclear, rfl⟩ := parse_eq_ok_iff.mp h
  intro e he hrefused
  obtain ⟨line, hline, rfl⟩ := List.mem_map.mp he
  obtain ⟨hmem, hspeaks⟩ := List.mem_filter.mp hline
  exact hclear line hmem ⟨hspeaks, hrefused⟩

end PluginList

end RealmBoot
