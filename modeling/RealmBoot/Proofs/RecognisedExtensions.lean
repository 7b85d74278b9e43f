import Mathlib.Data.List.Basic
import RealmBoot.Launch.Boot
import RealmBoot.Proofs.ItemsOfTexts
import RealmBoot.Proofs.Outcome
import RealmBoot.Proofs.Validation

/-!
# Recognised Extensions

Validation looks at extensions as they are written: they must not be empty or start with a dot. A
scanner drops the blanks around an extension and the dots in front of it, and compares what is left
with the part of a file name after its last dot. This module says for which extensions the two go
together.

## Main results

* `Path.extension?_of_dot`: what follows the last dot of a name.
* `Scanner.isArchiveName_ofExtensions_iff`: each extension of a list counts on its own.
* `Scanner.covers_self_iff`: which extensions recognise the names that end in them.
* `RunnerConfig.validated_usable`: what validation ensures of the policy and of the extensions.
* `RunnerConfig.not_validated_usable`: some extensions that are validated recognise nothing.
-/

namespace RealmBoot

namespace Text

variable {c d : Char} {cs : List Char}

/-- A capital letter has its small one at a fixed distance. -/
theorem val_toLower_of_upper (h : 'A'.val ≤ c.val ∧ c.val ≤ 'Z'.val) :
    c.toLower.val = c.val + ('a'.val - 'A'.val) :=
  congrArg Char.val (dif_pos h)

/-- Other characters have no lower case. -/
theorem toLower_of_not_upper (h : ¬ ('A'.val ≤ c.val ∧ c.val ≤ 'Z'.val)) : c.toLower = c :=
  dif_neg h

/-- No letter becomes a character before the letters in lower case. -/
theorem eq_of_toLower_eq (hd : d.val < 'A'.val) (h : c.toLower = d) : c = d := by
  by_cases hupper : 'A'.val ≤ c.val ∧ c.val ≤ 'Z'.val
  · have hval := val_toLower_of_upper hupper
    rw [h] at hval
    simp only [Char.reduceVal] at hd hupper hval
    grind
  · rwa [toLower_of_not_upper hupper] at h

/-- In lower case a character is in lower case already. -/
theorem toLower_toLower (c : Char) : c.toLower.toLower = c.toLower := by
  by_cases hupper : 'A'.val ≤ c.val ∧ c.val ≤ 'Z'.val
  · -- Past the capitals there is no capital to change.
    refine toLower_of_not_upper fun hagain => ?_
    rw [val_toLower_of_upper hupper] at hagain
    simp only [Char.reduceVal] at hupper hagain
    grind
  · rw [toLower_of_not_upper hupper, toLower_of_not_upper hupper]

/-- What comes before the capital letters is in a text if it is in its lower case. -/
theorem mem_of_mem_map_toLower (hd : d.val < 'A'.val) (h : d ∈ cs.map Char.toLower) : d ∈ cs := by
  obtain ⟨c, hc, hlower⟩ := List.mem_map.mp h
  rwa [← eq_of_toLower_eq hd hlower]

/-- What is its own lower case is in the lower case of a text that it is in. -/
theorem mem_map_toLower (hd : d.toLower = d) (h : d ∈ cs) : d ∈ cs.map Char.toLower :=
  List.mem_map.mpr ⟨d, h, hd⟩

/-- Trimming does not make a text longer. -/
theorem length_trimChars_le (cs : List Char) : (trimChars cs).length ≤ cs.length := by
  obtain ⟨before, after, -, -, hsplit⟩ := exists_trimChars cs
  have hlength := congrArg List.length hsplit
  simp only [List.length_append] at hlength
  omega

/-- A text is trimmed exactly if it neither starts nor ends with a blank. A blank at an end would be
trimmed away, and what is left does not get longer again. -/
theorem trimChars_eq_self_iff :
    trimChars cs = cs ↔
      (∀ c ∈ cs.head?, isBlank c = false) ∧ ∀ c ∈ cs.getLast?, isBlank c = false := by
  constructor
  · intro htrimmed
    refine ⟨fun c hc => ?_, fun c hc => ?_⟩
    · by_contra hblank
      rw [Bool.not_eq_false] at hblank
      obtain ⟨rest, rfl⟩ := List.head?_eq_some_iff.mp hc
      have hshorter := length_trimChars_le rest
      have hskip : trimChars ([c] ++ rest) = trimChars rest :=
        trimChars_append (by simpa using hblank)
      rw [List.singleton_append, htrimmed] at hskip
      rw [← hskip, List.length_cons] at hshorter
      omega
    · by_contra hblank
      rw [Bool.not_eq_false] at hblank
      obtain ⟨rest, rfl⟩ := List.getLast?_eq_some_iff.mp hc
      have hshorter := length_trimChars_le rest
      have hskip : trimChars (rest ++ [c]) = trimChars rest :=
        append_trimChars (by simpa using hblank)
      rw [htrimmed] at hskip
      rw [← hskip, List.length_append, List.length_singleton] at hshorter
      omega
  · rintro ⟨hhead, hlast⟩
    have hkept : ∀ ds : List Char, (∀ c ∈ ds.head?, isBlank c = false) →
        ds.dropWhile isBlank = ds := by
      intro ds hds
      cases ds with
      | nil => rfl
      | cons d ds => rw [List.dropWhile_cons_of_neg (by simp [hds d (by simp)])]
    rw [← List.head?_reverse] at hlast
    rw [trimChars, trimStart, hkept cs hhead, trimEnd, hkept _ hlast, List.reverse_reverse]

end Text

namespace Path

variable {p : Path} {s e : String} {front last : List Char}

/-- The file name of a name is that name. -/
theorem fileName?_of_isName (hs : Location.IsName s) : (⟨s⟩ : Path).fileName? = some s := by
  have hcomponents : (⟨s⟩ : Path).components = [.name s] := by
    rw [components, isAbsolute_eq_false_of_slash hs.2.2.2, segments_name hs.1 hs.2.2.2,
      if_neg (by decide)]
    split
    · next hdot => exact absurd (List.cons.inj hdot).1 hs.2.1
    · simp [Component.ofSegment?, hs.2.1, hs.2.2.1]
  rw [fileName?, hcomponents]
  rfl

/-- **What follows the last dot of a name** is its extension, unless the dot is its first
character. -/
theorem extension?_of_dot (hs : Location.IsName s) (hsplit : s.toList = front ++ '.' :: last)
    (hfront : front ≠ []) (hlast : '.' ∉ last) :
    (⟨s⟩ : Path).extension? = some (String.ofList last) := by
  have hcut : Text.cut '.' s.toList.reverse = some (last.reverse, front.reverse) := by
    have hback : s.toList.reverse = last.reverse ++ '.' :: front.reverse := by
      rw [hsplit]
      simp
    rw [hback, Text.cut_append_sep (by simpa using hlast)]
  rw [extension?, fileName?_of_isName hs]
  simp [hcut, hfront]

/-- A file name is one of the segments of its path. -/
theorem mem_segments_of_fileName? (h : p.fileName? = some s) : s ∈ p.segments := by
  have hlast : p.components.getLast? = some (.name s) := by
    rw [fileName?] at h
    split at h
    · next t ht => rw [ht, Option.some.inj h]
    · cases h
  have hmem : ∀ segments : List String,
      Component.name s ∈ segments.filterMap Component.ofSegment? → s ∈ segments := by
    intro segments hs
    obtain ⟨t, ht, hof⟩ := List.mem_filterMap.mp hs
    rw [Component.ofSegment?] at hof
    split_ifs at hof with hdot hup
    · cases hof
    · cases hof
      exact ht
  have hcomponent := List.mem_of_getLast? hlast
  rw [components] at hcomponent
  split_ifs at hcomponent with habsolute
  · exact hmem p.segments ((List.mem_cons.mp hcomponent).resolve_left (by simp))
  · split at hcomponent
    · next rest hdot =>
        have hrest := (List.mem_cons.mp hcomponent).resolve_left (by simp)
        rw [hdot]
        exact List.mem_cons_of_mem _ (hmem rest hrest)
    · exact hmem p.segments hcomponent

/-- There are no dots and no slashes in an extension. -/
theorem notMem_of_extension? (h : p.extension? = some e) : '.' ∉ e.toList ∧ '/' ∉ e.toList := by
  rw [extension?] at h
  obtain ⟨name, hname, h⟩ := Option.bind_eq_some_iff.mp h
  obtain ⟨⟨after, before⟩, hcut, h⟩ := Option.bind_eq_some_iff.mp h
  have hdot : '.' ∈ name.toList.reverse := by
    by_contra hnone
    rw [Text.cut_eq_none_iff.mpr hnone] at hcut
    cases hcut
  rw [Text.cut_of_mem hdot] at hcut
  obtain ⟨rfl, -⟩ := Prod.mk.inj (Option.some.inj hcut)
  dsimp only at h
  split_ifs at h
  cases h
  rw [String.toList_ofList, List.mem_reverse, List.mem_reverse]
  refine ⟨fun hmem => ?_, fun hmem => ?_⟩
  · exact absurd (List.mem_takeWhile_imp hmem) (by simp)
  · have hslash := (of_mem_segments (mem_segments_of_fileName? hname)).2.1
    exact hslash (List.mem_reverse.mp ((List.takeWhile_subset _) hmem))

end Path

namespace Scanner

variable {k e : String} {cs : List Char}

/-- What one extension recognises. -/
theorem isArchiveName_singleton_iff {p : Path} :
    (ofExtensions [k]).isArchiveName p = true ↔
      normalExtension k ≠ "" ∧
        ∃ e, p.extension? = some e ∧ Text.sameLetters (normalExtension k) e = true := by
  rw [isArchiveName]
  cases p.extension? with
  | none => simp
  | some e =>
      by_cases hempty : normalExtension k = ""
      · simp [ofExtensions, hempty]
      · simp [ofExtensions, hempty]

/-- **Each extension of a list counts on its own.** -/
theorem isArchiveName_ofExtensions_iff {list : List String} {p : Path} :
    (ofExtensions list).isArchiveName p = true ↔
      ∃ k ∈ list, (ofExtensions [k]).isArchiveName p = true := by
  simp only [isArchiveName_singleton_iff]
  rw [isArchiveName]
  cases p.extension? with
  | none => simp
  | some e =>
      simp only [ofExtensions, List.any_eq_true, List.mem_filter, List.mem_map, decide_eq_true_eq,
        Option.some.injEq, exists_eq_left']
      constructor
      · rintro ⟨-, ⟨⟨k, hk, rfl⟩, hne⟩, hsame⟩
        exact ⟨k, hk, hne, hsame⟩
      · rintro ⟨k, hk, hne, hsame⟩
        exact ⟨_, ⟨⟨k, hk, rfl⟩, hne⟩, hsame⟩

/-- Whether an extension alone recognises the name that ends in a text after a dot. -/
def Covers (k e : String) : Prop := (ofExtensions [k]).isArchiveName ⟨"m." ++ e⟩ = true

/-- A text without dots and slashes that does not end in a blank. -/
structure Bare (cs : List Char) : Prop where
  /-- It is not empty. -/
  ne_nil : cs ≠ []
  /-- It has no dots. -/
  dot_notMem : '.' ∉ cs
  /-- It has no slashes. -/
  slash_notMem : '/' ∉ cs
  /-- It does not end in a blank. -/
  last_not_blank : ∀ c ∈ cs.getLast?, Text.isBlank c = false

/-- The extensions that are found again in the names ending in them. They are bare and do not start
with a blank, or they are bare texts behind dots, before which there may be blanks. -/
inductive Faithful : List Char → Prop
  | plain {bare : List Char} (hbare : Bare bare)
      (hhead : ∀ c ∈ bare.head?, Text.isBlank c = false) : Faithful bare
  | dotted {blanks dots bare : List Char} (hblanks : ∀ c ∈ blanks, Text.isBlank c = true)
      (hne : dots ≠ []) (hdots : ∀ c ∈ dots, c = '.') (hbare : Bare bare) :
      Faithful (blanks ++ (dots ++ bare))

/-- A bare extension has no dot in front to drop. -/
theorem Bare.dropWhile_dot (h : Bare cs) : cs.dropWhile (· = '.') = cs := by
  cases cs with
  | nil => rfl
  | cons c cs =>
      have hc : c ≠ '.' := fun hdot => h.dot_notMem (hdot ▸ List.mem_cons_self)
      rw [List.dropWhile_cons_of_neg (by simpa using hc)]

/-- What is left of an extension without blanks around it and dots in front of it. -/
def core (cs : List Char) : List Char := (Text.trimChars cs).dropWhile (· = '.')

/-- An extension is kept if something is left of it. -/
theorem normalExtension_ne_empty_iff : normalExtension e ≠ "" ↔ core e.toList ≠ [] := by
  rw [normalExtension, core]
  simp [String.ext_iff]

/-- What is left of it is compared without regard to case. -/
theorem sameLetters_normalExtension_iff :
    Text.sameLetters (normalExtension k) e = true ↔
      (core k.toList).map Char.toLower = e.toList.map Char.toLower := by
  have hlower : Char.toLower ∘ Char.toLower = Char.toLower := funext Text.toLower_toLower
  rw [Text.sameLetters, normalExtension, beq_iff_eq, String.toList_ofList, List.map_map, hlower,
    core]

/-- The name begins with one letter and a dot. -/
theorem toList_dotted (e : String) : ("m." ++ e).toList = ['m'] ++ '.' :: e.toList := by
  simp

/-- It is a name as long as the extension has no slash. -/
theorem isName_dotted (h : '/' ∉ e.toList) : Location.IsName ("m." ++ e) := by
  have hother : ∀ t : String, t.toList.head? ≠ some 'm' → "m." ++ e ≠ t := by
    rintro t ht rfl
    rw [toList_dotted] at ht
    exact ht rfl
  refine ⟨hother "" (by decide), hother "." (by decide), hother ".." (by decide), ?_⟩
  rw [toList_dotted]
  simpa using h

/-- The extension of a name that ends in a text without dots after a dot. -/
theorem extension?_dotted (hslash : '/' ∉ e.toList) (hdot : '.' ∉ e.toList) :
    (⟨"m." ++ e⟩ : Path).extension? = some e := by
  rw [Path.extension?_of_dot (isName_dotted hslash) (toList_dotted e) (by simp) hdot,
    String.ofList_toList]

/-- The extension of a name that ends in a text with dots after a dot. -/
theorem extension?_dotted_of_split {front : List Char} (hslash : '/' ∉ e.toList)
    (hsplit : e.toList = front ++ '.' :: cs) (hdot : '.' ∉ cs) :
    (⟨"m." ++ e⟩ : Path).extension? = some (String.ofList cs) := by
  have hlonger : ("m." ++ e).toList = ('m' :: '.' :: front) ++ '.' :: cs := by
    rw [toList_dotted, hsplit]
    rfl
  exact Path.extension?_of_dot (isName_dotted hslash) hlonger (by simp) hdot

/-- What is left of an extension stands in it between blanks, with dots in front. -/
theorem exists_core (cs : List Char) :
    ∃ blanks dots after, (∀ c ∈ blanks, Text.isBlank c = true) ∧ (∀ c ∈ dots, c = '.') ∧
      (∀ c ∈ after, Text.isBlank c = true) ∧ Text.trimChars cs = dots ++ core cs ∧
      cs = blanks ++ (dots ++ (core cs ++ after)) := by
  obtain ⟨blanks, after, hblanks, hafter, hsplit⟩ := Text.exists_trimChars cs
  have htrimmed : Text.trimChars cs =
      (Text.trimChars cs).takeWhile (· = '.') ++ core cs := List.takeWhile_append_dropWhile.symm
  refine ⟨blanks, (Text.trimChars cs).takeWhile (· = '.'), after, hblanks, fun c hc => ?_, hafter,
    htrimmed, ?_⟩
  · simpa using List.mem_takeWhile_imp hc
  · rw [← List.append_assoc _ (core cs), ← htrimmed]
    exact hsplit

/-- An extension that recognises the name ending in it is of one of the two forms. Dots and slashes
are the same in lower case, and the extension of the name starts at the last of the dots, if there
are any. -/
theorem faithful_of_covers (h : Covers e e) : Faithful e.toList := by
  obtain ⟨hne, x, hext, hsame⟩ := isArchiveName_singleton_iff.mp h
  rw [normalExtension_ne_empty_iff] at hne
  rw [sameLetters_normalExtension_iff] at hsame
  obtain ⟨hdotx, hslashx⟩ := Path.notMem_of_extension? hext
  obtain ⟨blanks, dots, after, hblanks, hdots, hafter, htrimmed, hsplit⟩ := exists_core e.toList
  have hkept : ∀ d : Char, d.val < 'A'.val → d.toLower = d → d ∉ x.toList → d ∉ core e.toList := by
    intro d hd hsmall hx hmem
    exact hx (Text.mem_of_mem_map_toLower hd (hsame ▸ Text.mem_map_toLower hsmall hmem))
  have hdot := hkept '.' (by decide) (by decide) hdotx
  have hslash := hkept '/' (by decide) (by decide) hslashx
  have hends := Text.trimChars_eq_self_iff.mp (Text.trimChars_trimChars e.toList)
  rw [htrimmed] at hends
  have hbare : Bare (core e.toList) := by
    refine ⟨hne, hdot, hslash, fun c hc => hends.2 c ?_⟩
    rwa [List.getLast?_append_of_ne_nil _ hne]
  have hlength : (core e.toList).length = x.toList.length := by
    simpa using congrArg List.length hsame
  generalize core e.toList = bare at *
  have hslashe : '/' ∉ e.toList := by
    rw [hsplit]
    simp only [List.mem_append, not_or]
    refine ⟨Text.notMem_of_blank (by decide) hblanks, fun hmem => ?_, hslash,
      Text.notMem_of_blank (by decide) hafter⟩
    exact absurd (hdots _ hmem) (by decide)
  have hdotafter : '.' ∉ bare ++ after := by
    simp only [List.mem_append, not_or]
    exact ⟨hdot, Text.notMem_of_blank (by decide) hafter⟩
  rcases List.eq_nil_or_concat dots with rfl | ⟨more, c, rfl⟩
  · have hdote : '.' ∉ e.toList := by
      rw [hsplit, List.nil_append, List.mem_append, not_or]
      exact ⟨Text.notMem_of_blank (by decide) hblanks, hdotafter⟩
    obtain rfl := Option.some.inj (hext.symm.trans (extension?_dotted hslashe hdote))
    have hwhole := congrArg List.length hsplit
    simp only [List.length_append, List.length_nil] at hwhole
    obtain rfl : blanks = [] := List.length_eq_zero_iff.mp (by omega)
    obtain rfl : after = [] := List.length_eq_zero_iff.mp (by omega)
    rw [List.nil_append, List.nil_append, List.append_nil] at hsplit
    rw [hsplit]
    exact .plain hbare hends.1
  · obtain rfl := hdots c (by simp)
    have hsplit' : e.toList = (blanks ++ more) ++ '.' :: (bare ++ after) := by
      rw [hsplit]
      simp
    have hx := hext.symm.trans (extension?_dotted_of_split hslashe hsplit' hdotafter)
    obtain rfl := Option.some.inj hx
    rw [String.toList_ofList, List.length_append] at hlength
    obtain rfl : after = [] := List.length_eq_zero_iff.mp (by omega)
    rw [List.append_nil] at hsplit
    rw [hsplit]
    exact .dotted hblanks (by simp) hdots hbare

/-- An extension of one of the two forms recognises the name ending in it. -/
theorem covers_of_faithful (h : Faithful e.toList) : Covers e e := by
  refine isArchiveName_singleton_iff.mpr ?_
  rw [normalExtension_ne_empty_iff]
  simp only [sameLetters_normalExtension_iff]
  generalize hcs : e.toList = cs at h
  cases h with
  | plain hbare hhead =>
      have hcore : core cs = cs := by
        rw [core, Text.trimChars_eq_self_iff.mpr ⟨hhead, hbare.last_not_blank⟩, hbare.dropWhile_dot]
      subst hcs
      rw [hcore]
      exact ⟨hbare.ne_nil, e, extension?_dotted hbare.slash_notMem hbare.dot_notMem, rfl⟩
  | @dotted blanks dots bare hblanks hne hdots hbare =>
      have hends : (∀ c ∈ (dots ++ bare).head?, Text.isBlank c = false) ∧
          ∀ c ∈ (dots ++ bare).getLast?, Text.isBlank c = false := by
        constructor
        · intro c hc
          rw [List.head?_append_of_ne_nil _ hne] at hc
          rw [hdots c (List.mem_of_head? hc)]
          decide
        · rw [List.getLast?_append_of_ne_nil _ hbare.ne_nil]
          exact hbare.last_not_blank
      have hcore : core (blanks ++ (dots ++ bare)) = bare := by
        rw [core, Text.trimChars_append hblanks, Text.trimChars_eq_self_iff.mpr hends,
          List.dropWhile_append_of_pos (by simpa using hdots), hbare.dropWhile_dot]
      obtain ⟨more, c, rfl⟩ := (List.eq_nil_or_concat dots).resolve_left hne
      obtain rfl := hdots c (by simp)
      have hsplit : e.toList = (blanks ++ more) ++ '.' :: bare := by
        rw [hcs]
        simp
      have hslash : '/' ∉ e.toList := by
        rw [hcs]
        simp only [List.mem_append, not_or]
        refine ⟨Text.notMem_of_blank (by decide) hblanks, fun hmem => ?_, hbare.slash_notMem⟩
        exact absurd (hdots _ hmem) (by decide)
      rw [hcore]
      refine ⟨hbare.ne_nil, _, extension?_dotted_of_split hslash hsplit hbare.dot_notMem, ?_⟩
      rw [String.toList_ofList]

/-- **An extension recognises the name that ends in it** exactly if it is faithful. -/
theorem covers_self_iff : Covers e e ↔ Faithful e.toList :=
  ⟨faithful_of_covers, covers_of_faithful⟩

end Scanner

/-! ### What validation ensures -/

namespace BootLayout

variable {l : LayoutConfig} {policy : FallbackPolicy}

/-- **With a policy that exists, a layout lacks nothing but settings**: unless one is missing, it is
put together, with that policy and with scanners for its extensions. -/
theorem ofConfig_cases (h : FallbackPolicy.ofText? l.fallbackPolicy = some policy)
    (s : Surroundings) :
    (∃ b, ofConfig s l = .ok b ∧ b.fallbackPolicy = policy ∧
      b.moduleScanner = .ofExtensions l.moduleExtensions ∧
      b.extensionScanner = .ofExtensions l.extensionModuleExtensions) ∨
    ∃ field, ofConfig s l = .error (.missingField field) := by
  have hhost : (∃ dir, l.hostDir = .ok dir) ∨
      ∃ field, l.hostDir = .error (.missingField field) := by
    rw [LayoutConfig.hostDir]
    cases l.hostDir? with
    | none => exact .inr ⟨_, rfl⟩
    | some dir => exact .inl ⟨dir, rfl⟩
  have hrepo : (∃ repo, l.appRepo s = .ok repo) ∨
      ∃ field, l.appRepo s = .error (.missingField field) := by
    rw [LayoutConfig.appRepo]
    cases l.appRepo? with
    | none =>
        cases s.executable.parent?.bind Path.parent? with
        | none => exact .inr ⟨_, rfl⟩
        | some install => exact .inl ⟨_, rfl⟩
    | some repo => exact .inl ⟨repo, rfl⟩
  have hlib : (∃ lib, l.libPath s = .ok lib) ∨
      ∃ field, l.libPath s = .error (.missingField field) := by
    rw [LayoutConfig.libPath]
    cases l.libPath? with
    | none =>
        rcases hrepo with ⟨repo, hrepo⟩ | ⟨field, hrepo⟩
        · exact .inl ⟨_, by rw [hrepo]; rfl⟩
        · exact .inr ⟨field, by rw [hrepo]; rfl⟩
    | some lib => exact .inl ⟨lib, rfl⟩
  rw [ofConfig, h]
  rcases hhost with ⟨dir, hhost⟩ | ⟨field, hhost⟩
  · rcases hrepo with ⟨repo, hrepo⟩ | ⟨field, hrepo⟩
    · rcases hlib with ⟨lib, hlib⟩ | ⟨field, hlib⟩
      · rw [hhost, hrepo, hlib]
        exact .inl ⟨_, rfl, rfl, rfl, rfl⟩
      · rw [hhost, hrepo, hlib]
        exact .inr ⟨field, rfl⟩
    · rw [hhost, hrepo]
      exact .inr ⟨field, rfl⟩
  · rw [hhost]
    exact .inr ⟨field, rfl⟩

end BootLayout

namespace RunnerConfig

variable {c : RunnerConfig} {fs : FileSystem}

/-- **What validation ensures.** Without fatal problems the policy exists, and a layout is put
together with it unless a setting is missing. An extension of one of the two lists is recognised
exactly if it is faithful or another extension of its list covers it; that is so of all extensions
without dots, slashes and blanks. -/
theorem validated_usable (h : c.fatalProblems fs = []) :
    (∃ policy, FallbackPolicy.ofText? c.layout.fallbackPolicy = some policy ∧
      ∀ s, (∃ b, BootLayout.ofConfig s c.layout = .ok b ∧ b.fallbackPolicy = policy ∧
          b.moduleScanner = .ofExtensions c.layout.moduleExtensions ∧
          b.extensionScanner = .ofExtensions c.layout.extensionModuleExtensions) ∨
        ∃ field, BootLayout.ofConfig s c.layout = .error (.missingField field)) ∧
    ∀ list ∈ [c.layout.moduleExtensions, c.layout.extensionModuleExtensions], ∀ e ∈ list,
      ((Scanner.ofExtensions list).isArchiveName ⟨"m." ++ e⟩ = true ↔
        Scanner.Faithful e.toList ∨ ∃ k ∈ list, k ≠ e ∧ Scanner.Covers k e) ∧
      ((∀ c ∈ e.toList, c ≠ '.' ∧ c ≠ '/' ∧ Text.isBlank c = false) →
        (Scanner.ofExtensions list).isArchiveName ⟨"m." ++ e⟩ = true) := by
  obtain ⟨policy, hpolicy⟩ := exists_policy h
  refine ⟨⟨policy, hpolicy, BootLayout.ofConfig_cases hpolicy⟩, fun list hlist e he => ?_⟩
  have hrecognised : (Scanner.ofExtensions list).isArchiveName ⟨"m." ++ e⟩ = true ↔
      Scanner.Faithful e.toList ∨ ∃ k ∈ list, k ≠ e ∧ Scanner.Covers k e := by
    rw [Scanner.isArchiveName_ofExtensions_iff, ← Scanner.covers_self_iff]
    constructor
    · rintro ⟨k, hk, hcovers⟩
      by_cases hself : k = e
      · exact .inl (hself ▸ hcovers)
      · exact .inr ⟨k, hk, hself, hcovers⟩
    · rintro (hself | ⟨k, hk, -, hcovers⟩)
      · exact ⟨e, he, hself⟩
      · exact ⟨k, hk, hcovers⟩
  refine ⟨hrecognised, fun hplain => hrecognised.mpr (.inl (.plain ⟨?_, ?_, ?_, ?_⟩ ?_))⟩
  · intro hempty
    exact ne_empty_of_mem h hlist e he (String.toList_eq_nil_iff.mp hempty)
  · exact fun hmem => (hplain _ hmem).1 rfl
  · exact fun hmem => (hplain _ hmem).2.1 rfl
  · exact fun c hc => (hplain c (List.mem_of_getLast? hc)).2.2
  · exact fun c hc => (hplain c (List.mem_of_head? hc)).2.2

/-- Settings in which one extension is only recognised through another, and one has a blank and a
dot in front. -/
def coveredSettings : RunnerConfig :=
  { layout := { moduleExtensions := ["JAR", "tar.gz", "gz", " .war"] } }

/-- The general theorem for these settings. -/
theorem validated_usable_covered :
    coveredSettings.fatalProblems {} = [] ∧
      (∃ policy, FallbackPolicy.ofText? coveredSettings.layout.fallbackPolicy = some policy) ∧
      (Scanner.ofExtensions ["JAR", "tar.gz", "gz", " .war"]).isArchiveName ⟨"m.tar.gz"⟩ = true ∧
      (Scanner.ofExtensions ["JAR", "tar.gz", "gz", " .war"]).isArchiveName ⟨"m. .war"⟩ = true := by
  have hvalid : coveredSettings.fatalProblems {} = [] := by decide
  obtain ⟨⟨policy, hpolicy, -⟩, hextensions⟩ := validated_usable hvalid
  have hlist : ["JAR", "tar.gz", "gz", " .war"] ∈ [coveredSettings.layout.moduleExtensions,
      coveredSettings.layout.extensionModuleExtensions] := List.mem_cons_self
  have hcovers : Scanner.Covers "gz" "tar.gz" := by
    rw [Scanner.Covers]
    decide
  have hlast : ∀ c ∈ ['w', 'a', 'r'].getLast?, Text.isBlank c = false := by
    intro c hc
    cases hc
    decide
  have hblank : ∀ c ∈ [' '], Text.isBlank c = true := by
    intro c hc
    rw [List.mem_singleton.mp hc]
    decide
  have hfaithful : Scanner.Faithful ([' '] ++ (['.'] ++ ['w', 'a', 'r'])) :=
    .dotted hblank (by simp) (by simp) ⟨by simp, by simp, by simp, hlast⟩
  refine ⟨hvalid, ⟨policy, hpolicy⟩, ?_, ?_⟩
  · exact ((hextensions _ hlist "tar.gz" (by simp)).1).mpr
      (.inr ⟨"gz", by simp, by simp, hcovers⟩)
  · exact ((hextensions _ hlist " .war" (by simp)).1).mpr (.inl hfaithful)

/-- **Validation lets an extension through that is never recognised**: its names are told by what
follows the last dot. -/
theorem not_validated_usable :
    ¬ ∀ (c : RunnerConfig) (fs : FileSystem), c.fatalProblems fs = [] →
      ∀ list ∈ [c.layout.moduleExtensions, c.layout.extensionModuleExtensions], ∀ e ∈ list,
        (Scanner.ofExtensions list).isArchiveName ⟨"m." ++ e⟩ = true := by
  intro h
  have hrecognised := h { layout := { moduleExtensions := ["tar.gz"] } } {} (by decide)
    ["tar.gz"] List.mem_cons_self "tar.gz" List.mem_cons_self
  exact absurd hrecognised (by decide)

end RunnerConfig

end RealmBoot
