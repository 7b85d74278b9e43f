import RealmBoot.Proofs.BelowHome
import RealmBoot.Proofs.LocationReading

/-!
# Free Names

What keeps a directory from being made, or a file from being copied, is that its path cannot be
followed to a free name in a directory. Below a home, where no links are, that is told by the nodes
there: a path that continues the path of the home by names leads to the place with these names, if
all but the last of them are directories. Then a directory is made there in one step, and a file is
copied there with all its bytes.

## Main results

* `FileSystem.follow_free`: names of directories, and a free one, lead to the free place.
* `FileSystem.GrowsBelow.createDirs_free`: a directory is made under a free name.
* `FileSystem.GrowsBelow.copy_free`: a file is copied to a free name.
-/

namespace RealmBoot

/-! ### The text of a longer path -/

namespace Path

variable {p q : Path} {s : String} {names : List String}

/-- A relative path is written behind another one, if need be with a slash between them. -/
theorem exists_text_join (h : q.isAbsolute = false) :
    ∃ sep, (sep = "" ∨ sep = "/") ∧ (p.join q).text = p.text ++ sep ++ q.text := by
  rw [join, if_neg (by simp [h])]
  split_ifs
  · exact ⟨"", .inl rfl, by simp⟩
  · exact ⟨"/", .inr rfl, rfl⟩

/-- The characters of a longer path are those of its parts, slashes aside. -/
theorem mem_text_join {c : Char} (h : q.isAbsolute = false) (hc : c ≠ '/') :
    c ∈ (p.join q).text.toList ↔ c ∈ p.text.toList ∨ c ∈ q.text.toList := by
  obtain ⟨sep, hsep, htext⟩ := exists_text_join (p := p) h
  have hnot : c ∉ sep.toList := by
    rcases hsep with rfl | rfl
    · simp
    · simpa using hc
  simp [htext, hnot]

/-- A path ends in a slash if what was joined to it last does. -/
theorem endsInSlash_append (t : String) (hq : q.text ≠ "") :
    (⟨t ++ q.text⟩ : Path).endsInSlash = q.endsInSlash := by
  have hne : q.text.toList ≠ [] := fun h => hq (String.toList_eq_nil_iff.mp h)
  rw [endsInSlash, endsInSlash, String.toList_append, List.getLast?_append,
    List.getLast?_eq_some_getLast hne, Option.some_or]

/-- A path that is made longer by names does not end in a slash. -/
theorem endsInSlash_join_names (hne : names ≠ []) (hnames : ∀ s ∈ names, Location.IsName s) :
    (p.join ⟨Text.joined "/" names⟩).endsInSlash = false := by
  have hplain : ∀ s ∈ names, s ≠ "" ∧ '/' ∉ s.toList :=
    fun s hs => ⟨(hnames s hs).1, (hnames s hs).2.2.2⟩
  have hjoined : Text.joined "/" names ≠ "" := by
    intro hempty
    have hsegments := segments_joined hplain
    rw [hempty, segments_empty] at hsegments
    exact hne hsegments.symm
  obtain ⟨sep, -, htext⟩ := exists_text_join (p := p) (isAbsolute_joined hplain)
  have hroot := Location.endsInSlash_path (l := ⟨names⟩) hne hplain
  rw [Location.path, endsInSlash_append "/" (q := ⟨Text.joined "/" names⟩) hjoined] at hroot
  have hlonger := endsInSlash_append (p.text ++ sep) (q := ⟨Text.joined "/" names⟩) hjoined
  rw [← htext] at hlonger
  exact hlonger.trans hroot

end Path

namespace FileSystem

variable {base fs fs' : FileSystem} {last : AtEnd} {links : Nat} {q r : Place} {names : List String}
  {home p source : Path} {s : String} {allowed : Place → Node → Prop}

/-! ### Checking longer paths -/

/-- A path can be followed if it has no null character, is not empty, and is not too long. -/
theorem checkPath_eq_ok_iff :
    checkPath p = .ok () ↔
      '\x00' ∉ p.text.toList ∧ p.text ≠ "" ∧ p.text.utf8ByteSize ≤ pathLimit := by
  constructor
  · intro h
    exact ⟨noNull_of_checkPath h, text_ne_empty_of_checkPath h, size_le_of_checkPath h⟩
  · rintro ⟨hnull, hempty, hsize⟩
    rw [checkPath, if_neg hnull, if_neg hempty, if_neg (Nat.not_lt.mpr hsize)]

/-- A name has no null character that the path with it does not have. -/
theorem noNull_child (hs : Location.IsName s) :
    '\x00' ∉ (p.child s).text.toList ↔ '\x00' ∉ p.text.toList ∧ '\x00' ∉ s.toList := by
  rw [Path.child, Path.mem_text_join (Path.isAbsolute_eq_false_of_slash hs.2.2.2) (by decide),
    not_or]

/-- What can be followed with a name more can be followed without it. -/
theorem checkPath_of_child (hp : p.text ≠ "") (hs : Location.IsName s)
    (h : checkPath (p.child s) = .ok ()) : checkPath p = .ok () := by
  obtain ⟨hnull, -, hsize⟩ := checkPath_eq_ok_iff.mp h
  have hshorter := Path.size_lt_child (p := p) hs
  exact checkPath_eq_ok_iff.mpr ⟨((noNull_child hs).mp hnull).1, hp, by omega⟩

/-- A path made longer by names can be followed if it is not too long. -/
theorem checkPath_join_names (hp : checkPath p = .ok ()) (hnames : ∀ s ∈ names, NameAllowed s)
    (hsize : (p.join ⟨Text.joined "/" names⟩).text.utf8ByteSize ≤ pathLimit) :
    checkPath (p.join ⟨Text.joined "/" names⟩) = .ok () := by
  have hrelative := Path.isAbsolute_joined fun s hs =>
    ⟨(hnames s hs).isName.1, (hnames s hs).isName.2.2.2⟩
  refine checkPath_eq_ok_iff.mpr ⟨?_, ?_, hsize⟩
  · rw [Path.mem_text_join hrelative (by decide), not_or]
    refine ⟨noNull_of_checkPath hp, fun hnull => ?_⟩
    rcases Text.of_mem_joined hnull with hsep | ⟨s, hs, hchar⟩
    · simp at hsep
    · exact (hnames s hs).noNull hchar
  · obtain ⟨sep, -, htext⟩ := Path.exists_text_join (p := p) hrelative
    intro hempty
    rw [htext, String.append_eq_empty_iff, String.append_eq_empty_iff] at hempty
    exact text_ne_empty_of_checkPath hp hempty.1.1

/-! ### Free names -/

/-- **Names of directories, and a free one behind them, lead to the free place.** -/
theorem follow_free (hne : names ≠ []) (hnames : ∀ s ∈ names, NameAllowed s)
    (hdir : fs.node? (q ++ names).dropLast = some .directory)
    (hfree : fs.node? (q ++ names) = none) :
    fs.follow last links q names = .ok (.vacant (q ++ names)) := by
  obtain ⟨above, s, rfl⟩ : ∃ above s, names = above ++ [s] :=
    ⟨_, _, (List.dropLast_append_getLast hne).symm⟩
  rw [← List.append_assoc, List.dropLast_concat] at hdir
  have hq : fs.node? q = some .directory := by
    by_cases habove : above = []
    · rwa [habove, List.append_nil] at hdir
    · exact node?_parent habove hdir
  have hplace : (s :: (above.reverse ++ q.reverse)).reverse = q ++ (above ++ [s]) := by simp
  have hdown := stretch_down last q.reverse (fun t ht => hnames t (List.mem_append_left _ ht))
    (by rwa [List.reverse_reverse]) [s]
  have hlast : fs.stretch last (above.reverse ++ q.reverse) [s] =
      .done (.vacant (q ++ (above ++ [s]))) := by
    rw [(hnames s (by simp)).lookedUp.stretch_cons, hplace, hfree, enter, List.isEmpty_nil,
      if_pos rfl, hplace]
  rw [follow_eq_resume hq, hdown, hlast]
  rfl

namespace GrowsBelow

variable (h : GrowsBelow allowed home base fs) (hempty : base.EmptyAt home q)
  (hcont : p.Continues home names) (hne : names ≠ []) (hnames : ∀ s ∈ names, NameAllowed s)
  (hdir : fs.node? (q ++ names).dropLast = some .directory)
  (hfree : fs.node? (q ++ names) = none)
include h hempty hcont

/-- A path that continues the path of the home does not start from a directory that is gone. -/
theorem isAdrift_continues : fs.isAdrift p = false := by
  obtain ⟨hcheck, hadrift, -⟩ := lead_eq_arrived_iff.mp (place_eq_ok_iff.mp hempty.place)
  rw [isAdrift, decide_eq_true (text_ne_empty_of_checkPath hcheck)] at hadrift
  rw [isAdrift, hcont.absolute, h.grows.workDir, Bool.and_assoc]
  rw [Bool.true_and] at hadrift
  rw [hadrift, Bool.and_false]

include hne hnames hdir hfree

/-- A path that continues the path of the home leads to a free name below it. -/
theorem follow_free_below (last : AtEnd) :
    fs.follow last linkLimit (start fs.workLocation.names p) p.segments =
      .ok (.vacant (q ++ names)) := by
  obtain ⟨left, hthrough⟩ := h.through hempty
  rw [start, hcont.absolute, ← start, hcont.segments, hthrough.onward last names hne]
  exact follow_free hne hnames hdir hfree

/-- **A directory is made under a free name below the home** without those above it. -/
theorem createDirs_free (hcheck : checkPath p = .ok ()) :
    outcome (createDirs p) fs = (.ok (), fs.put (q ++ names) .directory) := by
  have hcreate : fs.createDir p = .ok (fs.put (q ++ names) .directory) :=
    createDir_eq_ok_iff.mpr ⟨hcheck, h.isAdrift_continues hempty hcont, q ++ names,
      h.follow_free_below hempty hcont hne hnames hdir hfree .kept, rfl⟩
  rw [createDirs, if_neg (text_ne_empty_of_checkPath hcheck), createDirAfter,
    outcome_bind_of_ok (outcome_get fs), hcreate]
  rfl

/-- **A file is copied to a free name below the home.** -/
theorem copy_free (hcheck : checkPath p = .ok ()) (hslash : p.endsInSlash = false)
    {bytes : ByteArray} {time : Stamp} (hsource : fs.place source = .ok r)
    (hr : fs.node? r = some (.file bytes time)) :
    ∃ fs' tick, fs.copy source p = .ok fs' ∧
      fs.WrittenAt (q ++ names) bytes (.written tick) fs' := by
  have hplace : fs.writePlace p = .ok (q ++ names) :=
    writePlace_eq_ok_iff.mpr ⟨hcheck, h.isAdrift_continues hempty hcont, hslash,
      .vacant (q ++ names), h.follow_free_below hempty hcont hne hnames hdir hfree .filled,
      .inl rfl⟩
  have hemptied : fs.WrittenAt (q ++ names) .empty _ _ := (writable_of_writePlace hplace).putFile
  have hother : r ≠ q ++ names := by
    rintro rfl
    rw [hfree] at hr
    cases hr
  have hread := (hemptied.elsewhere r hother).trans hr
  have hagain := (hemptied.writes.of_writePlace hplace hemptied.stands).2
  refine ⟨(fs.putFile (q ++ names) .empty).putFile (q ++ names) bytes, _, ?_,
    hemptied.trans (writable_of_writePlace hagain).putFile⟩
  rw [FileSystem.copy, place_eq_ok_iff.mp hsource]
  refine except_bind_eq_ok_iff.mpr ⟨.arrived r, rfl, ?_⟩
  dsimp only
  rw [hr, if_neg (by simp [Node.kind])]
  refine except_bind_eq_ok_iff.mpr ⟨fs.putFile (q ++ names) .empty, ?_, ?_⟩
  · exact except_bind_eq_ok_iff.mpr ⟨_, hplace, rfl⟩
  · rw [hread]
    exact except_bind_eq_ok_iff.mpr ⟨_, hagain, rfl⟩

end GrowsBelow

end FileSystem

end RealmBoot
