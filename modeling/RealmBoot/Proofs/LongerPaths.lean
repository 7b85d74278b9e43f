import Mathlib.Tactic.SplitIfs
import RealmBoot.Path.Location
import RealmBoot.Proofs.Following
import RealmBoot.Proofs.NamedFiles
import RealmBoot.Proofs.Outcome

/-!
# Longer Paths

A path that leads to a directory can be made longer by names, and then leads on from there. This
module says what that does to the segments of a path, and to where it leads: a longer path is
followed by following the shorter one, with all links on the way, and then the rest. It also says
that a `.` on the way makes no difference to a path that leads somewhere.

## Main results

* `Path.segments_join`, `Path.segments_child`: the segments of a longer path.
* `FileSystem.through_or_stuck`: a list of segments leads to a directory, from where it can be
  continued, or every continuation of it fails.
* `FileSystem.follow_child`: where a path leads that is one name longer.
* `FileSystem.follow_fewerDots`: dropping `.` segments.
-/

namespace RealmBoot

/-- A name with an ending is a name if neither has a slash and the ending is longer than two
dots. -/
theorem Location.isName_append {name ending : String} (hname : '/' ∉ name.toList)
    (hending : '/' ∉ ending.toList) (hlong : 2 < ending.toList.length) :
    IsName (name ++ ending) := by
  have hlength : 2 < (name ++ ending).toList.length := by
    rw [String.toList_append, List.length_append]
    omega
  refine ⟨?_, ?_, ?_, by simp [hname, hending]⟩ <;>
  · intro heq
    rw [heq] at hlength
    simp at hlength

/-! ### Segments -/

namespace Text

/-- The pieces around a separator. -/
theorem pieces_append_cons (sep : Char) (a b : List Char) :
    pieces sep (a ++ sep :: b) = pieces sep a ++ pieces sep b := by
  induction a with
  | nil => simp [pieces]
  | cons c a ih =>
      by_cases hc : c = sep
      · simp [pieces, hc, ih]
      · cases ha : pieces sep a with
        | nil => exact absurd ha (pieces_ne_nil sep a)
        | cons piece more => simp [pieces, hc, ih, ha]

/-- No piece has the separator in it, and each of its characters comes from the text. -/
theorem of_mem_pieces {sep c : Char} {cs piece : List Char} (h : piece ∈ pieces sep cs)
    (hc : c ∈ piece) : c ≠ sep ∧ c ∈ cs := by
  induction cs generalizing piece with
  | nil =>
      obtain rfl : piece = [] := by simpa [pieces] using h
      cases hc
  | cons d cs ih =>
      by_cases hd : d = sep
      · simp only [pieces, if_pos hd, List.mem_cons] at h
        rcases h with rfl | h
        · cases hc
        · exact ⟨(ih h hc).1, List.mem_cons_of_mem _ (ih h hc).2⟩
      · cases hcs : pieces sep cs with
        | nil => exact absurd hcs (pieces_ne_nil sep cs)
        | cons first more =>
            simp only [pieces, if_neg hd, hcs, List.mem_cons] at h
            rcases h with rfl | h
            · rcases List.mem_cons.mp hc with rfl | hc
              · exact ⟨hd, List.mem_cons_self⟩
              · have hin := ih (hcs ▸ List.mem_cons_self) hc
                exact ⟨hin.1, List.mem_cons_of_mem _ hin.2⟩
            · have hin := ih (hcs ▸ List.mem_cons_of_mem _ h) hc
              exact ⟨hin.1, List.mem_cons_of_mem _ hin.2⟩

end Text

namespace Path

variable {p q : Path} {s : String}

/-- The empty path has no segments. -/
theorem segments_empty : (⟨""⟩ : Path).segments = [] := rfl

/-- The segments around a slash. -/
theorem segments_slash (a b : String) :
    (⟨a ++ "/" ++ b⟩ : Path).segments = (⟨a⟩ : Path).segments ++ (⟨b⟩ : Path).segments := by
  have hchars : (a ++ "/" ++ b).toList = a.toList ++ '/' :: b.toList := by simp
  simp only [segments, Text.piecesOf, hchars, Text.pieces_append_cons, List.map_append,
    List.filter_append]

/-- A segment is not empty, has no slash, and its characters come from the path. -/
theorem of_mem_segments (h : s ∈ p.segments) :
    s ≠ "" ∧ '/' ∉ s.toList ∧ ∀ c ∈ s.toList, c ∈ p.text.toList := by
  simp only [segments, Text.piecesOf, List.mem_filter, List.mem_map] at h
  obtain ⟨⟨piece, hpiece, rfl⟩, hne⟩ := h
  rw [String.toList_ofList]
  refine ⟨by simpa using hne, fun hc => ?_, fun c hc => (Text.of_mem_pieces hpiece hc).2⟩
  exact (Text.of_mem_pieces hpiece hc).1 rfl

/-- A text without a slash is its own segment. -/
theorem segments_name (hne : s ≠ "") (hslash : '/' ∉ s.toList) : (⟨s⟩ : Path).segments = [s] := by
  simp [segments, Text.piecesOf, Text.pieces_eq_singleton hslash, String.ofList_toList, hne]

/-- A path that ends in a slash has its text before it. -/
theorem exists_of_endsInSlash (h : p.endsInSlash = true) : ∃ a, p.text = a ++ "/" := by
  rw [endsInSlash, beq_iff_eq] at h
  refine ⟨String.ofList p.text.toList.dropLast, String.ext ?_⟩
  have hne : p.text.toList ≠ [] := by
    intro hnil
    simp [hnil] at h
  rw [String.toList_append, String.toList_ofList]
  have hlast : p.text.toList.getLast hne = '/' := by
    rw [List.getLast?_eq_some_getLast hne] at h
    exact Option.some.inj h
  calc p.text.toList = p.text.toList.dropLast ++ [p.text.toList.getLast hne] :=
        (List.dropLast_concat_getLast hne).symm
    _ = p.text.toList.dropLast ++ "/".toList := by rw [hlast]; rfl

/-- The segments of two paths joined, unless the second stands for itself. -/
theorem segments_join (h : q.isAbsolute = false) :
    (p.join q).segments = p.segments ++ q.segments := by
  rw [join, h]
  simp only [Bool.false_eq_true, if_false]
  split_ifs with hend
  · rcases Bool.or_eq_true _ _ |>.mp hend with hempty | hslash
    · rw [decide_eq_true_eq] at hempty
      have hnone : p.segments = [] := by rw [segments, hempty]; rfl
      rw [hnone, hempty, List.nil_append, String.empty_append]
    · obtain ⟨a, ha⟩ := exists_of_endsInSlash hslash
      have hp : p.segments = (⟨a⟩ : Path).segments := by
        have hsplit := segments_slash a ""
        rw [String.append_empty, segments_empty, List.append_nil] at hsplit
        rw [← hsplit, ← ha]
      rw [hp, ha, segments_slash]
  · exact segments_slash p.text q.text

/-- The segments of a path that is written as texts between slashes. -/
theorem segments_joined {texts : List String} (h : ∀ s ∈ texts, s ≠ "" ∧ '/' ∉ s.toList) :
    (⟨Text.joined "/" texts⟩ : Path).segments = texts := by
  induction texts with
  | nil => rfl
  | cons s texts ih =>
      have hs := h s List.mem_cons_self
      cases texts with
      | nil => exact segments_name hs.1 hs.2
      | cons t texts =>
          rw [Text.joined, segments_slash, segments_name hs.1 hs.2,
            ih fun s hs => h s (List.mem_cons_of_mem _ hs)]
          rfl

/-- Where a path starts is told by its first character. -/
theorem isAbsolute_append (hs : s ≠ "") (t : String) :
    (⟨s ++ t⟩ : Path).isAbsolute = (⟨s⟩ : Path).isAbsolute := by
  cases hchars : s.toList with
  | nil => exact absurd (String.toList_eq_nil_iff.mp hchars) hs
  | cons c cs => simp [isAbsolute, hchars]

/-- An absolute path is not empty. -/
theorem text_ne_empty_of_isAbsolute (h : p.isAbsolute = true) : p.text ≠ "" := by
  intro hempty
  simp [isAbsolute, hempty] at h

/-- A path without slashes is not absolute. -/
theorem isAbsolute_eq_false_of_slash (h : '/' ∉ s.toList) : (⟨s⟩ : Path).isAbsolute = false := by
  rw [isAbsolute, beq_eq_false_iff_ne]
  intro hhead
  exact h (List.mem_of_head? hhead)

/-- A path of names joined by slashes is not absolute. -/
theorem isAbsolute_joined {texts : List String} (h : ∀ s ∈ texts, s ≠ "" ∧ '/' ∉ s.toList) :
    (⟨Text.joined "/" texts⟩ : Path).isAbsolute = false := by
  cases texts with
  | nil => rfl
  | cons s texts =>
      have hs := h s List.mem_cons_self
      cases texts with
      | nil => exact isAbsolute_eq_false_of_slash hs.2
      | cons t texts =>
          rw [Text.joined, String.append_assoc, isAbsolute_append hs.1,
            isAbsolute_eq_false_of_slash hs.2]

/-- A path that something is joined to is not empty. -/
theorem text_join_ne_empty (hq : q.text ≠ "") : (p.join q).text ≠ "" := by
  rw [join]
  split_ifs
  · exact hq
  · simp [hq]
  · simp [hq]

/-- A path made longer starts where it did. -/
theorem isAbsolute_join (hp : p.text ≠ "") (h : q.isAbsolute = false) :
    (p.join q).isAbsolute = p.isAbsolute := by
  rw [join, h]
  simp only [Bool.false_eq_true, if_false]
  split_ifs
  · exact isAbsolute_append hp q.text
  · rw [String.append_assoc]
    exact isAbsolute_append hp _

/-- Whatever an absolute path is joined with, the outcome is absolute. -/
theorem isAbsolute_join_of_left (h : p.isAbsolute = true) (q : Path) :
    (p.join q).isAbsolute = true := by
  cases hq : q.isAbsolute with
  | true =>
      rw [join, if_pos hq]
      exact hq
  | false => rw [isAbsolute_join (text_ne_empty_of_isAbsolute h) hq, h]

section Child

variable (hs : Location.IsName s)
include hs

/-- The path of a name in a directory has one segment more. -/
theorem segments_child : (p.child s).segments = p.segments ++ [s] := by
  rw [child, segments_join (isAbsolute_eq_false_of_slash hs.2.2.2), segments_name hs.1 hs.2.2.2]

/-- It is absolute if that of the directory is. -/
theorem isAbsolute_child (hp : p.text ≠ "") : (p.child s).isAbsolute = p.isAbsolute :=
  isAbsolute_join hp (isAbsolute_eq_false_of_slash hs.2.2.2)

/-- It is not empty. -/
theorem text_child_ne_empty : (p.child s).text ≠ "" := text_join_ne_empty hs.1

/-- It does not end in a slash. -/
theorem endsInSlash_child : (p.child s).endsInSlash = false := by
  have hlast : ∀ t : String, (⟨t ++ s⟩ : Path).endsInSlash = false := by
    intro t
    have hne : s.toList ≠ [] := fun h => hs.1 (String.toList_eq_nil_iff.mp h)
    rw [endsInSlash, beq_eq_false_iff_ne, String.toList_append, List.getLast?_append,
      List.getLast?_eq_some_getLast hne, Option.some_or]
    intro hslash
    exact hs.2.2.2 (Option.some.inj hslash ▸ List.getLast_mem hne)
  rw [child, join, isAbsolute_eq_false_of_slash hs.2.2.2]
  simp only [Bool.false_eq_true, if_false]
  split_ifs
  · exact hlast _
  · exact hlast _

/-- A path is made longer by the whole name. -/
theorem size_add_le_child :
    p.text.utf8ByteSize + s.utf8ByteSize ≤ (p.child s).text.utf8ByteSize := by
  rw [child, join, isAbsolute_eq_false_of_slash hs.2.2.2]
  simp only [Bool.false_eq_true, if_false]
  split_ifs <;> simp only [String.utf8ByteSize_append] <;> omega

/-- Every name makes a path longer. -/
theorem size_lt_child : p.text.utf8ByteSize < (p.child s).text.utf8ByteSize := by
  have hpos : 0 < s.utf8ByteSize := by
    refine Nat.pos_of_ne_zero fun h => hs.1 ?_
    exact String.utf8ByteSize_eq_zero_iff.mp h
  have hsize := size_add_le_child (p := p) hs
  omega

end Child

end Path

namespace FileSystem

variable {fs : FileSystem} {last : AtEnd} {links : Nat} {here q : Place}
  {trail todo todo' more rest : List String} {p : Path} {s : String} {lead : Lead}

/-! ### Following in two parts -/

/-- What a stretch comes to with some links left to follow. -/
def resume (fs : FileSystem) (last : AtEnd) (links : Nat) : Stretch → Except Fault Lead
  | .done lead => .ok lead
  | .failed fault => .error fault
  | .crossing base target rest =>
    match links with
    | 0 => .error .tooManyLinks
    | left + 1 =>
      if last = .filled && rest.isEmpty && target.endsInSlash then
        match fs.follow .followed left (start base target) (stepsAbove target) with
        | .ok _ => .error .isDirectory
        | .error fault => .error fault
      else fs.follow last left (start base target) (steps target ++ rest)

/-- Following a path goes as far as it can without a link, and then resumes. -/
theorem follow_eq_resume (h : fs.node? here = some .directory) (last : AtEnd) (links : Nat)
    (todo : List String) :
    fs.follow last links here todo = fs.resume last links (fs.stretch last here.reverse todo) := by
  rw [follow, isDirectoryAt_iff.mpr h, stretch, List.reverse_reverse]
  simp only [Bool.not_true, Bool.false_eq_true, if_false]
  cases fs.advance last here.reverse (fs.contents here) todo with
  | done lead => rfl
  | failed fault => rfl
  | crossing base target rest => cases links <;> rfl

/-- From what is no directory no path leads anywhere. -/
theorem follow_of_not_directory (h : fs.node? here ≠ some .directory) :
    fs.follow last links here todo = .error .notFound := by
  have hdir : fs.isDirectoryAt here = false := by
    rw [Bool.eq_false_iff]
    exact fun hdir => h (isDirectoryAt_iff.mp hdir)
  rw [follow, hdir]
  rfl

/-- Following a link at the end makes a difference to a stretch only if it ends at one. -/
theorem stretch_followed (h : ∀ q target, fs.stretch .kept trail todo = .done (.arrived q) →
    fs.node? q ≠ some (.link target)) :
    fs.stretch .followed trail todo = fs.stretch .kept trail todo := by
  rw [stretch_eq_iff]
  generalize hr : fs.stretch .kept trail todo = r at h ⊢
  induction stretch_eq_iff.mp hr with
  | nil trail => exact .nil trail
  | dot on ih => exact .dot (ih (stretch_eq_iff.mpr on) h)
  | up on ih => exact .up (ih (stretch_eq_iff.mpr on) h)
  | into hs hnode on ih => exact .into hs hnode (ih (stretch_eq_iff.mpr on) h)
  | tooLong hdot hup hlong => exact .tooLong hdot hup hlong
  | vacant hs hfree => exact .vacant hs hfree
  | missing hs hfree hmore => exact .missing hs hfree hmore
  | blocked hs hnode hmore => exact .blocked hs hnode hmore
  | crossing hs hnode _ => exact .crossing hs hnode fun _ => by simp
  | @arrived trail s n hs hnode hkind =>
      rcases hkind with hfile | ⟨hlink, -⟩
      · exact .arrived hs hnode (.inl hfile)
      · cases n with
        | link target => exact absurd hnode (h _ target rfl)
        | file => cases hlink
        | directory => cases hlink

/-- **Following a link at the end makes a difference to a path only if it ends at one.** -/
theorem follow_followed (h : ∀ q target, fs.follow .kept links here todo = .ok (.arrived q) →
    fs.node? q ≠ some (.link target)) :
    fs.follow .followed links here todo = fs.follow .kept links here todo := by
  induction links using Nat.strongRecOn generalizing here todo with
  | ind links ih =>
      rcases ne_or_eq (fs.node? here) (some .directory) with hdir | hdir
      · rw [follow_of_not_directory hdir, follow_of_not_directory hdir]
      have hkept := follow_eq_resume hdir .kept links todo
      have hstretch : fs.stretch .followed here.reverse todo =
          fs.stretch .kept here.reverse todo := by
        refine stretch_followed fun q target hq => h q target ?_
        rw [hkept, hq, resume]
      rw [follow_eq_resume hdir, hkept, hstretch]
      cases hcross : fs.stretch .kept here.reverse todo with
      | done lead => rfl
      | failed fault => rfl
      | crossing base target rest =>
          cases links with
          | zero => rfl
          | succ left =>
              rw [hcross] at hkept
              have hon : fs.follow .kept (left + 1) here todo =
                  fs.follow .kept left (start base target) (steps target ++ rest) := hkept
              rw [hon] at h
              exact ih left (Nat.lt_succ_self left) h

/-- What becomes of a stretch that follows all links, if the path goes on at its end. -/
def onward (fs : FileSystem) (last : AtEnd) (more : List String) : Stretch → Stretch
  | .done (.arrived q) =>
    if fs.isDirectoryAt q then fs.stretch last q.reverse more else .failed .notDirectory
  | .done (.vacant _) => .failed .notFound
  | .done .adrift => .done .adrift
  | .failed fault => .failed fault
  | .crossing base target rest => .crossing base target (rest ++ more)

/-- A longer path goes on from where the shorter one has come to. -/
theorem stretch_append (hdir : fs.node? trail.reverse = some .directory) (hmore : more ≠ []) :
    fs.stretch last trail (todo ++ more) =
      fs.onward last more (fs.stretch .followed trail todo) := by
  have hlonger : ∀ rest : List String, rest ++ more ≠ [] := fun rest => by simp [hmore]
  generalize hr : fs.stretch .followed trail todo = r
  rw [stretch_eq_iff] at hr
  induction hr with
  | nil trail => simp [onward, isDirectoryAt_iff.mpr hdir]
  | dot _ ih =>
      rw [List.cons_append, stretch_cons, if_pos rfl]
      exact ih hdir
  | up _ ih =>
      rw [List.cons_append, stretch_cons, if_neg (by decide), if_pos rfl]
      exact ih (node?_tail hdir)
  | tooLong hdot hup hlong => exact stretch_eq_iff.mpr (.tooLong hdot hup hlong)
  | into hs hnode _ ih =>
      rw [List.cons_append, hs.stretch_cons, hnode, enter]
      exact ih hnode
  | vacant hs hfree => exact stretch_eq_iff.mpr (.missing hs hfree hmore)
  | missing hs hfree _ => exact stretch_eq_iff.mpr (.missing hs hfree (hlonger _))
  | blocked hs hnode _ => exact stretch_eq_iff.mpr (.blocked hs hnode (hlonger _))
  | crossing hs hnode _ =>
      exact stretch_eq_iff.mpr (.crossing hs hnode fun hrest => absurd hrest (hlonger _))
  | @arrived trail s n hs hnode hkind =>
      cases n with
      | file bytes time =>
          have hfile : ¬ fs.isDirectoryAt (s :: trail).reverse = true := by
            rw [isDirectoryAt_iff, hnode]
            simp
          rw [onward, if_neg hfile]
          exact stretch_eq_iff.mpr (.blocked hs hnode hmore)
      | link target => simp [Node.kind] at hkind
      | directory => simp [Node.kind] at hkind

/-- Segments lead through to a directory: with all links on the way followed they arrive there, and
any continuation goes on from there, with some links left to follow. -/
structure Through (fs : FileSystem) (links : Nat) (here : Place) (todo : List String) (q : Place)
    (left : Nat) : Prop where
  /-- A directory stands there. -/
  directory : fs.node? q = some .directory
  /-- The segments lead there. -/
  arrives : fs.follow .followed links here todo = .ok (.arrived q)
  /-- Whatever comes after them is followed from there. -/
  onward : ∀ last more, more ≠ [] →
    fs.follow last links here (todo ++ more) = fs.follow last left q more

/-- Segments cannot be continued: every continuation of them fails, and they do not arrive at a
directory themselves. -/
structure Stuck (fs : FileSystem) (links : Nat) (here : Place) (todo : List String) : Prop where
  /-- Every continuation fails. -/
  fails : ∀ last more, more ≠ [] → ∃ fault, fs.follow last links here (todo ++ more) = .error fault
  /-- There is no directory at the end. -/
  noDirectory : ∀ q, fs.follow .followed links here todo = .ok (.arrived q) →
    fs.node? q ≠ some .directory

/-- A longer list of segments is followed by a stretch of the shorter one that is carried on. -/
theorem follow_append (hdir : fs.node? here = some .directory) (last : AtEnd) (links : Nat)
    (todo : List String) (hmore : more ≠ []) :
    fs.follow last links here (todo ++ more) =
      fs.resume last links (fs.onward last more (fs.stretch .followed here.reverse todo)) := by
  rw [follow_eq_resume hdir, stretch_append (by rwa [List.reverse_reverse]) hmore]

/-- Where a stretch comes to a link, a longer list of segments goes on where the link leads. -/
theorem follow_append_of_crossing {base : Place} {target : Path}
    (hdir : fs.node? here = some .directory)
    (hcross : fs.stretch .followed here.reverse todo = .crossing base target rest) (last : AtEnd)
    (left : Nat) (hmore : more ≠ []) :
    fs.follow last (left + 1) here (todo ++ more) =
      fs.follow last left (start base target) ((steps target ++ rest) ++ more) := by
  have hempty : (rest ++ more).isEmpty = false := by simp [hmore]
  rw [follow_append hdir last _ todo hmore, hcross, onward, resume, List.append_assoc]
  simp [hempty]

/-- A path that comes to a link goes on from where the link leads, with one link less to follow. -/
theorem follow_followed_of_crossing {base : Place} {target : Path}
    (hdir : fs.node? here = some .directory)
    (hcross : fs.stretch .followed here.reverse todo = .crossing base target rest) (left : Nat) :
    fs.follow .followed (left + 1) here todo =
      fs.follow .followed left (start base target) (steps target ++ rest) := by
  rw [follow_eq_resume hdir, hcross, resume]
  simp

/-- Segments are stuck if their stretch is, however many links are left. -/
theorem stuck_of_stretch (fault : Fault) (hdir : fs.node? here = some .directory)
    (hlonger : ∀ last more, more ≠ [] →
      fs.resume last links (fs.onward last more (fs.stretch .followed here.reverse todo)) =
        .error fault)
    (hshort : ∀ q, fs.resume .followed links (fs.stretch .followed here.reverse todo) =
      .ok (.arrived q) → fs.node? q ≠ some .directory) : fs.Stuck links here todo where
  fails last more hmore :=
    ⟨fault, (follow_append hdir last links todo hmore).trans (hlonger last more hmore)⟩
  noDirectory q h := hshort q ((follow_eq_resume hdir .followed links todo).symm.trans h)

/-- A stretch that arrives at a directory leads through to it. -/
theorem through_of_stretch (hdir : fs.node? here = some .directory)
    (hstretch : fs.stretch .followed here.reverse todo = .done (.arrived q))
    (hq : fs.node? q = some .directory) : fs.Through links here todo q links where
  directory := hq
  arrives := by rw [follow_eq_resume hdir, hstretch, resume]
  onward last more hmore := by
    rw [follow_append hdir last links todo hmore, hstretch, onward,
      if_pos (isDirectoryAt_iff.mpr hq), follow_eq_resume hq]

section Crossing

variable {base : Place} {target : Path} {left : Nat} (hdir : fs.node? here = some .directory)
  (hcross : fs.stretch .followed here.reverse todo = .crossing base target rest)
include hdir hcross

/-- What leads through behind a link leads through. -/
theorem Through.of_crossing {left' : Nat}
    (h : fs.Through left (start base target) (steps target ++ rest) q left') :
    fs.Through (left + 1) here todo q left' where
  directory := h.directory
  arrives := (follow_followed_of_crossing hdir hcross left).trans h.arrives
  onward last more hmore := by
    rw [follow_append_of_crossing hdir hcross last left hmore, h.onward last more hmore]

/-- What is stuck behind a link is stuck. -/
theorem Stuck.of_crossing (h : fs.Stuck left (start base target) (steps target ++ rest)) :
    fs.Stuck (left + 1) here todo where
  fails last more hmore := by
    rw [follow_append_of_crossing hdir hcross last left hmore]
    exact h.fails last more hmore
  noDirectory q hq :=
    h.noDirectory q ((follow_followed_of_crossing hdir hcross left).symm.trans hq)

end Crossing

/-- Segments lead through to a directory, or else they are stuck. The induction is on the links that
may still be followed: behind each there is one less. -/
theorem through_or_stuck (fs : FileSystem) (links : Nat) (here : Place) (todo : List String) :
    (∃ q left, fs.Through links here todo q left) ∨ fs.Stuck links here todo := by
  induction links using Nat.strongRecOn generalizing here todo with
  | ind links ih =>
      rcases ne_or_eq (fs.node? here) (some .directory) with hdir | hdir
      · refine .inr ⟨fun last more _ => ⟨.notFound, follow_of_not_directory hdir⟩, fun q h => ?_⟩
        rw [follow_of_not_directory hdir] at h
        cases h
      cases hstretch : fs.stretch .followed here.reverse todo with
      | failed fault =>
          refine .inr (stuck_of_stretch fault hdir ?_ ?_)
          · simp [hstretch, onward, resume]
          · simp [hstretch, resume]
      | done lead =>
          cases lead with
          | adrift =>
              exact ((stretch_eq_iff.mp hstretch).stands (by rwa [List.reverse_reverse]) rfl).elim
          | vacant q =>
              refine .inr (stuck_of_stretch .notFound hdir ?_ ?_)
              · simp [hstretch, onward, resume]
              · simp [hstretch, resume]
          | arrived q =>
              by_cases hq : fs.node? q = some .directory
              · exact .inl ⟨q, links, through_of_stretch hdir hstretch hq⟩
              · have hq' : ¬ fs.isDirectoryAt q = true := fun h => hq (isDirectoryAt_iff.mp h)
                refine .inr (stuck_of_stretch .notDirectory hdir ?_ ?_)
                · simp [hstretch, onward, hq', resume]
                · simp [hstretch, resume, hq]
      | crossing base target rest =>
          cases links with
          | zero =>
              refine .inr (stuck_of_stretch .tooManyLinks hdir ?_ ?_)
              · simp [hstretch, onward, resume]
              · simp [hstretch, resume]
          | succ left =>
              rcases ih left (Nat.lt_succ_self left) (start base target) (steps target ++ rest) with
                ⟨q, left', hthrough⟩ | hstuck
              · exact .inl ⟨q, left', hthrough.of_crossing hdir hstretch⟩
              · exact .inr (hstuck.of_crossing hdir hstretch)

/-- Segments that arrive at a directory lead through to it. -/
theorem through_of_arrived (h : fs.follow .followed links here todo = .ok (.arrived q))
    (hq : fs.node? q = some .directory) : ∃ left, fs.Through links here todo q left := by
  rcases fs.through_or_stuck links here todo with ⟨q', left, hthrough⟩ | hstuck
  · have harrives := hthrough.arrives
    rw [h] at harrives
    cases harrives
    exact ⟨left, hthrough⟩
  · exact absurd hq (hstuck.noDirectory q h)

/-- Segments that can be continued lead through to a directory. -/
theorem through_of_append (hmore : more ≠ [])
    (h : fs.follow last links here (todo ++ more) = .ok lead) :
    ∃ q left, fs.Through links here todo q left ∧ fs.follow last left q more = .ok lead := by
  rcases fs.through_or_stuck links here todo with ⟨q, left, hthrough⟩ | hstuck
  · exact ⟨q, left, hthrough, hthrough.onward last more hmore ▸ h⟩
  · obtain ⟨fault, hfault⟩ := hstuck.fails last more hmore
    rw [hfault] at h
    cases h

/-- A `.` in a directory leads nowhere else. -/
theorem follow_dot (hq : fs.node? q = some .directory) :
    fs.follow last links q ["."] = .ok (.arrived q) := by
  rw [follow_eq_resume hq, stretch_eq_iff.mpr (.dot (.nil _)), List.reverse_reverse]
  rfl

/-! ### Single names -/

/-- An allowed name is looked up. -/
theorem NameAllowed.lookedUp (hs : NameAllowed s) : LookedUp s :=
  ⟨hs.isName.2.1, hs.isName.2.2.1, hs.fits⟩

/-- A name that is no link leads to what it names. -/
theorem follow_name (hs : NameAllowed s) {n : Node} (hn : fs.node? (q ++ [s]) = some n)
    (hlink : n.kind ≠ .link) : fs.follow last links q [s] = .ok (.arrived (q ++ [s])) := by
  have hplace : (s :: q.reverse).reverse = q ++ [s] := by simp
  rw [follow_eq_resume (node?_parent (by simp) hn), hs.lookedUp.stretch_cons, hplace, hn]
  cases n with
  | link target => exact absurd rfl hlink
  | directory => simp only [enter, stretch_nil, hplace, resume]
  | file bytes modified => simp only [enter, List.isEmpty_nil, if_true, hplace, resume]

/-! ### Whole paths -/

/-- A path leads to a place if it can be followed there. -/
theorem lead_eq_arrived_iff :
    fs.lead last p = .ok (.arrived q) ↔
      checkPath p = .ok () ∧ fs.isAdrift p = false ∧
        fs.follow last linkLimit (start fs.workLocation.names p) (steps p) = .ok (.arrived q) := by
  rw [FileSystem.lead]
  constructor
  · intro h
    obtain ⟨⟨⟩, hcheck, hpursue⟩ := except_bind_eq_ok_iff.mp h
    rw [pursue] at hpursue
    split_ifs at hpursue with hadrift
    · exact ⟨hcheck, by simpa using hadrift, hpursue⟩
    · cases hpursue
  · rintro ⟨hcheck, hadrift, hfollow⟩
    refine except_bind_eq_ok_iff.mpr ⟨(), hcheck, ?_⟩
    rw [pursue, hadrift]
    exact hfollow

/-- The place a path denotes is where it leads with links followed. -/
theorem place_eq_ok_iff : fs.place p = .ok q ↔ fs.lead .followed p = .ok (.arrived q) := by
  rw [place]
  cases fs.lead .followed p with
  | error e => simp [bind, Except.bind]
  | ok lead =>
      cases lead <;>
        simp [bind, Except.bind, pure, Except.pure, throw, throwThe, MonadExceptOf.throw]

/-- A path that can be followed at all is not empty. -/
theorem text_ne_empty_of_checkPath (h : checkPath p = .ok ()) : p.text ≠ "" := by
  intro hempty
  rw [checkPath] at h
  split_ifs at h

/-- A path that can be followed at all has no null character. -/
theorem noNull_of_checkPath (h : checkPath p = .ok ()) : '\x00' ∉ p.text.toList := by
  rw [checkPath] at h
  split_ifs at h with hnull
  exact hnull

/-- A path that can be followed at all is not too long. -/
theorem size_le_of_checkPath (h : checkPath p = .ok ()) : p.text.utf8ByteSize ≤ pathLimit := by
  rw [checkPath] at h
  split_ifs at h with hnull hempty hlong
  exact Nat.not_lt.mp hlong

/-- The segments of a path that leads to a directory lead through to it. -/
theorem through_of_lead (hp : fs.lead .followed p = .ok (.arrived q))
    (hq : fs.node? q = some .directory) :
    ∃ left, fs.Through linkLimit (start fs.workLocation.names p) p.segments q left := by
  obtain ⟨-, -, hfollow⟩ := lead_eq_arrived_iff.mp hp
  rw [steps] at hfollow
  split_ifs at hfollow with hslash
  · obtain ⟨q', left, hthrough, hdot⟩ := through_of_append (by simp) hfollow
    rw [follow_dot hthrough.directory] at hdot
    cases hdot
    exact ⟨left, hthrough⟩
  · exact through_of_arrived hfollow hq

section Child

variable (hp : fs.lead .followed p = .ok (.arrived q)) (hq : fs.node? q = some .directory)
  (hs : Location.IsName s)
include hp hs

/-- The path of a name in a directory does not start from one that is gone. -/
theorem isAdrift_child : fs.isAdrift (p.child s) = false := by
  obtain ⟨hcheck, hadrift, -⟩ := lead_eq_arrived_iff.mp hp
  have hempty := text_ne_empty_of_checkPath hcheck
  rw [isAdrift, Path.isAbsolute_child hs hempty, decide_eq_true (Path.text_child_ne_empty hs)]
  rwa [isAdrift, decide_eq_true hempty] at hadrift

include hq

/-- **Where a path leads that is one name longer**: on from the directory the shorter one leads to,
with some links left to follow. -/
theorem follow_child : ∃ left, ∀ last,
    fs.follow last linkLimit (start fs.workLocation.names (p.child s)) (steps (p.child s)) =
      fs.follow last left q [s] := by
  obtain ⟨hcheck, -, -⟩ := lead_eq_arrived_iff.mp hp
  obtain ⟨left, hthrough⟩ := through_of_lead hp hq
  refine ⟨left, fun last => ?_⟩
  have hstart : start fs.workLocation.names (p.child s) = start fs.workLocation.names p := by
    rw [start, start, Path.isAbsolute_child hs (text_ne_empty_of_checkPath hcheck)]
  have hsteps : steps (p.child s) = p.segments ++ [s] := by
    rw [steps, Path.endsInSlash_child hs, Path.segments_child hs]
    rfl
  rw [hstart, hsteps]
  exact hthrough.onward last [s] (by simp)

end Child

/-! ### Fewer dots -/

/-- The second list of segments is the first one without some of its `.`. -/
inductive FewerDots : List String → List String → Prop where
  | nil : FewerDots [] []
  | keep (s : String) {a b : List String} (h : FewerDots a b) : FewerDots (s :: a) (s :: b)
  | drop {a b : List String} (h : FewerDots a b) : FewerDots ("." :: a) b

/-- No dot has to be left out. -/
theorem FewerDots.refl : ∀ todo : List String, FewerDots todo todo
  | [] => .nil
  | s :: todo => .keep s (refl todo)

/-- Dots may be left out in two parts. -/
theorem FewerDots.append {a a' b b' : List String} (ha : FewerDots a a') (hb : FewerDots b b') :
    FewerDots (a ++ b) (a' ++ b') := by
  induction ha with
  | nil => exact hb
  | keep s _ ih => exact .keep s ih
  | drop _ ih => exact .drop ih

/-- A segment that is no dot stays. -/
theorem FewerDots.exists_cons {a b : List String} (h : FewerDots (s :: a) b) (hs : s ≠ ".") :
    ∃ b', b = s :: b' ∧ FewerDots a b' := by
  cases h with
  | keep _ h => exact ⟨_, rfl, h⟩
  | drop _ => exact absurd rfl hs

/-- All dots may go. -/
theorem fewerDots_filter (todo : List String) : FewerDots todo (todo.filter (· ≠ ".")) := by
  induction todo with
  | nil => exact .nil
  | cons s todo ih =>
      by_cases hdot : s = "."
      · subst hdot
        exact .drop ih
      · rw [List.filter_cons_of_pos (by simpa using hdot)]
        exact .keep s ih

/-- A stretch that follows all links arrives at the same place with fewer dots. -/
theorem Stretches.arrived_fewerDots {r : Stretch} (h : Stretches fs .followed trail todo r)
    (hdots : FewerDots todo todo') (hr : r = .done (.arrived q)) :
    Stretches fs .followed trail todo' (.done (.arrived q)) := by
  induction h generalizing todo' with
  | nil =>
      cases hr
      cases hdots
      exact .nil _
  | dot _ ih =>
      cases hdots with
      | keep _ hdots => exact .dot (ih hdots hr)
      | drop hdots => exact ih hdots hr
  | up _ ih =>
      obtain ⟨b, rfl, hfewer⟩ := hdots.exists_cons (by decide)
      exact .up (ih hfewer hr)
  | into hs hnode _ ih =>
      obtain ⟨b, rfl, hfewer⟩ := hdots.exists_cons hs.notHere
      exact .into hs hnode (ih hfewer hr)
  | arrived hs hnode hkind =>
      cases hr
      obtain ⟨b, rfl, hfewer⟩ := hdots.exists_cons hs.notHere
      cases hfewer
      exact .arrived hs hnode hkind
  | tooLong | vacant | missing | blocked | crossing => cases hr

/-- A stretch that follows all links comes to the same link with fewer dots, some of them less to
go. -/
theorem Stretches.crossing_fewerDots {r : Stretch} {base : Place} {target : Path}
    (h : Stretches fs .followed trail todo r) (hdots : FewerDots todo todo')
    (hr : r = .crossing base target rest) :
    ∃ rest', FewerDots rest rest' ∧
      Stretches fs .followed trail todo' (.crossing base target rest') := by
  induction h generalizing todo' with
  | dot _ ih =>
      cases hdots with
      | keep _ hdots =>
          obtain ⟨rest', hrest, h⟩ := ih hdots hr
          exact ⟨rest', hrest, .dot h⟩
      | drop hdots => exact ih hdots hr
  | up _ ih =>
      obtain ⟨b, rfl, hfewer⟩ := hdots.exists_cons (by decide)
      obtain ⟨rest', hrest, h⟩ := ih hfewer hr
      exact ⟨rest', hrest, .up h⟩
  | into hs hnode _ ih =>
      obtain ⟨b, rfl, hfewer⟩ := hdots.exists_cons hs.notHere
      obtain ⟨rest', hrest, h⟩ := ih hfewer hr
      exact ⟨rest', hrest, .into hs hnode h⟩
  | crossing hs hnode _ =>
      cases hr
      obtain ⟨b, rfl, hfewer⟩ := hdots.exists_cons hs.notHere
      exact ⟨b, hfewer, .crossing hs hnode fun _ => by simp⟩
  | nil | arrived | tooLong | vacant | missing | blocked => cases hr

/-- **Dots make no difference to segments that arrive somewhere.** -/
theorem follow_fewerDots (h : FewerDots todo todo')
    (harrived : fs.follow .followed links here todo = .ok (.arrived q)) :
    fs.follow .followed links here todo' = .ok (.arrived q) := by
  rw [follow_eq_ok_iff] at harrived ⊢
  generalize hr : Lead.arrived q = lead at harrived
  induction harrived generalizing todo' with
  | done hdir hdone =>
      cases hr
      exact .done hdir (hdone.arrived_fewerDots h rfl)
  | crossing hdir hcross _ _ ih =>
      obtain ⟨rest', hfewer, hcross'⟩ := hcross.crossing_fewerDots h rfl
      exact .crossing hdir hcross' (by simp) (ih ((FewerDots.refl _).append hfewer) hr)

end FileSystem

end RealmBoot
