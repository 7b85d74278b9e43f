import Mathlib.Data.List.Basic
import RealmBoot.Proofs.NormalForm
import RealmBoot.Proofs.ScanCourse

/-!
# The Order of a Walk

Directories are listed name by name and entered as soon as they are met, so the archives of a walk
come in the order of their locations, which compares names and not texts: `a/b.jar` comes before
`a-b.jar`. A link is entered under its own name, and a root is put in normal form before anything is
joined to it, so neither can spoil that order. A walk is also described as what answers to one
question after another, and then gives nothing after an error.

## Main results

* `Location.lt_iff_bytes`: locations are ordered by the bytes of their names.
* `Walk.Course.pairwise_locations`: what a walk meets comes in the order of the locations.
* `Scanner.answer_eq`: asked again and again, a walk gives its items and then nothing.
* `Scanner.walk_increasing`: the archives of a walk, up to its end or its first error.
-/

namespace RealmBoot

/-! ### Bytes of names -/

namespace Text

variable {c d : Char} {cs ds : List Char}

/-- What precedes a character as a number does so as bytes, whatever follows. The bytes are digits
to the base 64, after a first byte that tells how many there are. -/
theorem utf8EncodeChar_append_lt (h : c < d) (x y : List UInt8) :
    String.utf8EncodeChar c ++ x < String.utf8EncodeChar d ++ y := by
  have hlt : c.val.toNat < d.val.toNat := h
  have hvalid : ∀ c : Char, c.val.toNat < 0x110000 := by
    intro c
    have hc := c.valid
    grind
  have hc := hvalid c
  have hd := hvalid d
  rw [String.utf8EncodeChar, String.utf8EncodeChar]
  generalize c.val.toNat = m at *
  generalize d.val.toNat = n at *
  have hdigits : ∀ k : Nat, k / 4096 = k / 64 / 64 ∧ k / 262144 = k / 64 / 64 / 64 := by omega
  have hfirst : ∀ k, (UInt8.ofNat (k % 8 + 240)).toNat = k % 8 + 240 := by
    intro k
    rw [UInt8.toNat_ofNat']
    omega
  have hfurther : ∀ k, (UInt8.ofNat (k % 64 + 128)).toNat = k % 64 + 128 := by
    intro k
    rw [UInt8.toNat_ofNat']
    omega
  simp only [(hdigits m).1, (hdigits m).2, (hdigits n).1, (hdigits n).2]
  split_ifs <;>
    simp only [List.cons_append, List.nil_append, List.cons_lt_cons_iff, UInt8.lt_iff_toNat_lt,
      ← UInt8.toNat_inj, hfirst, hfurther, UInt8.toNat_ofNat'] <;>
    omega

/-- The bytes of a text in UTF-8. -/
def bytes (s : String) : List UInt8 := s.toUTF8.data.toList

/-- The bytes of a text are those of its characters. -/
theorem bytes_eq (s : String) : bytes s = s.toList.flatMap String.utf8EncodeChar := by
  have hutf : s.toUTF8 = (String.ofList s.toList).toByteArray := by
    rw [String.ofList_toList]
    rfl
  rw [bytes, hutf, String.toByteArray_ofList, List.utf8Encode, List.data_toByteArray]

/-- Texts in order have their bytes in order. -/
theorem flatMap_utf8EncodeChar_lt (h : cs < ds) :
    cs.flatMap String.utf8EncodeChar < ds.flatMap String.utf8EncodeChar := by
  induction cs generalizing ds with
  | nil =>
      cases ds with
      | nil => exact absurd h (List.not_lt_nil _)
      | cons d ds =>
          have hpos : 0 < (String.utf8EncodeChar d).length := by
            rw [String.length_utf8EncodeChar]
            exact d.utf8Size_pos
          obtain ⟨b, bs, hbs⟩ := List.exists_cons_of_length_pos hpos
          rw [List.flatMap_cons, hbs]
          exact List.nil_lt_cons b _
  | cons c cs ih =>
      cases ds with
      | nil => exact absurd h (List.not_lt_nil _)
      | cons d ds =>
          rw [List.flatMap_cons, List.flatMap_cons]
          rcases List.cons_lt_cons_iff.mp h with hhead | ⟨rfl, htail⟩
          · exact utf8EncodeChar_append_lt hhead _ _
          · exact List.append_left_lt (ih htail)

/-- **Texts are ordered by their bytes.** -/
theorem lt_iff_bytes {s t : String} : s < t ↔ bytes s < bytes t := by
  have hforth : ∀ {s t : String}, s < t → bytes s < bytes t := by
    intro s t h
    rw [bytes_eq, bytes_eq]
    exact flatMap_utf8EncodeChar_lt h
  refine ⟨hforth, fun h => ?_⟩
  by_contra hst
  by_cases hts : t < s
  · exact List.lt_asymm h (hforth hts)
  · obtain rfl := StrictOrder.eq_of_not_lt hst hts
    exact List.lt_irrefl _ h

/-- Texts with the same bytes are the same. -/
theorem bytes_inj {s t : String} : bytes s = bytes t ↔ s = t := by
  refine ⟨fun h => StrictOrder.eq_of_not_lt ?_ ?_, congrArg bytes⟩
  · rw [lt_iff_bytes, h]
    exact List.lt_irrefl _
  · rw [lt_iff_bytes, h]
    exact List.lt_irrefl _

end Text

namespace Location

variable {a b base : Location} {s : String}

/-- The names of a location as bytes. -/
def bytes (l : Location) : List (List UInt8) := l.names.map Text.bytes

/-- **Locations are ordered by the bytes of their names**, one name after another. -/
theorem lt_iff_bytes : a < b ↔ a.bytes < b.bytes := by
  have hlists : ∀ names names' : List String,
      names < names' ↔ names.map Text.bytes < names'.map Text.bytes := by
    intro names
    induction names with
    | nil =>
        intro names'
        cases names' with
        | nil => simp
        | cons t names' => simp
    | cons s names ih =>
        intro names'
        cases names' with
        | nil => simp
        | cons t names' =>
            rw [List.map_cons, List.map_cons, List.cons_lt_cons_iff, List.cons_lt_cons_iff,
              Text.lt_iff_bytes, ih names', Text.bytes_inj]
  exact hlists a.names b.names

/-- A name leads on from the location of the path it is added to. -/
theorem ofPath?_child {workDir : Location} {p : Path} (hs : IsName s)
    (hp : ofPath? workDir p = some base) :
    ofPath? workDir (p.child s) = some ⟨base.names ++ [s]⟩ := by
  rw [Path.child, ofPath?_join_of_relative (Path.isAbsolute_eq_false_of_slash hs.2.2.2) hp,
    Path.segments_name hs.1 hs.2.2.2, List.foldl_cons, List.foldl_nil, step, if_neg hs.2.1,
    if_neg hs.2.2.1]

/-- What lies below a location comes after it. -/
theorem lt_of_below {rest : List String} (h : b.names = base.names ++ s :: rest) : base < b := by
  have hlonger : base.names ++ [] < base.names ++ s :: rest :=
    List.append_left_lt (List.nil_lt_cons s rest)
  rwa [List.append_nil, ← h] at hlonger

/-- What lies below two names of a directory comes in the order of these. -/
theorem lt_of_names {t : String} {rest rest' : List String} (hlt : s < t)
    (ha : a.names = base.names ++ s :: rest) (hb : b.names = base.names ++ t :: rest') : a < b := by
  have hnames : base.names ++ s :: rest < base.names ++ t :: rest' :=
    List.append_left_lt (List.cons_lt_cons_iff.mpr (.inl hlt))
  rwa [← ha, ← hb] at hnames

end Location

/-! ### What a walk meets -/

/-- Names are listed in increasing order. -/
theorem Contents.pairwise_listing (cs : Contents) : cs.listing.Pairwise (·.1 < ·.1) := by
  rw [listing, List.pairwise_filterMap]
  refine (OrderedSet.ofList (cs.map (·.1))).sorted.imp ?_
  intro s t hlt e he e' he'
  obtain ⟨-, -, rfl⟩ := Option.map_eq_some_iff.mp he
  obtain ⟨-, -, rfl⟩ := Option.map_eq_some_iff.mp he'
  exact hlt

namespace FileSystem

variable {fs : FileSystem} {p : Path} {names : List (String × Kind)}

/-- A directory is listed in increasing order. -/
theorem pairwise_of_list (h : fs.list p = .ok names) : names.Pairwise (·.1 < ·.1) := by
  rw [list] at h
  obtain ⟨lead, -, hnames⟩ := except_bind_eq_ok_iff.mp h
  cases lead with
  | vacant q => cases hnames
  | adrift =>
      cases hnames
      exact .nil
  | arrived q =>
      dsimp only at hnames
      split_ifs at hnames
      cases hnames
      exact Contents.pairwise_listing _

end FileSystem

/-- The location of what a visit enters. -/
def Visit.location? (fs : FileSystem) : Visit → Option Location
  | .entry p _ => Location.ofPath? fs.workLocation p
  | .failed _ => none

namespace Walk

variable {fs : FileSystem} {trail : Trail} {path root : Path} {kind : Kind} {visits : List Visit}
  {base : Location}

/-- **What a walk meets comes in the order of the locations**, and all of it lies at or below the
location that the walk starts from. -/
theorem Course.pairwise_locations (hnamed : fs.Named) (h : Course fs trail path kind visits)
    (hbase : Location.ofPath? fs.workLocation path = some base) :
    (visits.filterMap (·.location? fs)).Pairwise (· < ·) ∧
      ∀ l ∈ visits.filterMap (·.location? fs), base.names <+: l.names := by
  induction h generalizing base with
  | failed hsettle => simp [Visit.location?]
  | leaf hsettle hleaf => simp [Visit.location?, hbase]
  | unlisted hsettle hlist => simp [Visit.location?, hbase]
  | @opened trail path kind names below hsettle hlist hbelow ih =>
      have hchild : ∀ e ∈ names, Location.ofPath? fs.workLocation (path.child e.1) =
          some ⟨base.names ++ [e.1]⟩ := by
        intro e he
        obtain ⟨q, n, -, hn, -⟩ := (FileSystem.list_eq_ok hlist).2 e he
        exact Location.ofPath?_child (hnamed _ n hn e.1 (by simp)).isName hbase
      have hrest : ∀ e ∈ names, ∀ l ∈ (below e).filterMap (·.location? fs),
          ∃ rest, l.names = base.names ++ e.1 :: rest := by
        intro e he l hl
        obtain ⟨rest, hl⟩ := (ih e he (hchild e he)).2 l hl
        exact ⟨rest, by rw [← hl]; simp⟩
      have hvisits : (Visit.entry path .directory :: names.flatMap below).filterMap
          (·.location? fs) =
            base :: names.flatMap fun e => (below e).filterMap (·.location? fs) := by
        have hhere : (Visit.entry path .directory).location? fs = some base := hbase
        rw [List.filterMap_cons_some hhere, List.filterMap_flatMap]
      rw [hvisits]
      refine ⟨List.pairwise_cons.mpr ⟨fun l hl => ?_, List.pairwise_flatMap.mpr ⟨?_, ?_⟩⟩, ?_⟩
      · obtain ⟨e, he, hl⟩ := List.mem_flatMap.mp hl
        obtain ⟨rest, hl⟩ := hrest e he l hl
        exact Location.lt_of_below hl
      · intro e he
        exact (ih e he (hchild e he)).1
      · refine (FileSystem.pairwise_of_list hlist).imp_of_mem ?_
        intro e e' he he' hlt a ha b hb
        obtain ⟨rest, ha⟩ := hrest e he a ha
        obtain ⟨rest', hb⟩ := hrest e' he' b hb
        exact Location.lt_of_names hlt ha hb
      · intro l hl
        rcases List.mem_cons.mp hl with rfl | hl
        · exact List.prefix_rfl
        · obtain ⟨e, he, hl⟩ := List.mem_flatMap.mp hl
          obtain ⟨rest, hl⟩ := hrest e he l hl
          exact hl ▸ List.prefix_append _ _

/-- What a walk gives out has its locations in increasing order. -/
theorem RootCourse.pairwise_locations (hnamed : fs.Named) (h : RootCourse fs root visits) :
    (visits.filterMap (·.location? fs)).Pairwise (· < ·) := by
  cases h with
  | failed hroot => simp [Visit.location?]
  | found hroot hcourse =>
      have hempty : root.text ≠ "" := by
        rw [FileSystem.linkStat, FileSystem.lead] at hroot
        obtain ⟨lead, hlead, -⟩ := except_bind_eq_ok_iff.mp hroot
        obtain ⟨⟨⟩, hcheck, -⟩ := except_bind_eq_ok_iff.mp hlead
        exact FileSystem.text_ne_empty_of_checkPath hcheck
      exact (hcourse.pairwise_locations hnamed (Location.ofPath?_of_ne hempty)).1

end Walk

/-! ### The items of a walk -/

namespace Scanner

variable {ε α : Type} {fs : FileSystem} {s : Scanner} {root : Path} {v : Visit} {l : Location}

/-- Up to the first error there are values only, in the order in which they came. -/
theorem upToError_cases (items : List (Except ε α)) :
    ∃ found : List α, found.Sublist (items.filterMap Except.toOption) ∧
      (upToError items = found.map .ok ∨ ∃ e, upToError items = found.map .ok ++ [.error e]) := by
  induction items with
  | nil => exact ⟨[], List.Sublist.refl _, .inl rfl⟩
  | cons x items ih =>
      cases x with
      | error e => exact ⟨[], List.nil_sublist _, .inr ⟨e, rfl⟩⟩
      | ok a =>
          obtain ⟨found, hsub, hcases⟩ := ih
          refine ⟨a :: found, hsub.cons_cons a, ?_⟩
          rcases hcases with hall | ⟨e, hfailed⟩
          · exact .inl (by rw [upToError, hall]; rfl)
          · exact .inr ⟨e, by rw [upToError, hfailed]; rfl⟩

/-- An archive is found where the walk entered it. -/
theorem location?_of_item? (h : (s.item? fs v).bind Except.toOption = some l) :
    v.location? fs = some l := by
  cases v with
  | failed f => cases hf : DiscoveryError.ofWalkFault? f <;> simp [item?, hf, Except.toOption] at h
  | entry p kind =>
      cases kind with
      | link => cases h
      | directory => cases h
      | file =>
          rw [item?] at h
          split_ifs at h
          · rw [Option.bind_some, Location.ofPath] at h
            split_ifs at h
            · cases h
            · rw [Visit.location?]
              cases hp : Location.ofPath? fs.workLocation p with
              | none =>
                  rw [hp] at h
                  cases h
              | some l' =>
                  rw [hp] at h
                  exact h
          · cases h

/-- The archives among some visits are among what these enter. -/
theorem sublist_locations (visits : List Visit) :
    ((visits.filterMap (s.item? fs)).filterMap Except.toOption).Sublist
      (visits.filterMap (·.location? fs)) := by
  rw [List.filterMap_filterMap]
  induction visits with
  | nil => exact List.Sublist.refl _
  | cons v visits ih =>
      rw [List.filterMap_cons]
      cases hitem : (s.item? fs v).bind Except.toOption with
      | none =>
          cases hv : v.location? fs with
          | none =>
              rw [List.filterMap_cons_none hv]
              exact ih
          | some l =>
              rw [List.filterMap_cons_some hv]
              exact ih.cons l
      | some l =>
          rw [List.filterMap_cons_some (location?_of_item? hitem)]
          exact ih.cons_cons l

/-- What a scan makes of a walk that finds archives only. -/
theorem scan_of_walk_ok {found : List Location} (h : s.walk fs root = found.map .ok)
    (hsorted : found.Pairwise (· < ·)) (accepts : Location → Bool) :
    ∃ set, s.scan fs root accepts = .ok set ∧ set.toList = found.filter accepts := by
  refine ⟨.ofList (found.filter accepts), ?_, ?_⟩
  · rw [scan, collect_eq_ok_iff.mpr h]
    rfl
  · refine OrderedSet.eq_of_mem_iff (OrderedSet.sorted _) (hsorted.filter accepts) fun l => ?_
    rw [← OrderedSet.mem_def, OrderedSet.mem_ofList]

/-- What a scan makes of a walk that ends in an error. -/
theorem scan_of_walk_error {found : List Location} {e : DiscoveryError}
    (h : s.walk fs root = found.map .ok ++ [.error e]) (accepts : Location → Bool) :
    s.scan fs root accepts = .error e := by
  have hcollect : collect (s.walk fs root) = .error e := by
    rw [collect_eq_error_iff, h, List.findSome?_append]
    have hnone : (found.map Except.ok).findSome? failure? = (none : Option DiscoveryError) := by
      simp [failure?]
    rw [hnone]
    rfl
  rw [scan, hcollect]
  rfl

/-! ### One item after another -/

/-- A walk under way. -/
structure Underway where
  /-- The visits still to come. -/
  ahead : List Visit
  /-- Whether there was an error. -/
  finished : Bool := false

/-- The next item of a walk: visits without one are passed over, and nothing follows an error. -/
def next (s : Scanner) (fs : FileSystem) :
    List Visit → Option (Except DiscoveryError Location) × Underway
  | [] => (none, { ahead := [] })
  | v :: ahead =>
    match s.item? fs v with
    | none => next s fs ahead
    | some (.ok l) => (some (.ok l), { ahead })
    | some (.error e) => (some (.error e), { ahead, finished := true })

/-- What a walk under way gives when it is asked. -/
def ask (s : Scanner) (fs : FileSystem) (w : Underway) :
    Option (Except DiscoveryError Location) × Underway :=
  if w.finished then (none, w) else next s fs w.ahead

/-- What it gives when it was asked a number of times before. -/
def answer (s : Scanner) (fs : FileSystem) (w : Underway) :
    Nat → Option (Except DiscoveryError Location)
  | 0 => (s.ask fs w).1
  | k + 1 => answer s fs (s.ask fs w).2 k

/-- After an error a walk gives nothing. -/
theorem answer_of_finished {w : Underway} (h : w.finished = true) (k : Nat) :
    s.answer fs w k = none := by
  induction k with
  | zero => rw [answer, ask, if_pos h]
  | succ k ih => rw [answer, ask, if_pos h, ih]

/-- After its last visit a walk gives nothing. -/
theorem answer_of_nil (k : Nat) : s.answer fs { ahead := [] } k = none := by
  induction k with
  | zero => rfl
  | succ k ih => exact ih

/-- **Asked again and again, a walk gives its items** up to the first error, and then nothing. -/
theorem answer_eq (visits : List Visit) (k : Nat) :
    s.answer fs { ahead := visits } k = (upToError (visits.filterMap (s.item? fs)))[k]? := by
  induction visits generalizing k with
  | nil => rw [answer_of_nil, List.filterMap_nil, upToError, List.getElem?_nil]
  | cons v visits ih =>
      have hask : s.ask fs { ahead := v :: visits } = match s.item? fs v with
          | none => s.ask fs { ahead := visits }
          | some (.ok l) => (some (.ok l), { ahead := visits })
          | some (.error e) => (some (.error e), { ahead := visits, finished := true }) := rfl
      cases hitem : s.item? fs v with
      | none =>
          rw [hitem] at hask
          have hsame : s.answer fs { ahead := v :: visits } k =
              s.answer fs { ahead := visits } k := by
            cases k with
            | zero => rw [answer, answer, hask]
            | succ k => rw [answer, answer, hask]
          rw [hsame, ih, List.filterMap_cons_none hitem]
      | some item =>
          rw [List.filterMap_cons_some hitem]
          rw [hitem] at hask
          cases item with
          | ok l =>
              cases k with
              | zero => rw [answer, hask, upToError, List.getElem?_cons_zero]
              | succ k => rw [answer, hask, ih, upToError, List.getElem?_cons_succ]
          | error e =>
              cases k with
              | zero => rw [answer, hask, upToError, List.getElem?_cons_zero]
              | succ k =>
                  rw [answer, hask, answer_of_finished rfl, upToError, List.getElem?_cons_succ,
                    List.getElem?_nil]

/-- **The archives of a walk come in strictly increasing order**, told by the bytes of their names.
If nothing goes wrong, they are what a scan finds, except that a scan may pass over some of them. An
error is the last item, and then a scan ends with it. Asked for one item after another, the walk
gives these and then nothing any more. -/
theorem walk_increasing (hnamed : fs.Named) (s : Scanner) (root : Path) :
    ∃ found : List Location, found.Pairwise (fun a b => a.bytes < b.bytes) ∧
      ((s.walk fs root = found.map .ok ∧ ∀ accepts, ∃ set,
          s.scan fs root accepts = .ok set ∧ set.toList = found.filter accepts) ∨
        ∃ e, s.walk fs root = found.map .ok ++ [.error e] ∧
          ∀ accepts, s.scan fs root accepts = .error e) ∧
      ∀ k, s.answer fs { ahead := Walk.visits fs root } k = (s.walk fs root)[k]? := by
  obtain ⟨found, hsub, hcases⟩ := upToError_cases ((Walk.visits fs root).filterMap (s.item? fs))
  have hlocations := (Walk.rootCourse_visits hnamed root).pairwise_locations hnamed
  have hsorted : found.Pairwise (· < ·) :=
    (hlocations.sublist (sublist_locations _)).sublist hsub
  refine ⟨found, hsorted.imp Location.lt_iff_bytes.mp, ?_, answer_eq _⟩
  rcases hcases with hall | ⟨e, hfailed⟩
  · exact .inl ⟨hall, scan_of_walk_ok hall hsorted⟩
  · exact .inr ⟨e, hfailed, scan_of_walk_error hfailed⟩

/-- A tree in which a link leads back, after archives whose order by names is not that of their
texts, one of them found twice. -/
def windingFiles : FileSystem :=
  { root := [
      ("lib", .directory [
        ("a", .directory [("b.jar", .file .empty (.at 0))]),
        ("a-b.jar", .file .empty (.at 0)),
        ("c", .link ⟨"a"⟩),
        ("d", .link ⟨"../lib"⟩),
        ("e.jar", .file .empty (.at 0))])] }

/-- The general theorem for this tree. -/
theorem walk_increasing_winding :
    windingFiles.Named ∧ ∃ found : List Location,
      found.Pairwise (fun a b => a.bytes < b.bytes) ∧
      found = [⟨["lib", "a", "b.jar"]⟩, ⟨["lib", "a-b.jar"]⟩, ⟨["lib", "c", "b.jar"]⟩] ∧
      Scanner.modules.walk windingFiles ⟨"./lib/"⟩ =
        found.map .ok ++ [.error (.symlinkLoop ⟨"./lib/d"⟩ ⟨"./lib/"⟩)] := by
  have hnamed : windingFiles.Named := FileSystem.named_of_namesAllowed (by decide)
  have hwalk : Scanner.modules.walk windingFiles ⟨"./lib/"⟩ =
      [.ok ⟨["lib", "a", "b.jar"]⟩, .ok ⟨["lib", "a-b.jar"]⟩, .ok ⟨["lib", "c", "b.jar"]⟩,
        .error (.symlinkLoop ⟨"./lib/d"⟩ ⟨"./lib/"⟩)] := by decide
  obtain ⟨found, hsorted, hcases, -⟩ := walk_increasing hnamed .modules ⟨"./lib/"⟩
  rcases hcases with ⟨hall, -⟩ | ⟨e, hfailed, -⟩
  · have hmem : .error (.symlinkLoop ⟨"./lib/d"⟩ ⟨"./lib/"⟩) ∈
        found.map (Except.ok (ε := DiscoveryError)) := by
      rw [← hall, hwalk]
      simp
    obtain ⟨l, -, hl⟩ := List.mem_map.mp hmem
    cases hl
  · have hsplit : found.map (Except.ok (ε := DiscoveryError)) ++ [.error e] =
        [⟨["lib", "a", "b.jar"]⟩, ⟨["lib", "a-b.jar"]⟩, ⟨["lib", "c", "b.jar"]⟩].map .ok ++
          [.error (.symlinkLoop ⟨"./lib/d"⟩ ⟨"./lib/"⟩)] := hfailed.symm.trans hwalk
    obtain ⟨hfound, hlast⟩ := List.append_inj' hsplit rfl
    have hvalues := List.map_injective_iff.mpr (fun _ _ => Except.ok.inj) hfound
    exact ⟨hnamed, found, hsorted, hvalues, by rw [hfailed, List.cons.inj hlast |>.1]⟩

end Scanner

end RealmBoot
