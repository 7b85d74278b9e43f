import Mathlib.Data.List.Basic
import RealmBoot.Dispatch.Target

/-!
# The Layout of Reports

Resolve errors form trees, and a report shows the whole tree. How deep an error is nested is handed
down while the report is written, and every line is written behind a margin of that depth. The
report on a missing target does not know depths: it takes the finished report on its cause, cuts it
into lines and puts a margin in front of each. Where nothing that is shown breaks a line, both come
to the same. Whatever is nested appears as it is reported alone, moved to the right.

## Main results

* `ResolveError.reportLines_eq`: the lines of a report, for causes and suppressed errors alike.
* `ResolveError.reportLines_add`: the depth is a margin and nothing else.
* `ResolveError.report_laid_out`: a nested report is the report, moved to the right, and reports are
  put together from those on what is nested.
-/

namespace RealmBoot

/-! ### Margins -/

namespace Text

/-- Lines as one text, each ended by a line feed. -/
def ended (lines : List String) : String := String.join (lines.map (· ++ "\n"))

/-- Puts a margin in front of every line of a text. Whether a line begins is carried along. -/
def margined (margin : List Char) : Bool → List Char → List Char
  | _, [] => []
  | begins, c :: cs => (if begins then margin else []) ++ c :: margined margin (c == '\n') cs

/-- A text with every line indented by `n` blanks. -/
def indentedBy (n : Nat) (text : String) : String :=
  String.ofList (margined (List.replicate n ' ') true text.toList)

variable {margin line : List Char} {lines : List String} {c : Char}

/-- The first line comes first, with its end. -/
theorem toList_ended_cons (line : String) (lines : List String) :
    (ended (line :: lines)).toList = line.toList ++ '\n' :: (ended lines).toList := by
  simp [ended, String.join_cons]

/-- The same of texts. -/
theorem ended_cons (line : String) (lines : List String) :
    ended (line :: lines) = line ++ "\n" ++ ended lines := by
  simp [ended, String.join_cons]

/-- Lines are written one after the other. -/
theorem ended_append (lines more : List String) :
    ended (lines ++ more) = ended lines ++ ended more := by
  simp [ended, String.join_append]

/-- So are groups of lines. -/
theorem ended_flatMap {α : Type} (f : α → List String) (as : List α) :
    ended (as.flatMap f) = String.join (as.map fun a => ended (f a)) := by
  induction as with
  | nil => rfl
  | cons a as ih => rw [List.flatMap_cons, ended_append, ih, List.map_cons, String.join_cons]

/-- Up to its end nothing is put into a line that has begun. -/
theorem margined_begun (h : '\n' ∉ line) (rest : List Char) :
    margined margin false (line ++ '\n' :: rest) = line ++ '\n' :: margined margin true rest := by
  induction line with
  | nil => rfl
  | cons c line ih =>
      rw [List.mem_cons, not_or] at h
      have hc : (c == '\n') = false := beq_eq_false_iff_ne.mpr (Ne.symm h.1)
      rw [List.cons_append, margined, hc, ih h.2]
      rfl

/-- In front of a line stands the margin, and behind it the next line begins. -/
theorem margined_line (h : '\n' ∉ line) (rest : List Char) :
    margined margin true (line ++ '\n' :: rest) =
      margin ++ line ++ '\n' :: margined margin true rest := by
  have hcons : ∀ c cs,
      margined margin true (c :: cs) = margin ++ margined margin false (c :: cs) := fun c cs => rfl
  rw [List.append_assoc, ← margined_begun h]
  cases line with
  | nil => exact hcons _ _
  | cons c line => exact hcons _ _

/-- A repeated blank is as many blanks. -/
theorem toList_repeated_blanks (n : Nat) : (repeated " " n).toList = List.replicate n ' ' := by
  induction n with
  | zero => rfl
  | succ n ih =>
      rw [repeated, String.toList_append, ih, List.replicate_succ]
      rfl

/-- Repeating a text `m + n` times is repeating it `m` times and then `n` times. -/
theorem repeated_add (s : String) (m n : Nat) :
    repeated s (m + n) = repeated s m ++ repeated s n := by
  induction m with
  | zero => simp [repeated]
  | succ m ih => rw [Nat.succ_add, repeated, ih, repeated, String.append_assoc]

/-- Two blanks at a time are twice as many blanks. -/
theorem repeated_twice (n : Nat) : repeated "  " n = repeated " " (2 * n) := by
  induction n with
  | zero => rfl
  | succ n ih =>
      rw [repeated, ih, Nat.mul_succ, Nat.add_comm, repeated_add]
      rfl

/-- What is in a repeated text is in the text. -/
theorem of_mem_repeated {s : String} {n : Nat} (h : c ∈ (repeated s n).toList) : c ∈ s.toList := by
  induction n with
  | zero => exact absurd h (by simp [repeated])
  | succ n ih =>
      rw [repeated, String.toList_append, List.mem_append] at h
      exact h.elim id ih

/-- What is in none of the texts and not in the separator is not in the joined text. -/
theorem notMem_joined {sep : String} {texts : List String} (hsep : c ∉ sep.toList)
    (h : ∀ s ∈ texts, c ∉ s.toList) : c ∉ (joined sep texts).toList := fun hmem =>
  (of_mem_joined hmem).elim hsep fun ⟨s, hs, hmem⟩ => h s hs hmem

/-- **Lines are indented one by one.** -/
theorem indentedBy_ended (n : Nat) (h : ∀ line ∈ lines, '\n' ∉ line.toList) :
    indentedBy n (ended lines) = ended (lines.map (repeated " " n ++ ·)) := by
  rw [indentedBy, ← String.toList_inj, String.toList_ofList]
  induction lines with
  | nil => rfl
  | cons line lines ih =>
      obtain ⟨hline, hlines⟩ := List.forall_mem_cons.mp h
      rw [toList_ended_cons, margined_line hline, ih hlines, List.map_cons, toList_ended_cons,
        String.toList_append, toList_repeated_blanks]

/-- **Lines are found again in the text they make,** if no carriage return is taken for a part of a
line end. -/
theorem linesOf_ended (hfeed : ∀ line ∈ lines, '\n' ∉ line.toList)
    (hreturn : ∀ line ∈ lines, '\r' ∉ line.toList) : linesOf (ended lines) = lines := by
  induction lines with
  | nil => rfl
  | cons line lines ih =>
      obtain ⟨hfeed, hfeeds⟩ := List.forall_mem_cons.mp hfeed
      obtain ⟨hreturn, hreturns⟩ := List.forall_mem_cons.mp hreturn
      have hlast : line.toList.getLast? ≠ some '\r' := fun h =>
        hreturn (List.mem_of_getLast? h)
      have ih := ih hfeeds hreturns
      rw [linesOf] at ih ⊢
      rw [toList_ended_cons, lines_append_feed hfeed, dropReturn_of_getLast? hlast, List.map_cons,
        ih, String.ofList_toList]

end Text

/-! ### Trees of errors -/

/-- The labels and places that a failure shows. -/
def ResolveFailure.texts : ResolveFailure → List String
  | notFound => []
  | conflict primary secondary =>
    [primary.realm, primary.origin.text, secondary.realm, secondary.origin.text]

namespace ResolveError

/-- The names, labels and paths that one error shows. -/
def texts (e : ResolveError) : List String :=
  e.name :: e.realm ::
    (e.failure.texts ++ e.chain ++ e.searched.map (·.text) ++ e.inventory.map (·.text))

/-- What is nested directly in an error, each under the line that announces it: first the cause,
then what was suppressed. -/
def branches (e : ResolveError) : List (String × ResolveError) :=
  e.cause?.toList.map ("  caused by:", ·) ++ e.suppressed.map ("  suppressed:", ·)

/-- The error alone, with nothing nested in it. -/
def bare (e : ResolveError) : ResolveError := { e with cause? := none, suppressed := [] }

/-- `Nested e k x`: from the error `e` the error `x` is reached by `k` steps, each to the cause or
to a suppressed error. -/
inductive Nested : ResolveError → Nat → ResolveError → Prop
  | self (e : ResolveError) : Nested e 0 e
  | step {e x : ResolveError} {k : Nat} {b : String × ResolveError} (hb : b ∈ e.branches)
      (hx : Nested b.2 k x) : Nested e (k + 1) x

/-- No name, label or path of a tree of errors holds a certain character. -/
def Lacks (e : ResolveError) (c : Char) : Prop :=
  ∀ k x, Nested e k x → ∀ s ∈ x.texts, c ∉ s.toList

variable {e x : ResolveError} {c : Char} {d k : Nat}

mutual

/-- What holds of an error as soon as it holds of what is nested directly in it holds of every tree.
Errors are nested in errors through an option and through a list, so that each of the three types
has an induction of its own. -/
theorem tree_induction {P : ResolveError → Prop}
    (step : ∀ e : ResolveError, (∀ b ∈ e.branches, P b.2) → P e) : ∀ e, P e
  | ⟨name, realm, failure, chain, searched, inventory, cause?, suppressed⟩ => by
    refine step _ fun b hb => ?_
    rw [branches, List.mem_append, List.mem_map, List.mem_map] at hb
    rcases hb with ⟨x, hx, rfl⟩ | ⟨x, hx, rfl⟩
    · exact tree_induction_cause step cause? x (Option.mem_toList.mp hx)
    · exact tree_induction_suppressed step suppressed x hx

/-- The same of the cause, if there is one. -/
theorem tree_induction_cause {P : ResolveError → Prop}
    (step : ∀ e : ResolveError, (∀ b ∈ e.branches, P b.2) → P e) :
    ∀ (cause? : Option ResolveError), ∀ x ∈ cause?, P x
  | none, _, hx => nomatch hx
  | some cause, _, hx => Option.some.inj hx ▸ tree_induction step cause

/-- The same of the suppressed errors. -/
theorem tree_induction_suppressed {P : ResolveError → Prop}
    (step : ∀ e : ResolveError, (∀ b ∈ e.branches, P b.2) → P e) :
    ∀ (es : List ResolveError), ∀ x ∈ es, P x
  | [], _, hx => nomatch hx
  | e :: es, x, hx => (List.mem_cons.mp hx).elim (fun h => h ▸ tree_induction step e)
      (tree_induction_suppressed step es x)

end

/-- A tree lacks a character if the error itself does and every tree nested directly in it does. -/
theorem lacks_iff :
    e.Lacks c ↔ (∀ s ∈ e.texts, c ∉ s.toList) ∧ ∀ b ∈ e.branches, b.2.Lacks c := by
  constructor
  · exact fun h => ⟨h 0 e (.self e), fun b hb k x hx => h (k + 1) x (.step hb hx)⟩
  · rintro ⟨hself, hbranches⟩ k x hx
    cases hx with
    | self => exact hself
    | step hb hx => exact hbranches _ hb _ _ hx

/-- What no text of a tree holds no text of a nested tree holds. -/
theorem Nested.lacks (hx : Nested e k x) (h : e.Lacks c) : x.Lacks c := by
  induction hx with
  | self e => exact h
  | step hb hx ih => exact ih ((lacks_iff.mp h).2 _ hb)

/-! ### The lines of a report -/

/-- Each suppressed error has a line that announces it and then those of its report. -/
theorem suppressedLines_eq (d : Nat) (es : List ResolveError) :
    suppressedLines d es =
      es.flatMap fun x => padded d "  suppressed:" :: x.reportLines (d + 2) := by
  induction es with
  | nil => rfl
  | cons e es ih => rw [suppressedLines, ih, List.flatMap_cons]

/-- **The lines of a report** are those of the error alone, and then for each error nested directly
in it the line that announces it and the lines of its report, two steps deeper. -/
theorem reportLines_eq (d : Nat) (e : ResolveError) :
    e.reportLines d = e.ownLines.map (padded d) ++
      e.branches.flatMap fun b => padded d b.1 :: b.2.reportLines (d + 2) := by
  obtain ⟨name, realm, failure, chain, searched, inventory, cause?, suppressed⟩ := e
  rw [reportLines, suppressedLines_eq, branches, List.flatMap_append, List.flatMap_map,
    List.flatMap_map, List.append_assoc]
  cases cause? with
  | none => rfl
  | some cause =>
      rw [causeLines, Option.toList_some, List.flatMap_singleton]
      rfl

/-- A line is padded in two steps as in one. -/
theorem padded_add (d k : Nat) (line : String) :
    padded (d + k) line = padded d (padded k line) := by
  rw [padded, padded, padded, Text.repeated_add, String.append_assoc]

/-- A step is two blanks. -/
theorem padded_eq (d : Nat) (line : String) :
    padded d line = Text.repeated " " (2 * d) ++ line := by
  rw [padded, Text.repeated_twice]

/-- **The depth is a margin.** A report that starts deeper has the same lines, further to the right;
this is so for every tree and whatever the lines hold. -/
theorem reportLines_add (d k : Nat) (e : ResolveError) :
    e.reportLines (d + k) = (e.reportLines k).map (padded d) := by
  induction e using tree_induction generalizing k with
  | step e ih =>
      rw [reportLines_eq, reportLines_eq k, List.map_append, List.map_map, List.map_flatMap]
      congr 1
      · exact List.map_congr_left fun line _ => padded_add d k line
      · refine List.flatMap_congr fun b hb => ?_
        rw [List.map_cons, ← padded_add, ← ih b hb, Nat.add_assoc]

/-- The lines of a nested error stand together in a report, two steps deeper for each level. -/
theorem Nested.exists_reportLines (h : Nested e k x) (d : Nat) :
    ∃ before after, e.reportLines d = before ++ x.reportLines (d + 2 * k) ++ after := by
  induction h generalizing d with
  | self e => exact ⟨[], [], by simp⟩
  | @step e x k b hb hx ih =>
      obtain ⟨before, after, hlines⟩ := ih (d + 2)
      obtain ⟨first, last, hsplit⟩ := List.append_of_mem hb
      rw [reportLines_eq, hsplit, List.flatMap_append, List.flatMap_cons, hlines,
        show d + 2 * (k + 1) = d + 2 + 2 * k by omega]
      refine ⟨e.ownLines.map (padded d) ++ (first.flatMap fun b => padded d b.1 ::
        b.2.reportLines (d + 2)) ++ padded d b.1 :: before, after ++ last.flatMap fun b =>
          padded d b.1 :: b.2.reportLines (d + 2), ?_⟩
      simp only [List.append_assoc, List.cons_append]

/-! ### Lines that are not broken -/

section LineBreak

variable (hc : c = '\n' ∨ c = '\r')
include hc

/-- Padding does not break a line. -/
theorem notMem_padded {line : String} (h : c ∉ line.toList) : c ∉ (padded d line).toList := by
  rw [padded, String.toList_append, List.mem_append, not_or]
  refine ⟨fun hmem => ?_, h⟩
  have hblank := Text.of_mem_repeated hmem
  rcases hc with rfl | rfl <;> exact absurd hblank (by decide)

/-- The message of an error is not broken if nothing it shows is. -/
theorem notMem_message (h : ∀ s ∈ e.texts, c ∉ s.toList) : c ∉ e.message.toList := by
  have hname : c ∉ e.name.toList := h _ (by simp [texts])
  have hrealm : c ∉ e.realm.toList := h _ (by simp [texts])
  have hsources : ∀ s ∈ e.failure.texts, c ∉ s.toList := fun s hs => h s (by simp [texts, hs])
  rw [message]
  cases hfailure : e.failure with
  | notFound => rcases hc with rfl | rfl <;> simp [hname, hrealm]
  | conflict primary secondary =>
      rw [hfailure] at hsources
      simp only [ResolveFailure.texts, List.forall_mem_cons] at hsources
      rcases hc with rfl | rfl <;> simp [hname, hsources]

/-- A listing is not broken if nothing it lists is. -/
theorem notMem_listing {texts : List String} (h : ∀ s ∈ texts, c ∉ s.toList) :
    c ∉ (listing texts).toList := by
  have hjoined : c ∉ (Text.joined ", " texts).toList :=
    Text.notMem_joined (by rcases hc with rfl | rfl <;> decide) h
  rcases hc with rfl | rfl <;> simpa [listing] using hjoined

/-- The lines that concern one error alone are not broken if nothing it shows is. -/
theorem notMem_ownLines (h : ∀ s ∈ e.texts, c ∉ s.toList) :
    ∀ line ∈ e.ownLines, c ∉ line.toList := by
  have hmessage := notMem_message hc h
  have hchain : c ∉ (Text.joined " -> " e.chain).toList :=
    Text.notMem_joined (by rcases hc with rfl | rfl <;> decide)
      fun s hs => h s (by simp [texts, hs])
  have hsearched : c ∉ (listing (e.searched.map (·.text))).toList :=
    notMem_listing hc fun s hs => h s (by simp [texts, List.mem_map.mp hs])
  have harchives : c ∉ (listing (e.inventory.map (·.uri))).toList := by
    refine notMem_listing hc fun s hs => ?_
    obtain ⟨a, ha, rfl⟩ := List.mem_map.mp hs
    have htext : c ∉ a.text.toList := h _ (by simp [texts, List.mem_map_of_mem ha])
    rcases hc with rfl | rfl <;> simpa [Location.uri] using htext
  intro line hline
  simp only [ownLines, List.mem_append, List.mem_cons, List.mem_ite_nil_left, List.not_mem_nil,
    or_false] at hline
  rcases hline with ((rfl | ⟨-, rfl⟩) | ⟨-, rfl⟩) | rfl
  · exact hmessage
  · rcases hc with rfl | rfl <;> simpa using hchain
  · rcases hc with rfl | rfl <;> simpa using hsearched
  · rcases hc with rfl | rfl <;> simpa using harchives

/-- A line that announces a nested error is not broken. -/
theorem notMem_fst_of_mem_branches {b : String × ResolveError} (hb : b ∈ e.branches) :
    c ∉ b.1.toList := by
  rw [branches, List.mem_append, List.mem_map, List.mem_map] at hb
  rcases hb with ⟨_, -, rfl⟩ | ⟨_, -, rfl⟩ <;> rcases hc with rfl | rfl <;> simp

/-- **No line of a report is broken** if nothing that the tree shows is. -/
theorem notMem_reportLines (h : e.Lacks c) : ∀ line ∈ e.reportLines d, c ∉ line.toList := by
  induction e using tree_induction generalizing d with
  | step e ih =>
      obtain ⟨hself, hbranches⟩ := lacks_iff.mp h
      intro line hline
      rw [reportLines_eq, List.mem_append, List.mem_map, List.mem_flatMap] at hline
      rcases hline with ⟨own, hown, rfl⟩ | ⟨b, hb, hline⟩
      · exact notMem_padded hc (notMem_ownLines hc hself own hown)
      · rcases List.mem_cons.mp hline with rfl | hline
        · exact notMem_padded hc (notMem_fst_of_mem_branches hc hb)
        · exact ih b hb (hbranches b hb) line hline

end LineBreak

/-! ### Reports on what is nested -/

/-- **A nested report is the report, moved to the right.** -/
theorem reportAt_eq_indentedBy (h : e.Lacks '\n') (d : Nat) :
    e.reportAt d = Text.indentedBy (2 * d) e.report := by
  have hmargin : e.reportLines d = (e.reportLines 0).map (Text.repeated " " (2 * d) ++ ·) := by
    rw [← funext (padded_eq d)]
    exact reportLines_add d 0 e
  have hlines := notMem_reportLines (d := 0) (.inl rfl) h
  calc e.reportAt d = Text.ended (e.reportLines d) := rfl
    _ = Text.ended ((e.reportLines 0).map (Text.repeated " " (2 * d) ++ ·)) := by rw [hmargin]
    _ = Text.indentedBy (2 * d) (Text.ended (e.reportLines 0)) :=
        (Text.indentedBy_ended (2 * d) hlines).symm

/-- A report is that on the error alone, followed by one block for each error nested directly in
it. -/
theorem report_eq (h : e.Lacks '\n') :
    e.report = e.bare.report ++
      String.join (e.branches.map fun b => b.1 ++ "\n" ++ Text.indentedBy 4 b.2.report) := by
  have hbare : e.bare.reportLines 0 = e.ownLines.map (padded 0) :=
    (reportLines_eq 0 e.bare).trans (List.append_nil _)
  have hblock : ∀ b ∈ e.branches, Text.ended (padded 0 b.1 :: b.2.reportLines 2) =
      b.1 ++ "\n" ++ Text.indentedBy 4 b.2.report := fun b hb => by
    rw [← reportAt_eq_indentedBy ((lacks_iff.mp h).2 b hb) 2, Text.ended_cons, padded,
      Text.repeated, String.empty_append]
    rfl
  calc e.report = Text.ended (e.reportLines 0) := rfl
    _ = e.bare.report ++ String.join
          (e.branches.map fun b => Text.ended (padded 0 b.1 :: b.2.reportLines 2)) := by
        rw [reportLines_eq, Text.ended_append, Text.ended_flatMap, ← hbare]
        rfl
    _ = _ := by rw [List.map_congr_left hblock]

/-- At whatever level an error is nested, its report is found as a whole, between lines. -/
theorem Nested.exists_report (hx : Nested e k x) (h : e.Lacks '\n') :
    ∃ before after, e.report =
      Text.ended before ++ Text.indentedBy (4 * k) x.report ++ Text.ended after := by
  obtain ⟨before, after, hlines⟩ := hx.exists_reportLines 0
  have hreport : x.reportAt (2 * k) = Text.indentedBy (4 * k) x.report := by
    rw [reportAt_eq_indentedBy (hx.lacks h), ← Nat.mul_assoc]
  refine ⟨before, after, ?_⟩
  calc e.report = Text.ended (e.reportLines 0) := rfl
    _ = Text.ended before ++ x.reportAt (2 * k) ++ Text.ended after := by
        rw [hlines, Text.ended_append, Text.ended_append, Nat.zero_add]
        rfl
    _ = _ := by rw [hreport]

/-- **Indenting the finished report** line by line gives what is printed two steps deeper. -/
theorem indented_report (hfeed : e.Lacks '\n') (hreturn : e.Lacks '\r') :
    TargetNotFound.indented e.report = e.reportAt 2 := by
  have hlines : Text.linesOf e.report = e.reportLines 0 :=
    Text.linesOf_ended (notMem_reportLines (.inl rfl) hfeed)
      (notMem_reportLines (.inr rfl) hreturn)
  have hmargin : (e.reportLines 0).map (padded 2) = e.reportLines 2 :=
    (reportLines_add 2 0 e).symm
  calc TargetNotFound.indented e.report
    _ = String.join ((e.reportLines 0).map fun line => "    " ++ line ++ "\n") := by
        rw [TargetNotFound.indented, hlines]
    _ = Text.ended ((e.reportLines 0).map (padded 2)) := by rw [Text.ended, List.map_map]; rfl
    _ = e.reportAt 2 := by rw [hmargin]; rfl

/-- **The layout of reports.** Let no name, label or path of a tree of errors hold a line feed. A
report at a depth is the report, every line of which is indented by two blanks for each step. So the
report on an error is that on the error alone, followed by the reports on its cause and on what it
suppressed, each indented by four blanks under the line that announces it, and at whatever level an
error is nested, its own report is found as a whole, indented by four blanks for each level. If no
carriage return is taken for a part of a line end either, then a missing target with this cause
reports it under the same line, just as it is printed at depth two. -/
theorem report_laid_out (h : e.Lacks '\n') :
    (∀ d, e.reportAt d = Text.indentedBy (2 * d) e.report) ∧
      e.report = e.bare.report ++
        String.join (e.branches.map fun b => b.1 ++ "\n" ++ Text.indentedBy 4 b.2.report) ∧
      (∀ k x, Nested e k x → ∃ before after, e.report =
        Text.ended before ++ Text.indentedBy (4 * k) x.report ++ Text.ended after) ∧
      (e.Lacks '\r' → ∀ t : TargetNotFound, t.cause? = some e →
        t.report = { t with cause? := none }.report ++ "  caused by:\n" ++ e.reportAt 2) := by
  refine ⟨reportAt_eq_indentedBy h, report_eq h, fun k x hx => hx.exists_report h, ?_⟩
  intro hreturn t ht
  rw [← indented_report h hreturn]
  simp only [TargetNotFound.report, ht, TargetNotFound.message, String.append_empty,
    String.append_assoc]

/-- A failure with something nested in its cause and in what it suppressed. -/
def layeredError : ResolveError :=
  { name := "x.X", realm := "all", chain := ["all", "setup", "modules"]
    cause? := some
      { name := "x.X", realm := "setup", chain := ["setup"], searched := [⟨"lib"⟩, ⟨"/repo"⟩]
        inventory := [⟨["lib", "a.jar"]⟩]
        suppressed := [{ name := "x.X", realm := "platform" }] }
    suppressed := [
      { name := "x.X", realm := "modules"
        failure := .conflict ⟨"x.X", "first", .archive ⟨["a.jar"]⟩⟩ ⟨"x.X", "second", .platform⟩
        cause? := some { name := "x.X", realm := "second", chain := ["second"] } }] }

example :
    layeredError.report =
      "x.X not found in realm `all`\n" ++
      "  realm chain: all -> setup -> modules\n" ++
      "  archives: []\n" ++
      "  caused by:\n" ++
      "    x.X not found in realm `setup`\n" ++
      "      realm chain: setup\n" ++
      "      searched: [lib, /repo]\n" ++
      "      archives: [file:///lib/a.jar]\n" ++
      "      suppressed:\n" ++
      "        x.X not found in realm `platform`\n" ++
      "          archives: []\n" ++
      "  suppressed:\n" ++
      "    x.X is defined differently in realm `first` (file:///a.jar) and realm `second` " ++
      "(platform)\n" ++
      "      archives: []\n" ++
      "      caused by:\n" ++
      "        x.X not found in realm `second`\n" ++
      "          realm chain: second\n" ++
      "          archives: []\n" := by
  decide +kernel

/-- A target that is missed for this failure. -/
def missedTarget : TargetNotFound :=
  { contract := ⟨"x.X", ⟨"run", []⟩⟩, realm := "all", failure := .unresolved
    chain := ["all", "setup", "modules"], searched := [⟨"lib"⟩, ⟨"/repo"⟩]
    inventory := [⟨["lib", "a.jar"]⟩], cause? := some layeredError }

/-- Nothing in this error has a line break in it. -/
theorem layeredError_lacks {c : Char} (hc : c = '\n' ∨ c = '\r') : layeredError.Lacks c := by
  have hleaf : ∀ x : ResolveError, x.branches = [] → (∀ s ∈ x.texts, c ∉ s.toList) → x.Lacks c :=
    fun x hx htexts => lacks_iff.mpr ⟨htexts, by simp [hx]⟩
  have hsingle : ∀ (x y : ResolveError) (line : String), x.branches = [(line, y)] → y.Lacks c →
      (∀ s ∈ x.texts, c ∉ s.toList) → x.Lacks c :=
    fun x y line hx hy htexts => lacks_iff.mpr ⟨htexts, by simp [hx, hy]⟩
  rcases hc with rfl | rfl
  all_goals
    refine lacks_iff.mpr
      ⟨by decide, List.forall_mem_cons.mpr ⟨?_, List.forall_mem_singleton.mpr ?_⟩⟩
    · exact hsingle _ _ _ rfl (hleaf _ rfl (by decide)) (by decide)
    · exact hsingle _ _ _ rfl (hleaf _ rfl (by decide)) (by decide)

/-- The error of the platform is nested at the second level, so its report stands behind eight
blanks. The target shows the whole failure behind four. -/
theorem report_laid_out_layeredError :
    layeredError.Lacks '\n' ∧ layeredError.Lacks '\r' ∧
      layeredError.reportAt 3 = Text.indentedBy 6 layeredError.report ∧
      (∃ before after, layeredError.report = Text.ended before ++
        Text.indentedBy 8 { name := "x.X", realm := "platform" : ResolveError }.report ++
          Text.ended after) ∧
      missedTarget.report = { missedTarget with cause? := none }.report ++ "  caused by:\n" ++
        layeredError.reportAt 2 := by
  have hfeed : layeredError.Lacks '\n' := layeredError_lacks (.inl rfl)
  have hreturn : layeredError.Lacks '\r' := layeredError_lacks (.inr rfl)
  obtain ⟨hdepth, -, hnested, hcause⟩ := report_laid_out hfeed
  refine ⟨hfeed, hreturn, hdepth 3, hnested 2 _ ?_, hcause hreturn missedTarget rfl⟩
  exact .step List.mem_cons_self (.step List.mem_cons_self (.self _))

end ResolveError

end RealmBoot
