/-!
# Cutting Texts into Pieces

`pieces` cuts at every occurrence of a separator, `cut` at the first one, and `lines` at line
ends. A line ends with a line feed, or with a carriage return followed by a line feed; text after
the last line end is a line of its own, in which a final carriage return is an ordinary character.
-/

namespace RealmBoot.Text

/-- The pieces between the occurrences of `sep`; one more than there are occurrences. -/
def pieces (sep : Char) : List Char → List (List Char)
  | [] => [[]]
  | c :: cs =>
    if c = sep then [] :: pieces sep cs
    else match pieces sep cs with
      | [] => [[c]]
      | p :: ps => (c :: p) :: ps

/-- What stands before and after the first occurrence of `sep`, if there is one. -/
def cut (sep : Char) : List Char → Option (List Char × List Char)
  | [] => none
  | c :: cs => if c = sep then some ([], cs) else (cut sep cs).map fun (a, b) => (c :: a, b)

/-- Drops one final carriage return. -/
def dropReturn (cs : List Char) : List Char :=
  if cs.getLast? = some '\r' then cs.dropLast else cs

/-- Turns the pieces between line feeds into lines: all but the last were ended by a line feed. -/
def linesOfPieces : List (List Char) → List (List Char)
  | [] => []
  | [p] => if p.isEmpty then [] else [p]
  | p :: q :: ps => dropReturn p :: linesOfPieces (q :: ps)

/-- The lines of a text, without their line ends. -/
def lines (cs : List Char) : List (List Char) := linesOfPieces (pieces '\n' cs)

/-- The pieces of a text between the occurrences of `sep`. -/
def piecesOf (sep : Char) (s : String) : List String := (pieces sep s.toList).map String.ofList

/-- What stands before and after the first occurrence of `sep` in a text. -/
def cutAt (sep : Char) (s : String) : Option (String × String) :=
  (cut sep s.toList).map fun (a, b) => (String.ofList a, String.ofList b)

/-- The lines of a text. -/
def linesOf (s : String) : List String := (lines s.toList).map String.ofList

/-- Joins texts with a separator between each two neighbours. -/
def joined (sep : String) : List String → String
  | [] => ""
  | [s] => s
  | s :: t :: ts => s ++ sep ++ joined sep (t :: ts)

/-- The text `s` written `n` times. -/
def repeated (s : String) : Nat → String
  | 0 => ""
  | n + 1 => s ++ repeated s n

/-- There is always a piece, though it may be empty. -/
theorem pieces_ne_nil (sep : Char) (cs : List Char) : pieces sep cs ≠ [] := by
  induction cs with
  | nil => simp [pieces]
  | cons c cs ih =>
    unfold pieces
    split
    · simp
    · split <;> simp

/-- A text without the separator is its own single piece. -/
theorem pieces_eq_singleton {sep : Char} {cs : List Char} (h : sep ∉ cs) :
    pieces sep cs = [cs] := by
  induction cs with
  | nil => rfl
  | cons c cs ih =>
    simp only [List.mem_cons, not_or] at h
    simp [pieces, Ne.symm h.1, ih h.2]

/-- A separator ends the piece before it. -/
theorem pieces_append_sep {sep : Char} {a : List Char} (h : sep ∉ a) (b : List Char) :
    pieces sep (a ++ sep :: b) = a :: pieces sep b := by
  induction a with
  | nil => simp [pieces]
  | cons c a ih =>
    simp only [List.mem_cons, not_or] at h
    simp [pieces, Ne.symm h.1, ih h.2]

/-- A text is cut at the first separator. -/
theorem cut_append_sep {sep : Char} {a : List Char} (h : sep ∉ a) (b : List Char) :
    cut sep (a ++ sep :: b) = some (a, b) := by
  induction a with
  | nil => simp [cut]
  | cons c a ih =>
    simp only [List.mem_cons, not_or] at h
    simp [cut, Ne.symm h.1, ih h.2]

/-- Before the first separator stands the longest beginning without one. -/
theorem cut_of_mem {sep : Char} {cs : List Char} (h : sep ∈ cs) :
    cut sep cs = some (cs.takeWhile (· ≠ sep), (cs.dropWhile (· ≠ sep)).tail) := by
  induction cs with
  | nil => simp at h
  | cons c cs ih =>
    by_cases hc : c = sep
    · simp [cut, hc]
    · have hmem : sep ∈ cs := (List.mem_cons.mp h).resolve_left (Ne.symm hc)
      simp [cut, hc, ih hmem]

/-- A text without a separator is not cut. -/
theorem cut_eq_none_iff {sep : Char} {cs : List Char} : cut sep cs = none ↔ sep ∉ cs := by
  induction cs with
  | nil => simp [cut]
  | cons c cs ih =>
    by_cases h : c = sep
    · simp [cut, h]
    · simp [cut, h, ih, Ne.symm h]

/-- A line feed ends the line before it, and a carriage return just before it belongs to it. -/
theorem lines_append_feed {line : List Char} (h : '\n' ∉ line) (rest : List Char) :
    lines (line ++ '\n' :: rest) = dropReturn line :: lines rest := by
  rw [lines, pieces_append_sep h, lines]
  cases hrest : pieces '\n' rest with
  | nil => exact absurd hrest (pieces_ne_nil '\n' rest)
  | cons piece more => rfl

/-- A carriage return at the end is dropped. -/
theorem dropReturn_append (cs : List Char) : dropReturn (cs ++ ['\r']) = cs := by
  simp [dropReturn]

/-- Without a carriage return at the end nothing is dropped. -/
theorem dropReturn_of_getLast? {cs : List Char} (h : cs.getLast? ≠ some '\r') :
    dropReturn cs = cs :=
  if_neg h

/-- A character of a joined text comes from one of its parts, or from between them. -/
theorem of_mem_joined {sep : String} {texts : List String} {c : Char}
    (h : c ∈ (joined sep texts).toList) : c ∈ sep.toList ∨ ∃ s ∈ texts, c ∈ s.toList := by
  induction texts with
  | nil => simp [joined] at h
  | cons s texts ih =>
      cases texts with
      | nil => exact .inr ⟨s, List.mem_cons_self, h⟩
      | cons t texts =>
          rw [joined, String.toList_append, String.toList_append, List.mem_append,
            List.mem_append] at h
          rcases h with (h | h) | h
          · exact .inr ⟨s, List.mem_cons_self, h⟩
          · exact .inl h
          · rcases ih h with h | ⟨s', hs', h⟩
            · exact .inl h
            · exact .inr ⟨s', List.mem_cons_of_mem _ hs', h⟩

end RealmBoot.Text
