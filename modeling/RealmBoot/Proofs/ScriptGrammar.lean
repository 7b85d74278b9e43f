import Mathlib.Data.List.Infix
import Mathlib.Tactic.SplitIfs
import RealmBoot.Proofs.ReadingAhead

/-!
# The Grammar of Definitions

The check of a definition comes down to a machine that reads one character at a time and keeps the
brackets that are open. What it accepts can be said without a machine, by a grammar: a definition is
a sequence of items, and an item is a comment, a string literal, a group in brackets, or a character
that is none of these. This module states the grammar and proves that the check finds no problem in
exactly the definitions that belong to it and are not blank.

That a text belongs to the grammar is not decided item by item, as where an item ends may depend on
what follows it: a slash is an item of its own unless the next character makes it open a comment,
and a line comment reaches as far as its line does. `Passage` therefore relates a text to what is
left of it. An item that is no group is a `Lexeme`, and where a text starts with neither a bracket
nor a lexeme, it starts with something `Unended`.

## Main results

* `exists_lexeme`: what a text can start with.
* `Lexeme.verdict_eq`, `Unended.verdict_eq`: what the check makes of it.
* `Passage.verdict_eq`: after a sequence of items the check is where it was, in code and with the
  same brackets open.
* `closes_of_verdict_eq_nil`: a text without problems closes the open brackets one after another,
  with sequences of items between them.
* `problems_eq_nil_iff`: the check finds no problem exactly in the texts of the grammar.
-/

namespace RealmBoot

namespace Lint

/-! ### The grammar -/

/-- A text starts with a comment. -/
def StartsComment (cs : List Char) : Prop := ['/', '/'] <+: cs ∨ ['/', '*'] <+: cs

/-- A character that is neither a bracket nor a quote. -/
def IsOrdinary (c : Char) : Prop := closerOf? c = none ∧ isCloser c = false ∧ isQuote c = false

/-- What may stand between two quotes. A backslash takes the next character with it, whatever that
is; any other character may not be the quote. -/
inductive LiteralBody (quote : Char) : List Char → Prop
  | nil : LiteralBody quote []
  | escaped {c : Char} {body : List Char} :
      LiteralBody quote body → LiteralBody quote ('\\' :: c :: body)
  | plain {c : Char} {body : List Char} :
      c ≠ '\\' → c ≠ quote → LiteralBody quote body → LiteralBody quote (c :: body)

/-- A text begins with a sequence of items, after which the rest is left. -/
inductive Passage : (text rest : List Char) → Prop
  /-- The sequence may be empty. -/
  | done (rest : List Char) : Passage rest rest
  /-- A line comment goes up to the next line feed, or to the end of the text. -/
  | lineComment {comment rest rest' : List Char} :
      '\n' ∉ comment → (∀ c ∈ rest.head?, c = '\n') → Passage rest rest' →
        Passage ('/' :: '/' :: (comment ++ rest)) rest'
  /-- A block comment goes up to the first star that a slash follows. -/
  | blockComment {comment rest rest' : List Char} :
      ¬ ['*', '/'] <:+: comment ++ ['*'] → Passage rest rest' →
        Passage ('/' :: '*' :: (comment ++ '*' :: '/' :: rest)) rest'
  /-- A string literal ends with the quote that opened it. -/
  | literal {quote : Char} {body rest rest' : List Char} :
      isQuote quote = true → LiteralBody quote body → Passage rest rest' →
        Passage (quote :: (body ++ quote :: rest)) rest'
  /-- A group is a sequence of items between a bracket and its closer. -/
  | group {opener closer : Char} {inside rest rest' : List Char} :
      closerOf? opener = some closer → Passage inside (closer :: rest) → Passage rest rest' →
        Passage (opener :: inside) rest'
  /-- Any other character is an item of its own. -/
  | ordinary {c : Char} {rest rest' : List Char} :
      IsOrdinary c → ¬ StartsComment (c :: rest) → Passage rest rest' → Passage (c :: rest) rest'

/-- A sequence of items ends each open bracket, given by their closers, and one stands at the
end. -/
def Closes : (closers cs : List Char) → Prop
  | [], cs => Passage cs []
  | closer :: outer, cs => ∃ rest, Passage cs (closer :: rest) ∧ Closes outer rest

/-- Items may be put in front of a text that closes brackets. -/
theorem Closes.of_passage {closers cs cs' : List Char}
    (hitem : ∀ rest, Passage cs' rest → Passage cs rest) (h : Closes closers cs') :
    Closes closers cs := by
  cases closers with
  | nil => exact hitem [] h
  | cons closer outer =>
      obtain ⟨rest, hpassage, hclosed⟩ := h
      exact ⟨rest, hitem _ hpassage, hclosed⟩

/-- A comment, a string literal, or a single character, and what is left after it. These are the
items that are no groups. -/
inductive Lexeme : (lexeme rest : List Char) → Prop
  | lineComment {comment rest : List Char} :
      '\n' ∉ comment → (∀ c ∈ rest.head?, c = '\n') → Lexeme ('/' :: '/' :: comment) rest
  | blockComment {comment rest : List Char} :
      ¬ ['*', '/'] <:+: comment ++ ['*'] → Lexeme ('/' :: '*' :: (comment ++ ['*', '/'])) rest
  | literal {quote : Char} {body rest : List Char} :
      isQuote quote = true → LiteralBody quote body → Lexeme (quote :: (body ++ [quote])) rest
  | ordinary {c : Char} {rest : List Char} :
      IsOrdinary c → ¬ StartsComment (c :: rest) → Lexeme [c] rest

/-- A text starts with a block comment or a string literal that does not end, which is an issue. -/
inductive Unended : List Char → Issue → Prop
  /-- No star of the comment has a slash after it. -/
  | comment {inside : List Char} :
      ¬ ['*', '/'] <:+: inside → Unended ('/' :: '*' :: inside) .openComment
  /-- The quote that opened the literal does not close it. -/
  | literal {quote : Char} {inside : List Char} :
      isQuote quote = true →
      (∀ body rest, LiteralBody quote body → inside ≠ body ++ quote :: rest) →
        Unended (quote :: inside) .openLiteral

/-- No lexeme is empty. -/
theorem Lexeme.ne_nil {lexeme rest : List Char} (h : Lexeme lexeme rest) : lexeme ≠ [] := by
  cases h <;> exact List.cons_ne_nil _ _

/-- A passage may begin with a lexeme. -/
theorem Lexeme.passage {lexeme rest rest' : List Char} (h : Lexeme lexeme rest)
    (hrest : Passage rest rest') : Passage (lexeme ++ rest) rest' := by
  cases h with
  | lineComment hline hend => exact .lineComment hline hend hrest
  | blockComment hfirst =>
      simpa only [List.cons_append, List.append_assoc, List.nil_append] using
        Passage.blockComment hfirst hrest
  | literal hquote hbody =>
      simpa only [List.cons_append, List.append_assoc, List.nil_append] using
        Passage.literal hquote hbody hrest
  | ordinary hc hcomment => exact .ordinary hc hcomment hrest

/-- An induction over the items of a passage need not tell the lexemes apart. The text of a lexeme
and what follows it may be spelled in another way. -/
theorem Passage.induction_lexeme {motive : ∀ text rest, Passage text rest → Prop}
    (done : ∀ rest, motive rest rest (.done rest))
    (lexeme : ∀ {lexeme rest rest'} (hlexeme : Lexeme lexeme rest) (hrest : Passage rest rest'),
      motive rest rest' hrest → motive (lexeme ++ rest) rest' (hlexeme.passage hrest))
    (group : ∀ {opener closer inside rest rest'} (hopener : closerOf? opener = some closer)
      (hinside : Passage inside (closer :: rest)) (hrest : Passage rest rest'),
      motive inside (closer :: rest) hinside → motive rest rest' hrest →
        motive (opener :: inside) rest' (.group hopener hinside hrest))
    {text rest : List Char} (h : Passage text rest) : motive text rest h := by
  have hspelled : ∀ {lexeme rest rest' text} (hlexeme : Lexeme lexeme rest)
      (hrest : Passage rest rest') (htext : Passage text rest'), text = lexeme ++ rest →
      motive rest rest' hrest → motive text rest' htext := by
    rintro _ _ _ _ hlexeme hrest htext rfl ih
    exact lexeme hlexeme hrest ih
  induction h with
  | done rest => exact done rest
  | lineComment hline hend hrest ih => exact hspelled (.lineComment hline hend) hrest _ rfl ih
  | blockComment hfirst hrest ih => exact hspelled (.blockComment hfirst) hrest _ (by simp) ih
  | literal hquote hbody hrest ih => exact hspelled (.literal hquote hbody) hrest _ (by simp) ih
  | group hopener hinside hrest ihinside ih => exact group hopener hinside hrest ihinside ih
  | ordinary hc hcomment hrest ih => exact hspelled (.ordinary hc hcomment) hrest _ rfl ih

/-- Passages may be put one after the other. -/
theorem Passage.trans {text middle rest : List Char} (h : Passage text middle)
    (hmiddle : Passage middle rest) : Passage text rest := by
  induction h with
  | done _ => exact hmiddle
  | lineComment hline hend _ ih => exact .lineComment hline hend (ih hmiddle)
  | blockComment hfirst _ ih => exact .blockComment hfirst (ih hmiddle)
  | literal hquote hbody _ ih => exact .literal hquote hbody (ih hmiddle)
  | group hopener hinside _ _ ih => exact .group hopener hinside (ih hmiddle)
  | ordinary hc hcomment _ ih => exact .ordinary hc hcomment (ih hmiddle)

/-! ### Reading one character in code -/

variable {p opened : Position} {brackets : List Opened} {c quote : Char}
  {cs rest comment body : List Char}

/-- A closer does what the bracket that it closes asks for. -/
theorem isCloser_of_closerOf? {closer : Char} (h : closerOf? c = some closer) :
    isCloser closer = true := by
  unfold closerOf? at h
  split at h <;> cases h <;> rfl

/-- Blank characters have no meaning. -/
theorem isOrdinary_of_isBlank (h : Text.isBlank c = true) : c ≠ '/' ∧ IsOrdinary c := by
  refine ⟨?_, ?_, ?_, ?_⟩
  · rintro rfl
    cases h
  · unfold closerOf?
    split <;> first | rfl | cases h
  · by_contra hcloser
    rw [Bool.not_eq_false, isCloser, Bool.or_eq_true, Bool.or_eq_true, decide_eq_true_eq,
      decide_eq_true_eq, decide_eq_true_eq] at hcloser
    rcases hcloser with (rfl | rfl) | rfl <;> cases h
  · by_contra hquote
    rw [Bool.not_eq_false, isQuote, Bool.or_eq_true, decide_eq_true_eq, decide_eq_true_eq] at hquote
    rcases hquote with rfl | rfl <;> cases h

/-- What a character can be in code. -/
theorem char_cases (c : Char) :
    c = '/' ∨ isQuote c = true ∨ (∃ closer, closerOf? c = some closer) ∨ isCloser c = true ∨
      c ≠ '/' ∧ IsOrdinary c := by
  by_cases hslash : c = '/'
  · exact .inl hslash
  cases hquote : isQuote c with
  | true => exact .inr (.inl rfl)
  | false =>
      cases hopener : closerOf? c with
      | some closer => exact .inr (.inr (.inl ⟨closer, rfl⟩))
      | none =>
          cases hcloser : isCloser c with
          | true => exact .inr (.inr (.inr (.inl rfl)))
          | false => exact .inr (.inr (.inr (.inr ⟨hslash, hopener, hcloser, hquote⟩)))

/-- A slash in code is kept back: it may begin a comment. -/
theorem inCode_slash : inCode p brackets '/' = .reading (.slash p) (p.after '/') brackets := rfl

/-- An ordinary character is passed over. -/
theorem inCode_ordinary (hslash : c ≠ '/') (hc : IsOrdinary c) :
    inCode p brackets c = .reading .code (p.after c) brackets := by
  obtain ⟨hopener, hcloser, hquote⟩ := hc
  simp only [inCode, if_neg hslash, hquote, hopener, hcloser, Bool.false_eq_true, if_false]

/-- A quote opens a literal. -/
theorem inCode_quote (h : isQuote c = true) :
    inCode p brackets c = .reading (.literal c p) (p.after c) brackets := by
  have hslash : c ≠ '/' := by
    rintro rfl
    cases h
  simp only [inCode, if_neg hslash, h, if_true]

/-- An opening bracket is kept. -/
theorem inCode_opener {closer : Char} (h : closerOf? c = some closer) :
    inCode p brackets c = .reading .code (p.after c) (⟨c, closer, p⟩ :: brackets) := by
  have hslash : c ≠ '/' := by
    rintro rfl
    cases h
  have hquote : isQuote c = false := by
    by_contra hq
    rw [Bool.not_eq_false, isQuote, Bool.or_eq_true, decide_eq_true_eq, decide_eq_true_eq] at hq
    rcases hq with rfl | rfl <;> cases h
  simp only [inCode, if_neg hslash, hquote, h, Bool.false_eq_true, if_false]

/-- What a closing bracket does depends on the innermost open one. -/
theorem inCode_closer (h : isCloser c = true) :
    inCode p brackets c =
      match brackets with
      | [] => .stopped ⟨p, .unmatched c⟩
      | top :: below =>
        if top.closer = c then .reading .code (p.after c) below
        else .stopped ⟨p, .unexpected c top.closer⟩ := by
  have hkind : c ≠ '/' ∧ isQuote c = false ∧ closerOf? c = none := by
    simp only [isCloser, Bool.or_eq_true, decide_eq_true_eq] at h
    rcases h with (rfl | rfl) | rfl <;> decide
  obtain ⟨hslash, hquote, hopener⟩ := hkind
  cases brackets with
  | nil | cons top below =>
      simp only [inCode, if_neg hslash, hquote, hopener, h, Bool.false_eq_true, if_false, if_true]

/-! ### Reading one item -/

/-- What is wrong with brackets that stay open. -/
def neverClosed (brackets : List Opened) : List Problem :=
  brackets.reverse.map fun o => ⟨o.position, .neverClosed o.bracket⟩

/-- A slash that opens no comment is a character like any other. -/
theorem verdict_slash (h : ¬ StartsComment ('/' :: cs)) :
    (State.reading (.slash opened) p brackets).verdict cs =
      (State.reading .code p brackets).verdict cs := by
  refine verdict_after_slash (fun hslash => h (.inl ?_)) fun hstar => h (.inr ?_)
  · obtain ⟨rest, rfl⟩ := List.head?_eq_some_iff.mp hslash
    simp
  · obtain ⟨rest, rfl⟩ := List.head?_eq_some_iff.mp hstar
    simp

/-- An ordinary character makes no difference to the verdict, unless it begins a comment. -/
theorem verdict_ordinary (hc : IsOrdinary c) (h : ¬ StartsComment (c :: cs)) :
    (State.reading .code p brackets).verdict (c :: cs) =
      (State.reading .code (p.after c) brackets).verdict cs := by
  by_cases hslash : c = '/'
  · subst hslash
    exact verdict_slash h
  · rw [State.verdict_cons, State.step, stepAt, inCode_ordinary hslash hc]

/-- An opening bracket is kept for the verdict on the rest. -/
theorem verdict_opener {closer : Char} (h : closerOf? c = some closer) :
    (State.reading .code p brackets).verdict (c :: cs) =
      (State.reading .code (p.after c) (⟨c, closer, p⟩ :: brackets)).verdict cs := by
  rw [State.verdict_cons, State.step, stepAt, inCode_opener h]

/-- A closing bracket that is due ends its group. -/
theorem verdict_closer (top : Opened) (h : isCloser top.closer = true) :
    (State.reading .code p (top :: brackets)).verdict (top.closer :: cs) =
      (State.reading .code (p.after top.closer) brackets).verdict cs := by
  rw [State.verdict_cons, State.step, stepAt, inCode_closer h]
  dsimp only
  rw [if_pos rfl]

/-- A closing bracket without an open one ends the check. -/
theorem verdict_unmatched (h : isCloser c = true) :
    (State.reading .code p []).verdict (c :: cs) = [⟨p, .unmatched c⟩] := by
  rw [State.verdict_cons, State.step, stepAt, inCode_closer h]
  exact verdict_stopped _ _

/-- So does one while another one is due. -/
theorem verdict_unexpected {top : Opened} (h : isCloser c = true) (htop : top.closer ≠ c) :
    (State.reading .code p (top :: brackets)).verdict (c :: cs) =
      [⟨p, .unexpected c top.closer⟩] := by
  rw [State.verdict_cons, State.step, stepAt, inCode_closer h]
  dsimp only
  rw [if_neg htop]
  exact verdict_stopped _ _

/-! ### Comments -/

/-- What is left of a line, and what follows it. -/
theorem exists_line_end (cs : List Char) :
    ∃ comment rest, cs = comment ++ rest ∧ '\n' ∉ comment ∧ ∀ c ∈ rest.head?, c = '\n' := by
  induction cs with
  | nil => exact ⟨[], [], rfl, by simp, by simp⟩
  | cons c cs ih =>
      by_cases hc : c = '\n'
      · exact ⟨[], c :: cs, rfl, by simp, by simp [hc]⟩
      · obtain ⟨comment, rest, rfl, hline, hrest⟩ := ih
        exact ⟨c :: comment, rest, rfl, by simp [hline, Ne.symm hc], hrest⟩

/-- A comment on a line makes no difference to the verdict. -/
theorem verdict_in_lineComment (p : Position) (brackets : List Opened) (hline : '\n' ∉ comment)
    (hrest : ∀ c ∈ rest.head?, c = '\n') :
    (State.reading .lineComment p brackets).verdict (comment ++ rest) =
      (State.reading .code (p.along comment) brackets).verdict rest := by
  induction comment generalizing p with
  | nil =>
      cases rest with
      | nil => rfl
      | cons c rest =>
          obtain rfl := hrest c rfl
          rfl
  | cons c comment ih =>
      simp only [List.mem_cons, not_or] at hline
      rw [Position.along_cons, ← ih (p.after c) hline.2]
      simp only [List.cons_append, State.verdict_cons, State.step, stepAt,
        if_neg (Ne.symm hline.1)]

/-- A block comment ends at the first star that a slash follows, whether its last character before
that is a star or not. -/
theorem verdict_in_blockComment (opened p : Position) (brackets : List Opened)
    (comment rest : List Char) :
    (¬ ['*', '/'] <:+: comment ++ ['*'] →
      (State.reading (.blockComment opened) p brackets).verdict (comment ++ '*' :: '/' :: rest) =
        (State.reading .code (p.along (comment ++ ['*', '/'])) brackets).verdict rest) ∧
    (¬ ['*', '/'] <:+: '*' :: (comment ++ ['*']) →
      (State.reading (.star opened) p brackets).verdict (comment ++ '*' :: '/' :: rest) =
        (State.reading .code (p.along (comment ++ ['*', '/'])) brackets).verdict rest) := by
  induction comment generalizing p with
  | nil => exact ⟨fun _ => rfl, fun _ => rfl⟩
  | cons c comment ih =>
      obtain ⟨hcomment, hstar⟩ := ih (p.after c)
      have htail : ¬ ['*', '/'] <:+: c :: (comment ++ ['*']) →
          ¬ ['*', '/'] <:+: comment ++ ['*'] := fun h hin => h (List.infix_cons hin)
      constructor
      · intro h
        by_cases hc : c = '*'
        · subst hc
          exact hstar h
        · have hgo := hcomment (htail h)
          simp only [List.cons_append, State.verdict_cons, State.step, stepAt, if_neg hc,
            Position.along_cons]
          exact hgo
      · intro h
        have hslash : c ≠ '/' := by
          rintro rfl
          exact h (List.IsPrefix.isInfix (by simp))
        by_cases hc : c = '*'
        · subst hc
          exact hstar fun hin => h (List.infix_cons hin)
        · have hgo := hcomment (htail fun hin => h (List.infix_cons hin))
          simp only [List.cons_append, State.verdict_cons, State.step, stepAt, if_neg hslash,
            if_neg hc, Position.along_cons]
          exact hgo

/-- A block comment without a star that a slash follows does not end. -/
theorem verdict_in_open_blockComment (cs : List Char) (p : Position) :
    (¬ ['*', '/'] <:+: cs →
      (State.reading (.blockComment opened) p brackets).verdict cs =
        ⟨opened, .openComment⟩ :: neverClosed brackets) ∧
    (¬ ['*', '/'] <:+: '*' :: cs →
      (State.reading (.star opened) p brackets).verdict cs =
        ⟨opened, .openComment⟩ :: neverClosed brackets) := by
  induction cs generalizing p with
  | nil => exact ⟨fun _ => rfl, fun _ => rfl⟩
  | cons c cs ih =>
      obtain ⟨hcomment, hstar⟩ := ih (p.after c)
      constructor
      · intro h
        by_cases hc : c = '*'
        · subst hc
          exact hstar h
        · have hopen := hcomment fun hin => h (List.infix_cons hin)
          simpa only [State.verdict_cons, State.step, stepAt, if_neg hc] using hopen
      · intro h
        have hslash : c ≠ '/' := by
          rintro rfl
          exact h (List.IsPrefix.isInfix (by simp))
        by_cases hc : c = '*'
        · subst hc
          exact hstar fun hin => h (List.infix_cons hin)
        · have hopen := hcomment fun hin => h (List.infix_cons (List.infix_cons hin))
          simpa only [State.verdict_cons, State.step, stepAt, if_neg hslash, if_neg hc] using hopen

/-- A text either has a first star that a slash follows, or none. -/
theorem exists_first_end (cs : List Char) :
    (∃ comment rest, cs = comment ++ '*' :: '/' :: rest ∧ ¬ ['*', '/'] <:+: comment ++ ['*']) ∨
      ¬ ['*', '/'] <:+: cs := by
  induction cs with
  | nil => exact .inr (by simp)
  | cons c cs ih =>
      by_cases hhead : ['*', '/'] <+: c :: cs
      · obtain ⟨rest, hrest⟩ := hhead
        exact .inl ⟨[], rest, hrest.symm, fun hin => by simpa using hin.length_le⟩
      · rcases ih with ⟨comment, rest, rfl, hfirst⟩ | hnone
        · refine .inl ⟨c :: comment, rest, rfl, fun hin => ?_⟩
          rw [List.cons_append] at hin
          rcases List.infix_cons_iff.mp hin with hprefix | hin
          · cases comment with
            | nil => simp at hprefix
            | cons d comment =>
                simp only [List.cons_prefix_cons, List.cons_append, List.nil_prefix,
                  and_true] at hprefix hhead
                exact hhead hprefix
          · exact hfirst hin
        · refine .inr fun hin => ?_
          rcases List.infix_cons_iff.mp hin with hprefix | hin
          · exact hhead hprefix
          · exact hnone hin

/-! ### String literals -/

/-- A backslash is no quote. -/
theorem isQuote_ne_backslash (h : isQuote quote = true) : quote ≠ '\\' := by
  rintro rfl
  cases h

/-- A literal makes no difference to the verdict. Its body is read by its pieces, as an escape takes
two characters at once. -/
theorem verdict_in_literal (opened p : Position) (brackets : List Opened) (rest : List Char)
    (hquote : isQuote quote = true) (hbody : LiteralBody quote body) :
    (State.reading (.literal quote opened) p brackets).verdict (body ++ quote :: rest) =
      (State.reading .code (p.along (body ++ [quote])) brackets).verdict rest := by
  induction hbody generalizing p with
  | nil =>
      simp only [List.nil_append, State.verdict_cons, State.step, stepAt,
        if_neg (isQuote_ne_backslash hquote), if_true, Position.along_cons, Position.along_nil]
  | @escaped c body _ ih => exact ih ((p.after '\\').after c)
  | @plain c body hbackslash hc _ ih =>
      rw [List.cons_append, List.cons_append, Position.along_cons, ← ih (p.after c)]
      simp only [State.verdict_cons, State.step, stepAt, if_neg hbackslash, if_neg hc]

/-- A string literal that its quote does not close ends with the text. The character behind a
backslash belongs to the literal, so two are read at once. -/
theorem verdict_in_open_literal (opened p : Position) (brackets : List Opened) (cs : List Char)
    (hopen : ∀ body rest, LiteralBody quote body → cs ≠ body ++ quote :: rest) :
    (State.reading (.literal quote opened) p brackets).verdict cs =
      ⟨opened, .openLiteral⟩ :: neverClosed brackets := by
  match cs with
  | [] => rfl
  | c :: cs =>
      by_cases hbackslash : c = '\\'
      · subst hbackslash
        match cs with
        | [] => rfl
        | d :: cs =>
            refine verdict_in_open_literal opened ((p.after '\\').after d) brackets cs ?_
            intro body rest hbody heq
            exact hopen ('\\' :: d :: body) rest (.escaped hbody) (by rw [heq]; rfl)
      · have hc : c ≠ quote := by
          rintro rfl
          exact hopen [] cs .nil rfl
        simp only [State.verdict_cons, State.step, stepAt, if_neg hbackslash, if_neg hc]
        refine verdict_in_open_literal opened (p.after c) brackets cs ?_
        intro body rest hbody heq
        exact hopen (c :: body) rest (.plain hbackslash hc hbody) (by rw [heq]; rfl)

/-! ### What the check accepts -/

/-- A lexeme leaves the check in code, with the same brackets open. -/
theorem Lexeme.verdict_eq {lexeme rest : List Char} (h : Lexeme lexeme rest) (p : Position)
    (brackets : List Opened) :
    (State.reading .code p brackets).verdict (lexeme ++ rest) =
      (State.reading .code (p.along lexeme) brackets).verdict rest := by
  cases h with
  | lineComment hline hend =>
      exact verdict_in_lineComment ((p.after '/').after '/') brackets hline hend
  | @blockComment comment _ hfirst =>
      have hcomment := (verdict_in_blockComment p ((p.after '/').after '*') brackets comment
        rest).1 hfirst
      rw [List.cons_append, List.cons_append, List.append_assoc]
      exact hcomment
  | @literal quote body _ hquote hbody =>
      have hliteral := verdict_in_literal p (p.after quote) brackets rest hquote hbody
      rw [List.cons_append, List.append_assoc, State.verdict_cons, State.step, stepAt,
        inCode_quote hquote]
      exact hliteral
  | ordinary hc hcomment => exact verdict_ordinary hc hcomment

/-- What does not end is reported at the place where it was opened, before the brackets that are
open. -/
theorem Unended.verdict_eq {text : List Char} {issue : Issue} (h : Unended text issue)
    (p : Position) (brackets : List Opened) :
    (State.reading .code p brackets).verdict text = ⟨p, issue⟩ :: neverClosed brackets := by
  cases h with
  | comment hopen => exact (verdict_in_open_blockComment _ _).1 hopen
  | @literal quote inside hquote hopen =>
      rw [State.verdict_cons, State.step, stepAt, inCode_quote hquote]
      exact verdict_in_open_literal p (p.after quote) brackets inside hopen

/-- A text that starts with no bracket starts with a lexeme, unless what it starts with does not
end. -/
theorem exists_lexeme (hopener : closerOf? c = none) (hcloser : isCloser c = false)
    (cs : List Char) :
    (∃ lexeme rest, c :: cs = lexeme ++ rest ∧ Lexeme lexeme rest) ∨
      ∃ issue, Unended (c :: cs) issue := by
  by_cases hcomment : StartsComment (c :: cs)
  · rcases hcomment with ⟨after, hafter⟩ | ⟨after, hafter⟩ <;>
      rw [List.cons_append, List.cons_append, List.nil_append, List.cons.injEq] at hafter <;>
      obtain ⟨rfl, rfl⟩ := hafter
    · obtain ⟨comment, rest, rfl, hline, hrest⟩ := exists_line_end after
      exact .inl ⟨'/' :: '/' :: comment, rest, rfl, .lineComment hline hrest⟩
    · rcases exists_first_end after with ⟨comment, rest, rfl, hfirst⟩ | hnone
      · exact .inl ⟨'/' :: '*' :: (comment ++ ['*', '/']), rest, by simp, .blockComment hfirst⟩
      · exact .inr ⟨_, .comment hnone⟩
  · cases hquote : isQuote c with
    | false => exact .inl ⟨[c], cs, rfl, .ordinary ⟨hopener, hcloser, hquote⟩ hcomment⟩
    | true =>
        by_cases hends : ∃ body rest, LiteralBody c body ∧ cs = body ++ c :: rest
        · obtain ⟨body, rest, hbody, rfl⟩ := hends
          exact .inl ⟨c :: (body ++ [c]), rest, by simp, .literal hquote hbody⟩
        · exact .inr ⟨_, .literal hquote fun body rest hbody heq => hends ⟨body, rest, hbody, heq⟩⟩

/-- **After a sequence of items the check is in code again, with the brackets open that were open
before.** -/
theorem Passage.verdict_eq {text rest : List Char} (h : Passage text rest) (p : Position)
    (brackets : List Opened) :
    ∃ p', (State.reading .code p brackets).verdict text =
      (State.reading .code p' brackets).verdict rest := by
  induction h using Passage.induction_lexeme generalizing p brackets with
  | done rest => exact ⟨p, rfl⟩
  | @lexeme lexeme rest rest' hlexeme _ ih =>
      obtain ⟨p', hp'⟩ := ih (p.along lexeme) brackets
      exact ⟨p', (hlexeme.verdict_eq p brackets).trans hp'⟩
  | @group opener closer inside rest rest' hopener _ _ ihinside ih =>
      obtain ⟨p₁, hp₁⟩ := ihinside (p.after opener) (⟨opener, closer, p⟩ :: brackets)
      obtain ⟨p₂, hp₂⟩ := ih (p₁.after closer) brackets
      refine ⟨p₂, ?_⟩
      rw [verdict_opener hopener, hp₁, ← hp₂]
      exact verdict_closer ⟨opener, closer, p⟩ (isCloser_of_closerOf? hopener)

/-- **A text without problems closes the brackets that are open,** one after another, with sequences
of items between them. The induction is on the length of the text, since an item may take any
number of characters away. -/
theorem closes_of_verdict_eq_nil {text : List Char} {p : Position} {brackets : List Opened}
    (h : (State.reading .code p brackets).verdict text = []) :
    Closes (brackets.map (·.closer)) text := by
  induction hlength : text.length using Nat.strongRecOn generalizing text p brackets with
  | ind n ih =>
      subst hlength
      cases text with
      | nil =>
          have hbrackets : brackets = [] := by
            simpa [State.verdict, State.atEnd, Mode.atEnd] using h
          subst hbrackets
          exact .done []
      | cons c cs =>
          cases hopener : closerOf? c with
          | some closer =>
              rw [verdict_opener hopener] at h
              obtain ⟨rest, hinside, hclosed⟩ := ih cs.length (Nat.lt_succ_self _) h rfl
              exact hclosed.of_passage fun left => .group hopener hinside
          | none =>
              cases hcloser : isCloser c with
              | true =>
                  cases brackets with
                  | nil =>
                      rw [verdict_unmatched hcloser] at h
                      cases h
                  | cons top below =>
                      by_cases htop : top.closer = c
                      · subst htop
                        rw [verdict_closer top hcloser] at h
                        exact ⟨cs, .done _, ih cs.length (Nat.lt_succ_self _) h rfl⟩
                      · rw [verdict_unexpected hcloser htop] at h
                        cases h
              | false =>
                  rcases exists_lexeme hopener hcloser cs with
                    ⟨lexeme, rest, htext, hlexeme⟩ | ⟨issue, hunended⟩
                  · have hshorter : rest.length < (c :: cs).length := by
                      have hpos := List.length_pos_of_ne_nil hlexeme.ne_nil
                      rw [htext, List.length_append]
                      omega
                    rw [htext, hlexeme.verdict_eq p brackets] at h
                    rw [htext]
                    exact (ih rest.length hshorter h rfl).of_passage fun left => hlexeme.passage
                  · rw [hunended.verdict_eq p brackets] at h
                    cases h

/-- **The check accepts exactly the grammar.** A definition has no problems if and only if some
character of it is not blank and it is a sequence of items. -/
theorem problems_eq_nil_iff (script : String) :
    problems script = [] ↔
      (∃ c ∈ script.toList, Text.isBlank c = false) ∧ Passage script.toList [] := by
  have hblank : Text.isBlankText script = false ↔
      ∃ c ∈ script.toList, Text.isBlank c = false := by
    simp [Text.isBlankText]
  rw [← hblank]
  cases hscript : Text.isBlankText script with
  | true => simp [problems_of_blank hscript]
  | false =>
      rw [problems_of_visible hscript, eq_self, true_and]
      constructor
      · intro h
        exact @closes_of_verdict_eq_nil _ .start [] h
      · intro h
        obtain ⟨p, hp⟩ := h.verdict_eq .start []
        exact hp

end Lint

end RealmBoot
