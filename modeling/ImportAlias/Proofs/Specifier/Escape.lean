import ImportAlias.Proofs.Specifier.Site
import ImportAlias.Specifier.Replacement

/-!
# Reading escaped texts

A text that is written between delimiters is read back: the literal ends where it should, and it
stands for the text. A character is written as it is or behind a backslash, in which case the reader
of escapes gives it back. The exception is the carriage return, which is written as it is: a string
must not contain one, and a template takes it for a line feed.
-/

namespace ImportAlias

open Script

namespace Delimiter

/-- Contents that stand for a text, and that are closed by their delimiter and by nothing before it,
or, in a template, by the start of a substitution. -/
def Encloses : Delimiter → List Char → List Char → Prop
  | quote mark, body, text =>
    (∀ rest, stringBody? mark (body ++ mark :: rest) = some (body, rest)) ∧
      stringText? body = some text
  | backtick, body, text =>
    (∀ stop rest, chunkBody? (body ++ (ChunkEnd.chars stop ++ rest)) = some (body, stop, rest)) ∧
      chunkText? body = some text

theorem isOfLiteral_quote {mark : Char} (isQuote : mark = '"' ∨ mark = '\'') :
    (quote mark).IsOfLiteral := by
  rcases isQuote with rfl | rfl
  · exact Or.inl rfl
  · exact Or.inr (Or.inl rfl)

/-- The two ways in which a character is written in a literal, in front of another one. -/
inductive WrittenAs (delimiter : Delimiter) (char : Char) (next : Option Char) :
    List Char → Prop where
  /-- Behind a backslash, by what the reader of escapes takes for the character. -/
  | escaped {letter : Char} (noReturn : letter ≠ '\r')
      (read : ∀ inTemplate tail, escape? inTemplate (letter :: tail) = some ([.char char], tail)) :
      WrittenAs delimiter char next ['\\', letter]
  /-- As it is, if it neither starts an escape nor ends the literal. -/
  | plain (noEscape : char ≠ '\\') (noDelimiter : char ≠ delimiter.char)
      (noLineFeed : delimiter ≠ .backtick → char ≠ '\n')
      (noSubstitution : delimiter = .backtick → char = '$' → next ≠ some '\x7b') :
      WrittenAs delimiter char next [char]

theorem writtenAs_escapeChar {delimiter : Delimiter} (ofLiteral : delimiter.IsOfLiteral)
    (char : Char) (next : Option Char) :
    delimiter.WrittenAs char next (delimiter.escapeChar char next) := by
  have ofQuote {mark : Char} (isQuote : mark = '"' ∨ mark = '\'') :
      (quote mark).WrittenAs char next ((quote mark).escapeChar char next) := by
    unfold escapeChar
    dsimp only
    split
    · next isEscape =>
      subst isEscape
      exact .escaped (by decide) (fun _ _ => rfl)
    · next noEscape =>
      split
      · next isLineFeed =>
        subst isLineFeed
        exact .escaped (by decide) (fun _ _ => rfl)
      · next noLineFeed =>
        split
        · next isMark =>
          subst isMark
          rcases isQuote with rfl | rfl
          · exact .escaped (by decide) (fun inTemplate _ => by cases inTemplate <;> rfl)
          · exact .escaped (by decide) (fun inTemplate _ => by cases inTemplate <;> rfl)
        · next noMark =>
          exact .plain noEscape noMark (fun _ => noLineFeed) (fun same => by simp at same)
  rcases ofLiteral with rfl | rfl | rfl
  · exact ofQuote (Or.inl rfl)
  · exact ofQuote (Or.inr rfl)
  · unfold escapeChar
    dsimp only
    split
    · next isEscape =>
      subst isEscape
      exact .escaped (by decide) (fun _ _ => rfl)
    · next noEscape =>
      split
      · next isBacktick =>
        subst isBacktick
        exact .escaped (by decide) (fun _ _ => rfl)
      · next noBacktick =>
        split
        · next starts =>
          rcases starts with ⟨rfl, _⟩
          exact .escaped (by decide) (fun _ _ => rfl)
        · next startsNone =>
          exact .plain noEscape noBacktick (fun noTemplate => absurd rfl noTemplate)
            (fun _ isDollar isBrace => startsNone ⟨isDollar, isBrace⟩)

/-! ### Strings -/

section Strings

variable {mark char : Char}

theorem stringBody?_plain (noEscape : char ≠ '\\') (noMark : char ≠ mark) (rest : List Char) :
    stringBody? mark (char :: rest) =
      if char = '\n' ∨ char = '\r' then none
      else (stringBody? mark rest).map (fun found => (char :: found.1, found.2)) := by
  rw [stringBody?, if_neg noMark]
  · exact fun _ isEscape => absurd isEscape noEscape
  · exact fun _ _ isEscape => absurd isEscape noEscape

/-- A written character is passed over when the end of a string is looked for. -/
theorem stringBody?_escapeChar (isQuote : mark = '"' ∨ mark = '\'') (noReturn : char ≠ '\r')
    (next : Option Char) (rest : List Char) :
    stringBody? mark ((quote mark).escapeChar char next ++ rest) =
      (stringBody? mark rest).map (fun found =>
        ((quote mark).escapeChar char next ++ found.1, found.2)) := by
  have written := writtenAs_escapeChar (isOfLiteral_quote isQuote) char next
  generalize (quote mark).escapeChar char next = text at written ⊢
  cases written with
  | @escaped letter letterNoReturn _ =>
      rw [List.cons_append, List.singleton_append, stringBody?]
      · rfl
      · exact fun _ isReturn => absurd isReturn letterNoReturn
  | plain noEscape noDelimiter noLineFeed _ =>
      have noMark : char ≠ mark := noDelimiter
      have noLineEnd : ¬(char = '\n' ∨ char = '\r') := by
        rintro (isLineFeed | isReturn)
        · exact noLineFeed (by simp) isLineFeed
        · exact noReturn isReturn
      rw [List.singleton_append, stringBody?_plain noEscape noMark, if_neg noLineEnd]
      rfl

/-- A string is closed behind a written text, unless the text has a carriage return. -/
theorem stringBody?_escape_append (isQuote : mark = '"' ∨ mark = '\'') {text : List Char}
    (noReturn : '\r' ∉ text) (rest : List Char) :
    stringBody? mark ((quote mark).escape text ++ mark :: rest) =
      some ((quote mark).escape text, rest) := by
  induction text with
  | nil =>
      rw [escape, List.nil_append, stringBody?, if_pos rfl]
      · rintro _ rfl
        simp at isQuote
      · rintro _ _ rfl
        simp at isQuote
  | cons char more ih =>
      rw [List.mem_cons, not_or] at noReturn
      rw [escape, List.append_assoc, stringBody?_escapeChar isQuote (Ne.symm noReturn.1),
        ih noReturn.2]
      rfl

/-- A carriage return is no part of a string. -/
theorem stringBody?_escape_append_eq_none (isQuote : mark = '"' ∨ mark = '\'') {text : List Char}
    (hasReturn : '\r' ∈ text) (rest : List Char) :
    stringBody? mark ((quote mark).escape text ++ rest) = none := by
  induction text with
  | nil => exact absurd hasReturn List.not_mem_nil
  | cons char more ih =>
      rw [escape, List.append_assoc]
      by_cases isReturn : char = '\r'
      · subst isReturn
        have noMark : '\r' ≠ mark := by rcases isQuote with rfl | rfl <;> decide
        have written : (quote mark).escapeChar '\r' more.head? = ['\r'] := by
          simp [escapeChar, noMark]
        rw [written, List.singleton_append, stringBody?_plain (by decide) noMark]
        rfl
      · have behind := (List.mem_cons.mp hasReturn).resolve_left (Ne.symm isReturn)
        rw [stringBody?_escapeChar isQuote isReturn, ih behind, Option.map_none]

end Strings

/-! ### Templates -/

theorem chunkBody?_escapeChar {char : Char} {next : Option Char} {rest : List Char}
    (follows : rest.head? = some '\x7b' → next = some '\x7b') :
    chunkBody? (backtick.escapeChar char next ++ rest) =
      (chunkBody? rest).map (fun found => (backtick.escapeChar char next ++ found.1, found.2)) := by
  have written := writtenAs_escapeChar (Or.inr (Or.inr rfl)) char next
  generalize backtick.escapeChar char next = text at written ⊢
  cases written with
  | escaped _ _ => rfl
  | plain noEscape noBacktick _ noSubstitution =>
      rw [List.singleton_append, chunkBody?]
      · rfl
      · exact noBacktick
      · rintro behind isDollar rfl
        exact noSubstitution rfl isDollar (follows rfl)
      · exact fun _ _ isEscape => absurd isEscape noEscape

/-- What a written text starts with is what the text starts with, unless it is a backslash. -/
theorem head?_of_head?_escape {text rest : List Char} {char : Char} (noEscape : char ≠ '\\')
    (noStart : rest.head? ≠ some char)
    (starts : (backtick.escape text ++ rest).head? = some char) : text.head? = some char := by
  cases text with
  | nil => exact absurd starts noStart
  | cons first more =>
      rw [escape, List.append_assoc] at starts
      generalize backtick.escape more ++ rest = behind at starts
      have written := writtenAs_escapeChar (Or.inr (Or.inr rfl)) first more.head?
      cases escaped : backtick.escapeChar first more.head? with
      | nil =>
          rw [escaped] at written
          cases written
      | cons letter others =>
          rw [escaped] at starts written
          cases written with
          | escaped _ _ => exact absurd (Option.some.inj starts).symm noEscape
          | plain _ _ _ _ => exact starts

theorem chunkBody?_escape_append {rest : List Char} (noBrace : rest.head? ≠ some '\x7b')
    (text : List Char) : chunkBody? (backtick.escape text ++ rest) =
      (chunkBody? rest).map (fun found => (backtick.escape text ++ found.1, found.2)) := by
  induction text with
  | nil =>
      rw [escape, List.nil_append]
      cases chunkBody? rest <;> rfl
  | cons char more ih =>
      rw [escape, List.append_assoc,
        chunkBody?_escapeChar (head?_of_head?_escape (by decide) noBrace), ih, Option.map_map]
      simp only [Function.comp_def, List.append_assoc]

/-- A part of a template ends behind a written text. -/
theorem chunkBody?_escape_append_chars (text : List Char) (stop : ChunkEnd) (rest : List Char) :
    chunkBody? (backtick.escape text ++ (stop.chars ++ rest)) =
      some (backtick.escape text, stop, rest) := by
  rw [chunkBody?_escape_append (by cases stop <;> simp [ChunkEnd.chars])]
  cases stop <;> simp [ChunkEnd.chars, chunkBody?]

/-! ### Values -/

/-- Contents that are read as a text, given as many steps as they have characters. -/
def Spells (inTemplate : Bool) (body text : List Char) : Prop :=
  ∀ fuel, body.length ≤ fuel → pieces? inTemplate fuel body = some (text.map .char)

theorem spells_nil (inTemplate : Bool) : Spells inTemplate [] [] := by
  intro fuel _
  cases fuel <;> rfl

theorem Spells.cons {inTemplate : Bool} {body text : List Char} {delimiter : Delimiter}
    (ofLiteral : delimiter.IsOfLiteral) (char : Char) (next : Option Char)
    (spells : Spells inTemplate body text) :
    Spells inTemplate (delimiter.escapeChar char next ++ body) (char :: text) := by
  intro fuel enough
  have written := writtenAs_escapeChar ofLiteral char next
  generalize delimiter.escapeChar char next = front at written enough ⊢
  cases written with
  | escaped _ read =>
      rw [List.cons_append, List.singleton_append, List.length_cons, List.length_cons] at enough
      cases fuel with
      | zero => omega
      | succ fuel =>
          rw [List.cons_append, List.singleton_append, pieces?, if_pos rfl, read]
          dsimp only
          rw [spells fuel (by omega)]
          rfl
  | plain noEscape _ _ _ =>
      rw [List.singleton_append, List.length_cons] at enough
      cases fuel with
      | zero => omega
      | succ fuel =>
          rw [List.singleton_append, pieces?_cons noEscape, spells fuel (by omega)]
          rfl

theorem textOf_map_char (text : List Char) : textOf (text.map .char) = text := by
  simp [textOf, List.flatMap_map]

theorem Spells.stringText? {body text : List Char} (spells : Spells false body text) :
    Script.stringText? body = some text := by
  rw [Script.stringText?, spells body.length (Nat.le_refl _), Option.map_some, textOf_map_char]

theorem Spells.chunkText? {body text : List Char} (spells : Spells true (unifyLineEnds body) text) :
    Script.chunkText? body = some text := by
  simp only [Script.chunkText?]
  rw [spells _ (Nat.le_refl _), Option.map_some, textOf_map_char]

theorem spells_escape {delimiter : Delimiter} (ofLiteral : delimiter.IsOfLiteral)
    (inTemplate : Bool) (text : List Char) : Spells inTemplate (delimiter.escape text) text := by
  induction text with
  | nil => exact spells_nil inTemplate
  | cons char more ih => exact ih.cons ofLiteral char more.head?

theorem unifyLineEnds_escapeChar {char : Char} (noReturn : char ≠ '\r') (next : Option Char)
    (rest : List Char) : unifyLineEnds (backtick.escapeChar char next ++ rest) =
      backtick.escapeChar char next ++ unifyLineEnds rest := by
  have written := writtenAs_escapeChar (Or.inr (Or.inr rfl)) char next
  generalize backtick.escapeChar char next = front at written ⊢
  cases written with
  | escaped letterNoReturn _ =>
      rw [List.cons_append, List.singleton_append, unifyLineEnds_cons (by decide),
        unifyLineEnds_cons letterNoReturn]
      rfl
  | plain _ _ _ _ =>
      rw [List.singleton_append, unifyLineEnds_cons noReturn]
      rfl

/-- What a template makes of a text in it is what it makes of line ends. -/
theorem spells_unifyLineEnds_escape (text : List Char) :
    Spells true (unifyLineEnds (backtick.escape text)) (unifyLineEnds text) := by
  fun_induction unifyLineEnds text with
  | case1 => exact spells_nil true
  | case2 rest ih => exact ih.cons (Or.inr (Or.inr rfl)) '\n' none
  | case3 rest noLineFeed ih =>
      -- What is written behind the carriage return is no line feed, as the text has none there.
      have notBefore (behind : List Char) : backtick.escape rest ≠ '\n' :: behind := by
        intro starts
        have head : rest.head? = some '\n' := by
          refine @head?_of_head?_escape rest [] '\n' (by decide) (by simp) ?_
          rw [List.append_nil, starts, List.head?_cons]
        rcases List.head?_eq_some_iff.mp head with ⟨more, split⟩
        exact noLineFeed more split
      have escaped : unifyLineEnds (backtick.escape ('\r' :: rest)) =
          '\n' :: unifyLineEnds (backtick.escape rest) := by
        have written : backtick.escapeChar '\r' rest.head? = ['\r'] := rfl
        rw [escape, written, List.singleton_append, unifyLineEnds]
        exact notBefore
      rw [escaped]
      exact ih.cons (Or.inr (Or.inr rfl)) '\n' none
  | case4 char rest _ noReturn ih =>
      rw [escape, unifyLineEnds_escapeChar noReturn]
      exact ih.cons (Or.inr (Or.inr rfl)) char rest.head?

theorem return_not_mem_unifyLineEnds (text : List Char) : '\r' ∉ unifyLineEnds text := by
  fun_induction unifyLineEnds text with
  | case1 => exact List.not_mem_nil
  | case2 rest ih => exact List.not_mem_cons_of_ne_of_not_mem (by decide) ih
  | case3 rest _ ih => exact List.not_mem_cons_of_ne_of_not_mem (by decide) ih
  | case4 char rest _ noReturn ih =>
      exact List.not_mem_cons_of_ne_of_not_mem (Ne.symm noReturn) ih

theorem unifyLineEnds_of_return_not_mem {text : List Char} (noReturn : '\r' ∉ text) :
    unifyLineEnds text = text := by
  induction text with
  | nil => rfl
  | cons char more ih =>
      rw [List.mem_cons, not_or] at noReturn
      rw [unifyLineEnds_cons (Ne.symm noReturn.1), ih noReturn.2]

theorem stringText?_escape {mark : Char} (isQuote : mark = '"' ∨ mark = '\'') (text : List Char) :
    stringText? ((quote mark).escape text) = some text :=
  (spells_escape (isOfLiteral_quote isQuote) false text).stringText?

theorem chunkText?_escape (text : List Char) :
    chunkText? (backtick.escape text) = some (unifyLineEnds text) :=
  (spells_unifyLineEnds_escape text).chunkText?

/-- An escaped text is read back between its delimiters exactly if it has no carriage return. -/
theorem encloses_escape_iff {delimiter : Delimiter} (ofLiteral : delimiter.IsOfLiteral)
    (text : List Char) :
    delimiter.Encloses (delimiter.escape text) text ↔ '\r' ∉ text := by
  have ofQuote {mark : Char} (isQuote : mark = '"' ∨ mark = '\'') :
      (quote mark).Encloses ((quote mark).escape text) text ↔ '\r' ∉ text := by
    constructor
    · rintro ⟨closed, _⟩ hasReturn
      have unclosed := stringBody?_escape_append_eq_none isQuote hasReturn [mark]
      rw [closed []] at unclosed
      exact Option.some_ne_none _ unclosed
    · intro noReturn
      exact ⟨stringBody?_escape_append isQuote noReturn, stringText?_escape isQuote text⟩
  rcases ofLiteral with rfl | rfl | rfl
  · exact ofQuote (Or.inl rfl)
  · exact ofQuote (Or.inr rfl)
  · constructor
    · rintro ⟨_, value⟩
      rw [chunkText?_escape] at value
      rw [← Option.some.inj value]
      exact return_not_mem_unifyLineEnds text
    · intro noReturn
      have value := chunkText?_escape text
      rw [unifyLineEnds_of_return_not_mem noReturn] at value
      exact ⟨chunkBody?_escape_append_chars text, value⟩

/-- A backtick, a substitution and a backslash at the end are read back in a template. -/
theorem encloses_escape_iff_of_template_marks :
    backtick.IsOfLiteral ∧
      backtick.Encloses ['\\', '\x60', '\\', '$', '\x7b', '$', '\\', '\\']
        ['\x60', '$', '\x7b', '$', '\\'] :=
  ⟨Or.inr (Or.inr rfl),
    (encloses_escape_iff (Or.inr (Or.inr rfl)) ['\x60', '$', '\x7b', '$', '\\']).mpr (by decide)⟩

/-- A carriage return leaves a string open, and a template makes it a line feed. -/
theorem not_encloses_escape_return :
    ¬(quote '"').Encloses ((quote '"').escape ['x', '\r', 'y']) ['x', '\r', 'y'] ∧
      ¬backtick.Encloses (backtick.escape ['x', '\r', 'y']) ['x', '\r', 'y'] := by
  constructor
  · rintro ⟨closed, _⟩
    have unclosed : stringBody? '"' ['x', '\r', 'y', '"'] = none := by decide
    exact absurd ((closed []).symm.trans unclosed) (by simp)
  · rintro ⟨_, value⟩
    have changed : chunkText? ['x', '\r', 'y'] = some ['x', '\n', 'y'] := by decide
    exact absurd (value.symm.trans changed) (by decide)

end Delimiter

end ImportAlias
