import ImportAlias.Proofs.Specifier.Site
import ImportAlias.Specifier.Replacement

/-!
# Evaluating computed specifiers

An expression whose far left is a string or a template evaluates to a text, and that text begins
with the contents of the literal: each sum on the way has a text on its left, so it appends whatever
its right side comes to. Other contents in the literal put another beginning in front of the same
remainder.
-/

namespace ImportAlias

namespace Script

/-! ### The far left of an expression -/

namespace Node

/-- The operand on the far left of an expression: behind parentheses, and of a sum the one on the
far left of its left side. -/
inductive Leftmost : Node → Node → Prop where
  | self {operand : Node} (noParentheses : ∀ span inner, operand ≠ .parentheses span inner)
      (noSum : ∀ span left right, operand ≠ .sum span left right) : Leftmost operand operand
  | parentheses {span : Span} {inner operand : Node} (inside : Leftmost inner operand) :
      Leftmost (.parentheses span inner) operand
  | sum {span : Span} {left right operand : Node} (first : Leftmost left operand) :
      Leftmost (.sum span left right) operand

/-- The node is a string or a template, with the literal that it begins with. -/
inductive IsLiteral : Node → Literal → Prop where
  | string (literal : StringLiteral) : IsLiteral (.string literal) (.string literal)
  | template (span : Span) (head : Chunk) (substitutions : List Node) :
      IsLiteral (.template span head substitutions) (.template span.start head)

theorem startingLiteral?_of_leftmost {expression operand : Node}
    (leftmost : expression.Leftmost operand) :
    expression.startingLiteral? = operand.startingLiteral? := by
  induction leftmost with
  | self => rfl
  | parentheses inside ih => exact ih
  | sum first ih => exact ih

/-- An expression starts with a literal exactly if the operand on its far left is that literal. -/
theorem startingLiteral?_eq_some_iff {expression : Node} {literal : Literal} :
    expression.startingLiteral? = some literal ↔
      ∃ operand, expression.Leftmost operand ∧ operand.IsLiteral literal := by
  constructor
  · intro starts
    fun_induction startingLiteral? expression with
    | case1 contents =>
        cases starts
        exact ⟨.string contents, .self (by simp) (by simp), .string contents⟩
    | case2 span head substitutions =>
        cases starts
        exact ⟨.template span head substitutions, .self (by simp) (by simp), .template ..⟩
    | case3 span inner ih =>
        rcases ih starts with ⟨operand, inside, isLiteral⟩
        exact ⟨operand, .parentheses inside, isLiteral⟩
    | case4 span left right ih =>
        rcases ih starts with ⟨operand, first, isLiteral⟩
        exact ⟨operand, .sum first, isLiteral⟩
    | case5 => exact absurd starts.symm (Option.some_ne_none literal)
  · rintro ⟨operand, leftmost, isLiteral⟩
    rw [startingLiteral?_of_leftmost leftmost]
    cases isLiteral with
    | string => rfl
    | template => rfl

/-- The expression with other contents in the literal that it starts with, written as they are
between its delimiters. -/
def withStart (text : List Char) : Node → Node
  | string literal => string { literal with value := text }
  | template span _ substitutions =>
    template span ⟨unifyLineEnds (Delimiter.backtick.escape text), some text⟩ substitutions
  | parentheses span inner => parentheses span (withStart text inner)
  | sum span left right => sum span (withStart text left) right
  | node => node

end Node

/-! ### Evaluation -/

/-- What an expression evaluates to: a text, or a value of another kind. -/
inductive Value (Other : Type) where
  | text (chars : List Char)
  | other (value : Other)

/-- What an evaluation is given: the values of the expressions that are no literals, sums or
parentheses, the texts inside templates that a tree does not keep, and how values of other kinds
behave. Whatever is missing makes the evaluation fail. -/
structure Valuation (Other : Type) where
  /-- The value of an expression of another form. -/
  value? : Node → Option (Value Other)
  /-- The text of a template behind a substitution, up to the next one or to the end. -/
  chunk? : Span → Nat → Option (List Char)
  /-- What a value counts as in a sum. -/
  primitive? : Other → Option (Value Other)
  /-- The text that shows a value. -/
  shown? : Other → Option (List Char)
  /-- The sum of two values neither of which is a text. -/
  total? : Other → Other → Option (Value Other)

namespace Valuation

variable {Other : Type} (valuation : Valuation Other)

/-- What a value counts as in a sum; a text is one. -/
def operand? : Value Other → Option (Value Other)
  | .text chars => some (.text chars)
  | .other value => valuation.primitive? value

/-- The text that shows a value; a text shows itself. -/
def shownText? : Value Other → Option (List Char)
  | .text chars => some chars
  | .other value => valuation.shown? value

/-- The sum of what two values count as. As soon as one of these is a text, the texts that show them
are put one after the other. -/
def sum? (left right : Value Other) : Option (Value Other) := do
  let left ← valuation.operand? left
  let right ← valuation.operand? right
  match left, right with
  | .other first, .other second => valuation.total? first second
  | first, second =>
    return .text ((← valuation.shownText? first) ++ (← valuation.shownText? second))

mutual

/-- The value of an expression, if its evaluation completes normally. -/
def evaluate? : Node → Option (Value Other)
  | .string literal => some (.text literal.value)
  | .template span head substitutions => do
    let start ← head.cooked
    let rest ← evaluateBehind? span 0 substitutions
    return .text (start ++ rest)
  | .parentheses _ inner => evaluate? inner
  | .sum _ left right => do
    let left ← evaluate? left
    let right ← evaluate? right
    valuation.sum? left right
  | node => valuation.value? node

/-- The text of a template from a substitution on. -/
def evaluateBehind? (span : Span) : Nat → List Node → Option (List Char)
  | _, [] => some []
  | index, substitution :: rest => do
    let value ← evaluate? substitution
    let shown ← valuation.shownText? value
    let chunk ← valuation.chunk? span index
    let behind ← evaluateBehind? span (index + 1) rest
    return shown ++ chunk ++ behind

end

variable {valuation}

theorem sum?_text_eq_some_iff {start : List Char} {right value : Value Other} :
    valuation.sum? (.text start) right = some value ↔
      ∃ counted shown, valuation.operand? right = some counted ∧
        valuation.shownText? counted = some shown ∧ value = .text (start ++ shown) := by
  simp only [sum?, operand?, bind, pure, Option.bind_eq_some_iff, Option.some.injEq,
    exists_eq_left', shownText?]
  constructor
  · rintro ⟨counted, counts, shown, shows, same⟩
    exact ⟨counted, shown, counts, shows, same.symm⟩
  · rintro ⟨counted, shown, counts, shows, same⟩
    exact ⟨counted, counts, shown, shows, same.symm⟩

theorem evaluate?_template_eq_some_iff {span : Span} {head : Chunk} {substitutions : List Node}
    {value : Value Other} :
    valuation.evaluate? (.template span head substitutions) = some value ↔
      ∃ start rest, head.cooked = some start ∧
        valuation.evaluateBehind? span 0 substitutions = some rest ∧
          value = .text (start ++ rest) := by
  simp only [evaluate?, bind, pure, Option.bind_eq_some_iff, Option.some.injEq]
  constructor
  · rintro ⟨start, cooked, rest, behind, same⟩
    exact ⟨start, rest, cooked, behind, same.symm⟩
  · rintro ⟨start, rest, cooked, behind, same⟩
    exact ⟨start, cooked, rest, behind, same.symm⟩

theorem evaluate?_sum_eq_some_iff {span : Span} {left right : Node} {value : Value Other} :
    valuation.evaluate? (.sum span left right) = some value ↔
      ∃ first second, valuation.evaluate? left = some first ∧
        valuation.evaluate? right = some second ∧ valuation.sum? first second = some value := by
  simp only [evaluate?, bind, Option.bind_eq_some_iff]
  constructor
  · rintro ⟨first, leftValue, second, rightValue, total⟩
    exact ⟨first, second, leftValue, rightValue, total⟩
  · rintro ⟨first, second, leftValue, rightValue, total⟩
    exact ⟨first, leftValue, second, rightValue, total⟩

/-- Every sum on the way to the literal appends to a text, so the contents of the literal stay at
the start, and what is behind them does not depend on them. -/
theorem exists_remainder_of_startingLiteral? {expression : Node} {literal : Literal}
    {value : Value Other} (starts : expression.startingLiteral? = some literal)
    (completes : valuation.evaluate? expression = some value) (kind : SiteKind) :
    ∃ remainder, value = .text ((literal.site kind).value.toList ++ remainder) ∧
      ∀ text, valuation.evaluate? (expression.withStart text) =
        some (.text (text ++ remainder)) := by
  fun_induction Node.startingLiteral? expression generalizing value with
  | case1 contents =>
      cases starts
      cases completes
      refine ⟨[], ?_, ?_⟩
      · simp [Literal.site]
      · intro text
        simp [Node.withStart, evaluate?]
  | case2 span head substitutions =>
      cases starts
      rcases evaluate?_template_eq_some_iff.mp completes with ⟨start, rest, cooked, behind, rfl⟩
      refine ⟨rest, ?_, ?_⟩
      · simp [Literal.site, cooked]
      · intro text
        exact evaluate?_template_eq_some_iff.mpr ⟨text, rest, rfl, behind, rfl⟩
  | case3 span inner ih => exact ih starts completes
  | case4 span left right ih =>
      rcases evaluate?_sum_eq_some_iff.mp completes with
        ⟨first, second, leftValue, rightValue, total⟩
      rcases ih starts leftValue with ⟨remainder, rfl, replaced⟩
      rcases sum?_text_eq_some_iff.mp total with ⟨counted, shown, counts, shows, rfl⟩
      refine ⟨remainder ++ shown, ?_, ?_⟩
      · rw [List.append_assoc]
      · intro text
        apply evaluate?_sum_eq_some_iff.mpr
        refine ⟨_, second, replaced text, rightValue, ?_⟩
        rw [← List.append_assoc]
        exact sum?_text_eq_some_iff.mpr ⟨counted, shown, counts, shows, rfl⟩
  | case5 => exact absurd starts.symm (Option.some_ne_none literal)

end Valuation

namespace Node

/-- An expression starts with a literal exactly if a string or a template stands on its far left.
Then its value is a text that begins with the value of the site, and other contents in the literal
are followed by the same remainder. -/
theorem startingLiteral?_leads_value {Other : Type} (valuation : Valuation Other)
    (expression : Node) :
    (∀ literal, expression.startingLiteral? = some literal ↔
      ∃ operand, expression.Leftmost operand ∧ operand.IsLiteral literal) ∧
    ∀ literal, expression.startingLiteral? = some literal →
      ∀ value, valuation.evaluate? expression = some value → ∀ kind,
        ∃ remainder, value = .text ((literal.site kind).value.toList ++ remainder) ∧
          ∀ text, valuation.evaluate? (expression.withStart text) =
            some (.text (text ++ remainder)) := by
  refine ⟨fun literal => startingLiteral?_eq_some_iff, ?_⟩
  intro literal starts value completes kind
  exact Valuation.exists_remainder_of_startingLiteral? starts completes kind

/-- A sum of a text and a name behind parentheses, and a template behind it. -/
def computedSpecifier : Node :=
  .sum ⟨8, 37⟩
    (.parentheses ⟨8, 25⟩
      (.sum ⟨9, 24⟩ (.string ⟨⟨9, 17⟩, '"', "utils/".toList⟩) (.name ⟨20, 24⟩ "name")))
    (.template ⟨28, 37⟩ ⟨['.'], some ['.']⟩ [.name ⟨32, 35⟩ "part"])

/-- The name stands for a text and the part for a number. -/
def computedValuation : Valuation Nat where
  value?
    | .name _ "name" => some (.text "list".toList)
    | .name _ "part" => some (.other 5)
    | _ => none
  chunk? _ _ := some []
  primitive? value := some (.other value)
  shown? value := some (Nat.toDigits 10 value)
  total? first second := some (.other (first + second))

theorem startingLiteral?_leads_value_of_computed :
    computedSpecifier.startingLiteral? = some (.string ⟨⟨9, 17⟩, '"', "utils/".toList⟩) ∧
      computedValuation.evaluate? computedSpecifier = some (.text "utils/list.5".toList) ∧
      ∃ remainder,
        (Value.text "utils/list.5".toList : Value Nat) = .text ("utils/".toList ++ remainder) ∧
          ∀ text, computedValuation.evaluate? (computedSpecifier.withStart text) =
            some (.text (text ++ remainder)) := by
  have starts : computedSpecifier.startingLiteral? =
      some (.string ⟨⟨9, 17⟩, '"', "utils/".toList⟩) := rfl
  have completes : computedValuation.evaluate? computedSpecifier =
      some (.text "utils/list.5".toList) := by
    rfl
  have results := startingLiteral?_leads_value computedValuation computedSpecifier
  exact ⟨starts, completes, results.2 _ starts _ completes .require⟩

end Node

end Script

end ImportAlias
