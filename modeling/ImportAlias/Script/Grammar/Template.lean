import ImportAlias.Script.Grammar.Name

/-!
# Templates

A template is read part by part; between two parts stands an expression, or a type where a template
is a type. An escape that is not valid is allowed only behind a tag.
-/

namespace ImportAlias

namespace Script

variable {source : List Char}

namespace Parser

/-- Takes the part of a template behind the brace that ends a substitution: how it ends, and whether
its escapes are valid. -/
def nextChunk : Parser source (ChunkEnd × Bool) := do
  require (← atMark "\x7d")
  let lexeme := (← state).lexeme
  match chunkBody? lexeme.next.rest with
  | none => fail
  | some (body, stop, _) =>
    let behind := lexeme.next.drop (body.length + stop.chars.length)
    enter (lexemeBehind (← dialect).isModule false behind) behind.offset
    return (stop, (chunkText? body).isSome)

/-- Takes the substitutions of a template from the first one on. -/
def substitutions (tagged : Bool) (inner : Parser source (Tree source)) :
    Nat → Parser source (List (Tree source))
  | 0 => fail
  | fuel + 1 => do
    let first ← inner
    let (stop, valid) ← nextChunk
    flawIf (!valid && !tagged)
    match stop with
    | .closed => return [first]
    | .substitution => return first :: (← substitutions tagged inner fuel)

/-- Takes a template. -/
def template (tagged : Bool) (inner : Parser source (Tree source)) :
    Parser source (Tree source) := do
  match ← token with
  | .template head stop =>
    flawIf (head.chunk.cooked.isNone && !tagged)
    advance
    match stop with
    | .closed => return .template head (← state).lastStop []
    | .substitution =>
      let parts ← substitutions tagged inner (← context).bound
      return .template head (← state).lastStop parts
  | _ => fail

end Parser

end Script

end ImportAlias
