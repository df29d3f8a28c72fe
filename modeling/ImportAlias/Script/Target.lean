import ImportAlias.Script.Node

/-!
# Targets of assignments

An expression on the left of an assignment has to be a name, a member, or an object or array literal
that reads as a pattern. In such a literal a name may have a default; the places of these defaults
are given back, since anywhere else they are errors.
-/

namespace ImportAlias

namespace Script

namespace Node

/-- The node is a name or a member, perhaps in parentheses or with a type. -/
def isSimpleTarget : Node → Bool
  | name _ _ | member _ _ _ => true
  | other .index _ _ | other .privateMember _ _ => true
  | parentheses _ inner => isSimpleTarget inner
  | other .typed _ (inner :: _) => isSimpleTarget inner
  | _ => false

/-- What takes the rest of an object is a name or a member, not a pattern of its own. -/
def hasSimpleRest (parts : List Node) : Bool :=
  parts.all (fun part =>
    match part with
    | spread _ inner => inner.isSimpleTarget
    | _ => true)

mutual

/-- The places of the defaults in a target, if the node can be one. -/
def targetDefaults? : Node → Option (List Nat)
  | other .array _ parts => itemsDefaults? parts
  | other .object _ parts => if hasSimpleRest parts then itemsDefaults? parts else none
  | node => if node.isSimpleTarget then some [] else none

/-- The places of the defaults in the items of a pattern, if all of them can be targets. Only the
last one may take what is left over. -/
def itemsDefaults? : List Node → Option (List Nat)
  | [] => some []
  | [spread _ inner] => targetDefaults? inner
  | node :: rest =>
    match itemDefaults? node, itemsDefaults? rest with
    | some first, some more => some (first ++ more)
    | _, _ => none

/-- The places of the defaults in one item of a pattern, if it can be a target. -/
def itemDefaults? : Node → Option (List Nat)
  | other .hole _ _ => some []
  | other .assignment _ (target :: _) => targetDefaults? target
  | other .property _ parts => lastDefaults? parts
  | other .shorthand _ _ => some []
  | other .shorthandDefault span _ => some [span.start]
  | other .array _ parts => itemsDefaults? parts
  | other .object _ parts => if hasSimpleRest parts then itemsDefaults? parts else none
  | node => if node.isSimpleTarget then some [] else none

/-- The places of the defaults in the last node, which is the value of a property. -/
def lastDefaults? : List Node → Option (List Nat)
  | [] => none
  | [node] => itemDefaults? node
  | _ :: rest => lastDefaults? rest

end

end Node

end Script

end ImportAlias
