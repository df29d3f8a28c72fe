import ImportAlias.Path.Basic

/-!
# Relative references

A module specifier that names a file is written relative to the directory of the importing file.
The way from one directory to a target drops their common first steps, climbs out of what is left
of the directory and descends into what is left of the target.
-/

namespace ImportAlias

namespace Path

/-- The way from the directory with the given steps to the target with the given steps. The flag
tells that a step was already written; there is no way past a double dot of the directory. -/
def stepsBetween? (written : Bool) : List Component → List Component → Option (List Component)
  | target, [] => some target
  | [], _ :: base => (stepsBetween? true [] base).map (.parent :: ·)
  | step :: target, baseStep :: base =>
    if !written && step = baseStep then stepsBetween? written target base
    else if baseStep = .current then (stepsBetween? true target base).map (step :: ·)
    else if baseStep = .parent then none
    else some (.parent :: base.map (fun _ => .parent) ++ step :: target)

/-- The way from a directory to a target, both absolute or both relative. -/
def between? (directory target : Path) : Option Path :=
  if target.isAbsolute && !directory.isAbsolute then some target
  else if !target.isAbsolute && directory.isAbsolute then none
  else (stepsBetween? false target.components directory.components).map ofComponents

/-- A specifier that already reads as a reference to a file: a dot entry or a path below one. -/
def isReference (specifier : List Char) : Bool :=
  specifier = ['.'] || specifier = ['.', '.'] || ['.', '/'].isPrefixOf specifier ||
    ['.', '.', '/'].isPrefixOf specifier

/-- The reference that names a target in a file: the way from the directory of the file, always
written so that it reads as a reference. -/
def reference (workingDir file target : Path) : String :=
  let directory := cleanFrom workingDir (file.parent?.getD ⟨""⟩)
  let target := cleanFrom workingDir target
  let relative := ((between? directory target).getD target).chars
  String.ofList (if isReference relative then relative else '.' :: '/' :: relative)

end Path

/-- Slashes are the only separators, so a path in the notation with slashes is the path itself. -/
def slashed (text : String) : String :=
  text

end ImportAlias
