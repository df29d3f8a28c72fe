import ImportAlias.Proofs.Config.Probe
import ImportAlias.Proofs.Path.Ancestors
import ImportAlias.Proofs.Path.Extension

/-!
# The two readings of extensions

The list of extensions is read twice. Behind a candidate for a target, an extension counts as it is
written; at the end of a file, the part behind the last dot is compared with the extensions without the
dots at their start. The two readings agree on extensions that are a dot and one part. A file found by
an extension of more parts is a source file only if its last part is listed as well, and an extension
without its dot names the same source files as with it, but other files behind a candidate.
-/

namespace ImportAlias

open ImportAlias.Path

/-- The extension is a dot and one part behind it. -/
def IsPlainExtension (extension : String) : Prop :=
  ∃ part, extension.toList = '.' :: part ∧ '.' ∉ part ∧ '/' ∉ part

/-! ### At the end of a file -/

namespace Config

variable {config other : Config} {candidate : Path} {extension : String}

/-- The part is one of the extensions without the dots at their start. -/
def HasPart (config : Config) (part : List Char) : Prop :=
  ∃ configured ∈ config.extensions, bareExtension configured = part

theorem isSourceFile_iff {path : Path} :
    config.isSourceFile path ↔ ∃ part, path.extension? = some part ∧ config.HasPart part := by
  unfold isSourceFile HasPart
  cases path.extension? with
  | none => simp
  | some part =>
      simp only [List.any_eq_true, decide_eq_true_eq, Option.some.injEq, exists_eq_left']

/-- Behind a candidate that ends in a name, the last part of the extension counts. -/
theorem isSourceFile_append_iff (ends : candidate.EndsInName)
    (dotted : extension.toList.head? = some '.') (noSlash : '/' ∉ extension.toList) :
    config.isSourceFile ⟨candidate.text ++ extension⟩ ↔
      config.HasPart (lastPart extension.toList) := by
  rcases exists_segments_eq_append candidate with ⟨front, last, cut, endsIff⟩
  simp [isSourceFile_iff, extension?_append (endsIff.mp ends) cut dotted noSlash]

theorem bareExtension_eq_lastPart_iff :
    bareExtension extension = lastPart extension.toList ↔ '.' ∉ bareExtension extension :=
  dropWhile_dot_eq_lastPart_iff

theorem bareExtension_of_plain {part : List Char} (starts : extension.toList = '.' :: part)
    (noDot : '.' ∉ part) : bareExtension extension = part := by
  rw [bareExtension, starts, List.dropWhile_cons_of_pos (by simp)]
  cases part with
  | nil => rfl
  | cons char rest =>
      have notDot : char ≠ '.' := fun dot => noDot (dot ▸ List.mem_cons_self)
      rw [List.dropWhile_cons_of_neg (by simpa using notDot)]

/-- Two lists name the same source files exactly if they have the same parts, however many dots are
written in front of them. -/
theorem isSourceFile_eq_iff :
    (∀ path, config.isSourceFile path = other.isSourceFile path) ↔
      ∀ part, '.' ∉ part → '/' ∉ part → (config.HasPart part ↔ other.HasPart part) := by
  constructor
  · intro same part noDot noSlash
    have ends : Path.EndsInName ⟨"x"⟩ := by decide
    have dotted : (String.ofList ('.' :: part)).toList.head? = some '.' := by simp
    have plain : '/' ∉ (String.ofList ('.' :: part)).toList := by simpa using noSlash
    have last : lastPart (String.ofList ('.' :: part)).toList = part := by
      rw [String.toList_ofList, lastPart_dot_cons, lastPart_of_not_mem noDot]
    have inConfig : config.isSourceFile _ ↔ _ := isSourceFile_append_iff ends dotted plain
    have inOther : other.isSourceFile _ ↔ _ := isSourceFile_append_iff ends dotted plain
    rw [last] at inConfig inOther
    rw [← inConfig, ← inOther, same]
  · intro same path
    rw [Bool.eq_iff_iff, isSourceFile_iff, isSourceFile_iff]
    apply exists_congr
    intro part
    apply and_congr_right
    intro found
    exact same part (not_mem_of_extension? found).1 (not_mem_of_extension? found).2

end Config

/-! ### Behind a candidate -/

namespace Tree

variable {tree : Tree} {path : Path} {names pieces : List (List Char)}

theorem isAbsolute_of_isFile (isFile : tree.disk.isFile path) : path.isAbsolute := by
  by_contra relative
  simp [Disk.isFile, disk, find?, locate?, relative] at isFile

/-- In a tree with one file, a clean path leads somewhere along the way to the file only. -/
theorem find?_branch (isName : ∀ piece ∈ pieces, IsName piece) (nonempty : pieces ≠ []) :
    (branch names).find? true (ofNames pieces) =
      if pieces <+: names then some (branch (names.drop pieces.length)) else none := by
  have idle : isIdleSegment [] := by decide
  have start : (branch names).at? [] = some (branch names) := rfl
  have walked : (walkLinks (branch names) true linkLimit [] pieces).bind (branch names).at? = _ :=
    walkLinks_branch isName start
  rw [find?_of_isAbsolute (isAbsolute_ofNames pieces), segments_ofNames nonempty isName,
    walkLinks_idle_cons idle, ← walked]
  cases names with
  | nil =>
      rcases List.exists_cons_of_ne_nil nonempty with ⟨first, rest, rfl⟩
      have noDirectory : directoryAt? (branch []) [] = none := rfl
      rw [noDirectory, walkLinks_cons_eq_none noDirectory, Option.bind_none]
  | cons name rest => rfl

theorem pathExists_branch_iff (isName : ∀ piece ∈ pieces, IsName piece) (nonempty : pieces ≠ []) :
    (branch names).disk.pathExists (ofNames pieces) ↔ pieces <+: names := by
  simp only [Disk.pathExists, disk, find?_branch isName nonempty]
  split
  · next along => simp [along]
  · next away => simp [away]

theorem isFile_branch_iff (isName : ∀ piece ∈ pieces, IsName piece) (nonempty : pieces ≠ []) :
    (branch names).disk.isFile (ofNames pieces) ↔ pieces = names := by
  simp only [Disk.isFile, disk, find?_branch isName nonempty]
  split
  · next along =>
    rcases along with ⟨rest, rfl⟩
    cases rest <;> simp [branch, kind]
  · next away =>
    have apart : pieces ≠ names := by
      rintro rfl
      exact away List.prefix_rfl
    simp [apart]

end Tree

namespace Options

open ImportAlias.Config

section Found

variable {tree : Tree} {candidate : Path} {config : Config} {extension : String}

/-- Behind a candidate that is not there itself, something is found only if it ends in its name. -/
theorem endsInName_of_isFile_append (named : candidate.fileName?.isSome)
    (missing : tree.disk.pathExists candidate = false)
    (isFile : tree.disk.isFile ⟨candidate.text ++ extension⟩) : candidate.EndsInName := by
  rcases Option.isSome_iff_exists.mp named with ⟨name, hasName⟩
  rcases exists_segments_eq_append candidate with ⟨front, last, cut, endsIff⟩
  cases idle : isIdleSegment last with
  | false => exact endsIff.mpr (isName_of_fileName? hasName idle cut)
  | true =>
      have absolute := isAbsolute_of_append named (Tree.isAbsolute_of_isFile isFile)
      have accepted : candidateExists tree.disk [extension] candidate := by
        simp [candidateExists, isFile]
      have isDirectory := isDirectory_of_candidateExists absolute cut idle accepted
      have found : tree.disk.target? candidate = some .directory := of_decide_eq_true isDirectory
      simp [Disk.pathExists, found] at missing

/-- A file that is found by an extension of a list with its dot is a source file exactly if the last
part of the extension is listed. -/
theorem isSourceFile_iff_of_isFile (named : candidate.fileName?.isSome)
    (missing : tree.disk.pathExists candidate = false)
    (dotted : extension.toList.head? = some '.') (noSlash : '/' ∉ extension.toList)
    (isFile : tree.disk.isFile ⟨candidate.text ++ extension⟩) :
    config.isSourceFile ⟨candidate.text ++ extension⟩ ↔ config.HasPart (lastPart extension.toList) :=
  isSourceFile_append_iff (endsInName_of_isFile_append named missing isFile) dotted noSlash

/-- With plain extensions only, a candidate is accepted for a source file behind it. -/
theorem candidateExists_iff_of_plain (named : candidate.fileName?.isSome)
    (plain : ∀ extension ∈ config.extensions, IsPlainExtension extension) :
    candidateExists tree.disk config.extensions candidate ↔
      tree.disk.pathExists candidate ∨ ∃ extension, IsPlainExtension extension ∧
        tree.disk.isFile ⟨candidate.text ++ extension⟩ ∧
        config.isSourceFile ⟨candidate.text ++ extension⟩ := by
  simp only [candidateExists, Bool.or_eq_true, List.any_eq_true]
  cases missing : tree.disk.pathExists candidate with
  | true => simp
  | false =>
      simp only [Bool.false_eq_true, false_or]
      have readAlike {extension : String} {part : List Char}
          (starts : extension.toList = '.' :: part) (noDot : '.' ∉ part) (noSlash : '/' ∉ part)
          (isFile : tree.disk.isFile ⟨candidate.text ++ extension⟩) :
          config.isSourceFile ⟨candidate.text ++ extension⟩ ↔ config.HasPart part := by
        have dotted : extension.toList.head? = some '.' := by simp [starts]
        have slashFree : '/' ∉ extension.toList := by simp [starts, noSlash]
        rw [isSourceFile_iff_of_isFile named missing dotted slashFree isFile, starts,
          lastPart_dot_cons, lastPart_of_not_mem noDot]
      constructor
      · rintro ⟨extension, member, isFile⟩
        rcases plain extension member with ⟨part, starts, noDot, noSlash⟩
        refine ⟨extension, ⟨part, starts, noDot, noSlash⟩, isFile, ?_⟩
        exact (readAlike starts noDot noSlash isFile).mpr
          ⟨extension, member, bareExtension_of_plain starts noDot⟩
      · rintro ⟨extension, ⟨part, starts, noDot, noSlash⟩, isFile, isSource⟩
        rcases (readAlike starts noDot noSlash isFile).mp isSource with ⟨configured, member, same⟩
        rcases plain configured member with ⟨own, ownStarts, ownNoDot, _⟩
        rw [bareExtension_of_plain ownStarts ownNoDot] at same
        have equal : configured = extension := by
          rw [← String.toList_inj, ownStarts, starts, same]
        exact ⟨configured, member, equal ▸ isFile⟩

end Found

/-! ### In the choice of a root -/

/-- Two lists have the same extensions as they are written, apart from the empty one. -/
def SameTexts (extensions other : List String) : Prop :=
  ∀ text, text ≠ "" → (text ∈ extensions ↔ text ∈ other)

section Roots

variable {extensions other : List String} {disk : Disk} {candidate : Path}

theorem candidateExists_of_subset (kept : ∀ text ∈ extensions, text ≠ "" → text ∈ other)
    (found : candidateExists disk extensions candidate) : candidateExists disk other candidate := by
  simp only [candidateExists, Bool.or_eq_true, List.any_eq_true] at found ⊢
  rcases found with itself | ⟨text, member, isFile⟩
  · exact Or.inl itself
  · by_cases empty : text = ""
    · left
      have target : disk.target? candidate = some .file := by
        simpa [empty, Disk.isFile] using isFile
      simp [Disk.pathExists, target]
    · exact Or.inr ⟨text, kept text member empty, isFile⟩

theorem SameTexts.candidateExists_eq (same : SameTexts extensions other) (disk : Disk)
    (candidate : Path) :
    candidateExists disk extensions candidate = candidateExists disk other candidate := by
  rw [Bool.eq_iff_iff]
  constructor
  · exact candidateExists_of_subset (fun text member busy => (same text busy).mp member)
  · exact candidateExists_of_subset (fun text member busy => (same text busy).mpr member)

theorem SameTexts.targetOf_eq (same : SameTexts extensions other) (disk : Disk) (cwd : Path)
    (roots : List Path) (value : String) :
    targetOf disk cwd roots extensions value = targetOf disk cwd roots other value := by
  simp only [targetOf, targetBase, same.candidateExists_eq disk]

/-- Text without a slash goes on with the last name of a clean path. -/
theorem ofNames_append_text (front : List (List Char)) (last : List Char) (text : String) :
    (⟨(ofNames (front ++ [last])).text ++ text⟩ : Path) = ofNames (front ++ [last ++ text.toList]) := by
  have joined := joinSegments_append_joinSegments '/' front last text.toList []
  rw [joinSegments_singleton] at joined
  simp only [ofNames, ofChars, Path.mk.injEq, ← String.toList_inj, String.toList_append,
    String.toList_ofList, List.cons_append, joined]

variable {front behind pieces : List (List Char)} {last : List Char}

/-- In a tree with one file, a candidate is accepted on the way to the file or for the file itself. -/
theorem candidateExists_branch_iff (isName : ∀ piece ∈ front ++ [last], IsName piece)
    (noSlash : ∀ text ∈ extensions, '/' ∉ text.toList) :
    candidateExists (Tree.branch pieces).disk extensions (ofNames (front ++ [last])) ↔
      front ++ [last] <+: pieces ∨ ∃ text ∈ extensions, front ++ [last ++ text.toList] = pieces := by
  have nonempty (end' : List Char) : front ++ [end'] ≠ [] := by simp
  have lastName : IsName last := isName last (by simp)
  simp only [candidateExists, Bool.or_eq_true, List.any_eq_true, ofNames_append_text,
    Tree.pathExists_branch_iff isName (nonempty last)]
  apply or_congr_right
  apply exists_congr
  intro text
  apply and_congr_right
  intro member
  apply Tree.isFile_branch_iff _ (nonempty _)
  intro piece inside
  rcases List.mem_append.mp inside with inFront | atEnd
  · exact isName piece (List.mem_append_left _ inFront)
  · rw [List.mem_singleton.mp atEnd]
    exact isName_append lastName (noSlash text member)

/-- The only file is behind a name like the last one of the candidate: then the candidate is accepted
exactly if both are in one directory and the text behind the name is listed. -/
theorem candidateExists_branch_concat_iff (isName : ∀ piece ∈ front ++ [last], IsName piece)
    (noSlash : ∀ text ∈ extensions, '/' ∉ text.toList) {text : String} (busy : text ≠ "")
    (notInside : ¬front ++ [last] <+: behind) :
    candidateExists (Tree.branch (behind ++ [last ++ text.toList])).disk extensions
        (ofNames (front ++ [last])) ↔ front = behind ∧ text ∈ extensions := by
  have notItself : front ++ [last] ≠ behind ++ [last ++ text.toList] := by
    intro same
    have sameLast := List.singleton_inj.mp (List.append_inj_right' same rfl)
    rw [List.self_eq_append_right, String.toList_eq_nil_iff] at sameLast
    exact busy sameLast
  rw [candidateExists_branch_iff isName noSlash, List.prefix_concat_iff, or_assoc,
    or_iff_right notItself, or_iff_right notInside]
  constructor
  · rintro ⟨listed, member, same⟩
    have sameLast := List.singleton_inj.mp (List.append_inj_right' same rfl)
    rw [List.append_cancel_left_eq, String.toList_inj] at sameLast
    exact ⟨List.append_inj_left' same rfl, sameLast ▸ member⟩
  · rintro ⟨rfl, member⟩
    exact ⟨text, member, rfl⟩

variable {first second cwd : Path} {value : String}

/-- The only file is behind the candidate below the second root, and the one below the first root is
not on the way to it: then the second root is chosen exactly if the text behind its candidate is
listed. -/
theorem targetOf_branch (firstNormal : first.IsNormal) (secondNormal : second.IsNormal)
    (plain : ∀ piece ∈ segments '/' value.toList, IsName piece)
    (noPackage : packageName? value = none)
    (apart : ¬(first.cleanFrom ⟨value⟩).IsAbove (second.cleanFrom ⟨value⟩))
    (cut : segments '/' value.toList = front ++ [last])
    (noSlash : ∀ text ∈ extensions, '/' ∉ text.toList) {text : String} (busy : text ≠ "") :
    targetOf (Tree.branch (second.names ++ front ++ [last ++ text.toList])).disk cwd [first, second]
        extensions value =
      .path ((if text ∈ extensions then second else first).cleanFrom ⟨value⟩) := by
  have isName (root : Path) : ∀ piece ∈ root.names ++ front ++ [last], IsName piece := by
    rw [List.append_assoc, ← cut]
    exact isName_of_mem_names_append plain
  have joined {root : Path} (normal : root.IsNormal) :
      root.join ⟨value⟩ = ofNames (root.names ++ front ++ [last]) := by
    rw [normal.join_segments plain, cut, List.append_assoc]
  have notBefore : ¬first.names ++ front ++ [last] <+: second.names ++ front ++ [last] := by
    intro before
    rw [List.append_assoc, List.append_assoc, ← cut, ← firstNormal.names_cleanFrom plain,
      ← secondNormal.names_cleanFrom plain] at before
    exact apart ⟨isNormal_cleanFrom firstNormal.absolute _, before⟩
  have firstMissed : candidateExists
      (Tree.branch (second.names ++ front ++ [last ++ text.toList])).disk extensions
        (first.join ⟨value⟩) = false := by
    have notInside : ¬first.names ++ front ++ [last] <+: second.names ++ front :=
      fun inside => notBefore (inside.trans (List.prefix_append _ _))
    rw [Bool.eq_false_iff, Ne, joined firstNormal,
      candidateExists_branch_concat_iff (isName first) noSlash busy notInside]
    rintro ⟨same, _⟩
    exact notBefore (same ▸ List.prefix_rfl)
  have secondFound : candidateExists
      (Tree.branch (second.names ++ front ++ [last ++ text.toList])).disk extensions
        (second.join ⟨value⟩) = decide (text ∈ extensions) := by
    have notInside : ¬second.names ++ front ++ [last] <+: second.names ++ front := by
      intro inside
      have shorter := inside.length_le
      rw [List.length_append, List.length_singleton] at shorter
      omega
    rw [Bool.eq_iff_iff, decide_eq_true_iff, joined secondNormal,
      candidateExists_branch_concat_iff (isName second) noSlash busy notInside]
    exact and_iff_right rfl
  have relative : Path.isAbsolute ⟨value⟩ = false := isAbsolute_of_segments_isName plain
  simp only [targetOf, noPackage, relative, targetBase, List.find?_cons, firstMissed, secondFound,
    Bool.false_eq_true, if_false]
  by_cases listed : text ∈ extensions <;> simp [listed]

/-- The same choice between two roots in every tree takes the same extensions, as they are written. -/
theorem sameTexts_of_targetOf_eq (firstNormal : first.IsNormal) (secondNormal : second.IsNormal)
    (plain : ∀ piece ∈ segments '/' value.toList, IsName piece)
    (noPackage : packageName? value = none)
    (apart : ¬(first.cleanFrom ⟨value⟩).IsAbove (second.cleanFrom ⟨value⟩))
    (noSlash : ∀ text ∈ extensions ++ other, '/' ∉ text.toList)
    (same : ∀ tree : Tree, targetOf tree.disk cwd [first, second] extensions value =
      targetOf tree.disk cwd [first, second] other value) : SameTexts extensions other := by
  intro text busy
  rcases exists_segments_eq_append ⟨value⟩ with ⟨front, last, cut, _⟩
  have chosen {listed : List String} (slashFree : ∀ text ∈ listed, '/' ∉ text.toList) :=
    @targetOf_branch listed front last first second cwd value firstNormal secondNormal plain noPackage
      apart cut slashFree text busy
  have sameRoot := same (Tree.branch (second.names ++ front ++ [last ++ text.toList]))
  rw [chosen (fun text member => noSlash text (List.mem_append_left _ member)),
    chosen (fun text member => noSlash text (List.mem_append_right _ member)),
    Target.path.injEq] at sameRoot
  have differ : first.cleanFrom ⟨value⟩ ≠ second.cleanFrom ⟨value⟩ := by
    intro equal
    rw [equal] at apart
    exact apart (isNormal_cleanFrom secondNormal.absolute ⟨value⟩).isAbove_self
  by_cases inFirst : text ∈ extensions <;> by_cases inOther : text ∈ other
  · simp [inFirst, inOther]
  · rw [if_pos inFirst, if_neg inOther] at sameRoot
    exact absurd sameRoot.symm differ
  · rw [if_neg inFirst, if_pos inOther] at sameRoot
    exact absurd sameRoot differ
  · simp [inFirst, inOther]

end Roots

/-- A file that an extension with its dot finds behind a candidate is a source file exactly if the last
part of the extension is listed, so it is one if the extension has no other part. With plain extensions
only, a candidate is accepted exactly if it is there or a source file is there with one more extension.
Source files depend on the list through its parts, whatever dots are in front of them. The choice of a
root depends on the extensions as they are written: two lists that choose alike between two roots in
every tree are the same, up to the order and the empty text. -/
theorem reads_extensions (config : Config) :
    (∀ (tree : Tree) (candidate : Path) (extension : String), candidate.fileName?.isSome →
      tree.disk.pathExists candidate = false → extension ∈ config.extensions →
      extension.toList.head? = some '.' → '/' ∉ extension.toList →
      tree.disk.isFile ⟨candidate.text ++ extension⟩ →
      candidateExists tree.disk config.extensions candidate ∧
        (config.isSourceFile ⟨candidate.text ++ extension⟩ ↔
          config.HasPart (lastPart extension.toList)) ∧
        ('.' ∉ bareExtension extension → config.isSourceFile ⟨candidate.text ++ extension⟩)) ∧
    ((∀ extension ∈ config.extensions, IsPlainExtension extension) →
      ∀ (tree : Tree) (candidate : Path), candidate.fileName?.isSome →
        (candidateExists tree.disk config.extensions candidate ↔
          tree.disk.pathExists candidate ∨ ∃ extension, IsPlainExtension extension ∧
            tree.disk.isFile ⟨candidate.text ++ extension⟩ ∧
            config.isSourceFile ⟨candidate.text ++ extension⟩)) ∧
    (∀ other : Config, (∀ path, config.isSourceFile path = other.isSourceFile path) ↔
      ∀ part, '.' ∉ part → '/' ∉ part → (config.HasPart part ↔ other.HasPart part)) ∧
    (∀ other, SameTexts config.extensions other → ∀ disk cwd roots value,
      targetOf disk cwd roots config.extensions value = targetOf disk cwd roots other value) ∧
    ∀ (other : List String) (first second cwd : Path) (value : String), first.IsNormal →
      second.IsNormal → (∀ piece ∈ segments '/' value.toList, IsName piece) →
      packageName? value = none →
      ¬(first.cleanFrom ⟨value⟩).IsAbove (second.cleanFrom ⟨value⟩) →
      (∀ text ∈ config.extensions ++ other, '/' ∉ text.toList) →
      (∀ tree : Tree, targetOf tree.disk cwd [first, second] config.extensions value =
        targetOf tree.disk cwd [first, second] other value) → SameTexts config.extensions other := by
  refine ⟨?found, ?plain, ?check, ?sameTexts, ?roots⟩
  case found =>
    intro tree candidate extension named missing member dotted noSlash isFile
    have sourceIff : config.isSourceFile _ ↔ _ :=
      isSourceFile_iff_of_isFile named missing dotted noSlash isFile
    refine ⟨?_, sourceIff, ?_⟩
    · simp only [candidateExists, Bool.or_eq_true, List.any_eq_true]
      exact Or.inr ⟨extension, member, isFile⟩
    · intro onePart
      exact sourceIff.mpr ⟨extension, member, bareExtension_eq_lastPart_iff.mpr onePart⟩
  case plain => exact fun plain tree candidate named => candidateExists_iff_of_plain named plain
  case check => exact fun other => isSourceFile_eq_iff
  case sameTexts => exact fun other same => same.targetOf_eq
  case roots =>
    intro other first second cwd value firstNormal secondNormal plain noPackage apart noSlash
    exact sameTexts_of_targetOf_eq firstNormal secondNormal plain noPackage apart noSlash

/-- A configuration with a list of extensions and nothing else. -/
def withExtensions (extensions : List String) : Config :=
  ⟨⟨"/p"⟩, [], [], extensions⟩

/-- A declaration file is a source file for its last part, a candidate with a dot entry in it is
accepted for a source file, and a dot that is left out makes another choice between two roots in some
tree. -/
theorem reads_extensions_of_declaration_file :
    (withExtensions [".ts", ".d.ts"]).isSourceFile ⟨"/p/lib.d.ts"⟩ ∧
      (∃ extension, IsPlainExtension extension ∧
        (Tree.branch ["p".toList, "lib.ts".toList]).disk.isFile ⟨"/p/./lib" ++ extension⟩ ∧
        (withExtensions [".js", ".ts"]).isSourceFile ⟨"/p/./lib" ++ extension⟩) ∧
      (∀ path, (withExtensions [".ts", ".d.ts"]).isSourceFile path =
        (withExtensions ["ts", "..d.ts"]).isSourceFile path) ∧
      (∀ disk cwd roots value, targetOf disk cwd roots [".ts", ".d.ts"] value =
        targetOf disk cwd roots [".d.ts", "", ".ts"] value) ∧
      ∃ tree : Tree, targetOf tree.disk ⟨"/p"⟩ [⟨"/p/a"⟩, ⟨"/p/b"⟩] [".ts", ".d.ts"] "x/lib" ≠
        targetOf tree.disk ⟨"/p"⟩ [⟨"/p/a"⟩, ⟨"/p/b"⟩] ["ts", ".d.ts"] "x/lib" := by
  rcases reads_extensions (withExtensions [".ts", ".d.ts"]) with
    ⟨found, _, check, sameTexts, roots⟩
  refine ⟨?declared, ?accepted, ?spelled, ?reordered, ?chosen⟩
  case declared =>
    have declared := found (Tree.branch ["p".toList, "lib.d.ts".toList]) ⟨"/p/lib"⟩ ".d.ts" (by decide)
      (by decide +kernel) (by decide) (by decide) (by decide) (by decide +kernel)
    exact declared.2.1.mpr ⟨".ts", by decide, by decide⟩
  case accepted =>
    have plain : ∀ extension ∈ (withExtensions [".js", ".ts"]).extensions,
        IsPlainExtension extension := by
      intro extension member
      simp only [withExtensions, List.mem_cons, List.not_mem_nil, or_false] at member
      rcases member with rfl | rfl
      · exact ⟨"js".toList, by decide⟩
      · exact ⟨"ts".toList, by decide⟩
    have accepted := (reads_extensions (withExtensions [".js", ".ts"])).2.1 plain
      (Tree.branch ["p".toList, "lib.ts".toList]) ⟨"/p/./lib"⟩ (by decide)
    exact (accepted.mp (by decide +kernel)).resolve_left (by decide +kernel)
  case spelled =>
    apply (check _).mpr
    intro part _ _
    have bare : bareExtension "ts" = bareExtension ".ts" ∧
        bareExtension "..d.ts" = bareExtension ".d.ts" := by decide
    simp [HasPart, withExtensions, bare]
  case reordered =>
    apply sameTexts
    intro text busy
    simp [withExtensions, busy, or_comm]
  case chosen =>
    by_contra same
    simp only [not_exists, not_not] at same
    have normal (path : Path) (clean : path.clean = path) (absolute : path.isAbsolute) :
        path.IsNormal := ⟨absolute, clean⟩
    have apart : ¬(Path.cleanFrom ⟨"/p/a"⟩ ⟨"x/lib"⟩).IsAbove (Path.cleanFrom ⟨"/p/b"⟩ ⟨"x/lib"⟩) := by
      rintro ⟨_, leads⟩
      exact absurd leads (by decide +kernel)
    have texts := roots ["ts", ".d.ts"] ⟨"/p/a"⟩ ⟨"/p/b"⟩ ⟨"/p"⟩ "x/lib"
      (normal _ (by decide +kernel) (by decide)) (normal _ (by decide +kernel) (by decide))
      (by decide) (by decide) apart (by decide) same
    exact absurd (texts "ts" (by decide)) (by decide)

/-- A candidate is accepted for a declaration file that is no source file, and without its dot an
extension no longer finds the file in the second root. -/
theorem extensions_are_read_apart :
    candidateExists (Tree.branch ["p".toList, "lib.d.ts".toList]).disk [".d.ts"] ⟨"/p/lib"⟩ ∧
      (Tree.branch ["p".toList, "lib.d.ts".toList]).disk.pathExists ⟨"/p/lib"⟩ = false ∧
      (Tree.branch ["p".toList, "lib.d.ts".toList]).disk.isFile ⟨"/p/lib.d.ts"⟩ ∧
      (withExtensions [".d.ts"]).isSourceFile ⟨"/p/lib.d.ts"⟩ = false ∧
      targetOf twoRoots.disk ⟨"/p"⟩ [⟨"/p/a"⟩, ⟨"/p/b"⟩] [".js"] "lib" = .path ⟨"/p/b/lib"⟩ ∧
      targetOf twoRoots.disk ⟨"/p"⟩ [⟨"/p/a"⟩, ⟨"/p/b"⟩] ["js"] "lib" = .path ⟨"/p/a/lib"⟩ := by
  decide +kernel

end Options

end ImportAlias
