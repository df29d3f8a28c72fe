import ImportAlias.Config.OfOptions
import ImportAlias.Proofs.Disk.Walk
import Mathlib.Data.List.Find
import Mathlib.Tactic.MkIffOfInductiveProp

/-!
# The root that a relative target is found in

The root of a target is told by what is at the target as it is written below each root, while the
target itself is clean. The two are the same place if every double dot leaves a directory that is
where the text says. Then a target that ends in a name is found in the root in which the clean target
is found. Behind a slash or a dot at the end nothing but a directory is found, and no extension makes
a file of it.
-/

namespace ImportAlias

open ImportAlias.Path

/-! ### Segments of joined and of clean paths -/

namespace Path

/-- The last segment of the path is a name: it is no dot entry, and no slash is behind it. -/
def EndsInName (path : Path) : Prop :=
  ∃ last ∈ (segments '/' path.chars).getLast?, IsName last

instance (path : Path) : Decidable path.EndsInName :=
  inferInstanceAs (Decidable (∃ _ ∈ _, _))

variable {path : Path}

/-- The last segment of a path, and those in front of it. -/
theorem exists_segments_eq_append (path : Path) :
    ∃ front last, segments '/' path.chars = front ++ [last] ∧ (path.EndsInName ↔ IsName last) := by
  rcases List.eq_nil_or_concat (segments '/' path.chars) with empty | ⟨front, last, cut⟩
  · exact absurd empty (segments_ne_nil '/' path.chars)
  · rw [List.concat_eq_append] at cut
    refine ⟨front, last, cut, ?_⟩
    simp [EndsInName, cut]

/-- A joined path ends with all segments of the entry. -/
theorem exists_segments_join {entry : Path} (relative : entry.isAbsolute = false)
    (directory : Path) :
    ∃ front, segments '/' (directory.join entry).chars = front ++ segments '/' entry.chars := by
  rw [join, if_neg (Bool.eq_false_iff.mp relative)]
  split
  · exact ⟨[], rfl⟩
  · split
    · next slashAtEnd =>
      rcases List.getLast?_eq_some_iff.mp slashAtEnd with ⟨before, split⟩
      refine ⟨segments '/' before, ?_⟩
      rw [chars_ofChars, split, List.append_assoc, List.singleton_append, segments_append]
    · exact ⟨_, by rw [chars_ofChars, segments_append]⟩

theorem endsInName_join_iff {entry : Path} (relative : entry.isAbsolute = false)
    (directory : Path) : (directory.join entry).EndsInName ↔ entry.EndsInName := by
  rcases exists_segments_join relative directory with ⟨front, cut⟩
  rcases exists_segments_eq_append entry with ⟨more, last, entryCut, _⟩
  simp [EndsInName, cut, entryCut, ← List.append_assoc]

theorem dots_not_mem_segments_clean (absolute : path.isAbsolute) :
    ['.', '.'] ∉ segments '/' path.clean.chars := by
  rw [clean_of_isAbsolute absolute]
  by_cases empty : path.names = []
  · rw [empty]
    decide
  · rw [segments_ofNames empty isName_of_mem_names]
    intro member
    rcases List.mem_cons.mp member with impossible | isName
    · exact absurd impossible (by decide)
    · exact (isName_of_mem_names _ isName).2.1 rfl

end Path

/-! ### What is at a path and behind it -/

namespace Tree

/-- The path is absolute, and every double dot in it leaves a directory that is where the text
says. -/
@[mk_iff]
structure ReadsPlainly (tree : Tree) (path : Path) : Prop where
  absolute : path.isAbsolute
  leaves : tree.LeavesDirectories (segments '/' path.chars)

instance (tree : Tree) (path : Path) : Decidable (tree.ReadsPlainly path) :=
  decidable_of_iff _ (tree.readsPlainly_iff path).symm

variable {tree : Tree} {path : Path}

theorem find?_of_isAbsolute (absolute : path.isAbsolute) :
    tree.find? true path =
      (walkLinks tree true linkLimit [] (segments '/' path.chars)).bind tree.at? := by
  simp [find?, locate?, absolute]

theorem isDirectory_iff (absolute : path.isAbsolute) :
    tree.disk.isDirectory path ↔ ∃ found,
      (walkLinks tree true linkLimit [] (segments '/' path.chars)).bind tree.directoryAt? =
        some found := by
  simp only [Disk.isDirectory, disk, find?_of_isAbsolute absolute, decide_eq_true_eq]
  cases walkLinks tree true linkLimit [] (segments '/' path.chars) with
  | none => simp
  | some location =>
      simp only [Option.bind_some, directoryAt?_eq_some_iff, HasDirectory]
      cases tree.at? location with
      | none => simp
      | some entry => cases entry <;> simp [kind]

theorem readsPlainly_clean (absolute : path.isAbsolute) : tree.ReadsPlainly path.clean :=
  ⟨isAbsolute_clean absolute, leavesDirectories_of_not_mem (dots_not_mem_segments_clean absolute)⟩

theorem ReadsPlainly.isDirectory_iff_names (plain : tree.ReadsPlainly path) :
    tree.disk.isDirectory path ↔ ∃ found,
      (walkLinks tree true linkLimit [] path.names).bind tree.directoryAt? = some found := by
  rw [isDirectory_iff plain.absolute, names, Path.walk,
    walkLinks_foldl_enter_bind (fun _ member => not_mem_of_mem_segments member) plain.leaves]

theorem ReadsPlainly.isDirectory_clean (plain : tree.ReadsPlainly path) :
    tree.disk.isDirectory path.clean = tree.disk.isDirectory path := by
  have cleanPlain : tree.ReadsPlainly path.clean := readsPlainly_clean plain.absolute
  rw [Bool.eq_iff_iff, plain.isDirectory_iff_names, cleanPlain.isDirectory_iff_names,
    names_clean plain.absolute]

/-- A suffix goes on with the last segment of a path, so that everything in front of it can be read in
the text alone. -/
theorem ReadsPlainly.find?_append (plain : tree.ReadsPlainly path) {front tail : List (List Char)}
    {last head : List Char} {suffix : String} (cut : segments '/' path.chars = front ++ [last])
    (suffixCut : segments '/' suffix.toList = head :: tail) :
    tree.find? true ⟨path.text ++ suffix⟩ =
      (walkLinks tree true linkLimit [] (front.foldl enter [] ++ (last ++ head) :: tail)).bind
        tree.at? := by
  have noSlash : ∀ piece ∈ front, '/' ∉ piece := by
    intro piece member
    exact not_mem_of_mem_segments (cut ▸ List.mem_append_left [last] member)
  have leaves : tree.LeavesDirectories front := (cut ▸ plain.leaves).of_append
  rw [find?_of_isAbsolute (isAbsolute_append plain.absolute suffix), chars_append,
    segments_append_of_cut cut suffixCut, walkLinks_foldl_enter_append noSlash leaves]

/-- Whatever is behind a path that ends in a name is behind the clean path too. -/
theorem ReadsPlainly.find?_clean_append (plain : tree.ReadsPlainly path) (ends : path.EndsInName)
    (suffix : String) :
    tree.find? true ⟨path.clean.text ++ suffix⟩ = tree.find? true ⟨path.text ++ suffix⟩ := by
  rcases exists_segments_eq_append path with ⟨front, last, cut, endsIff⟩
  rcases List.exists_cons_of_ne_nil (segments_ne_nil '/' suffix.toList) with ⟨head, tail, suffixCut⟩
  have names : path.names = front.foldl enter [] ++ [last] := by
    rw [Path.names, Path.walk, cut, List.foldl_append, List.foldl_cons, List.foldl_nil,
      enter_of_isName (endsIff.mp ends)]
  have cleanCut : segments '/' path.clean.chars = ([] :: front.foldl enter []) ++ [last] := by
    rw [clean_of_isAbsolute plain.absolute, segments_ofNames (by simp [names]) isName_of_mem_names,
      names, List.cons_append]
  have isName : ∀ name ∈ front.foldl enter [], IsName name := by
    intro name member
    exact isName_of_mem_names name (names ▸ List.mem_append_left [last] member)
  have cleanSteps : ([] :: front.foldl enter []).foldl enter [] = front.foldl enter [] :=
    foldl_enter_of_isName isName
  have cleanPlain : tree.ReadsPlainly path.clean := readsPlainly_clean plain.absolute
  rw [cleanPlain.find?_append cleanCut suffixCut, plain.find?_append cut suffixCut, cleanSteps]

/-- Behind a double dot that leaves a directory there is one. -/
theorem ReadsPlainly.isDirectory_of_dots (plain : tree.ReadsPlainly path) {front : List (List Char)}
    (cut : segments '/' path.chars = front ++ [['.', '.']]) : tree.disk.isDirectory path := by
  have left : tree.HasDirectory (locationOf front) := plain.leaves front [] cut
  have names : path.names = (front.foldl enter []).dropLast := by
    rw [Path.names, Path.walk, cut, List.foldl_append]
    rfl
  have found : tree.HasDirectory ([] ++ path.names.map String.ofList) := by
    rw [names, List.map_dropLast]
    exact left.dropLast
  have walked : walkLinks tree true linkLimit [] (path.names ++ []) =
      walkLinks tree true linkLimit ([] ++ path.names.map String.ofList) [] :=
    walkLinks_names_append isName_of_mem_names found
  rw [List.append_nil, walkLinks_nil] at walked
  apply plain.isDirectory_iff_names.mpr
  exact ⟨_, by rw [walked]; exact directoryAt?_eq_some_iff.mpr ⟨rfl, found⟩⟩

end Tree

namespace Options

section Candidates

variable {tree : Tree} {candidate : Path}

/-- A candidate that ends in a name exists exactly if the clean one does. -/
theorem candidateExists_clean (plain : tree.ReadsPlainly candidate) (ends : candidate.EndsInName)
    (extensions : List String) :
    candidateExists tree.disk extensions candidate.clean =
      candidateExists tree.disk extensions candidate := by
  have behind := plain.find?_clean_append ends
  have whole : tree.find? true candidate.clean = tree.find? true candidate := by
    simpa using behind ""
  simp [candidateExists, Disk.pathExists, Disk.isFile, Tree.disk, behind, whole]

theorem candidateExists_of_isDirectory (found : tree.disk.isDirectory candidate)
    (extensions : List String) : candidateExists tree.disk extensions candidate := by
  have target : tree.disk.target? candidate = some .directory := of_decide_eq_true found
  simp [candidateExists, Disk.pathExists, target]

/-- A candidate with a slash or a dot at its end exists only as a directory. -/
theorem isDirectory_of_candidateExists (absolute : candidate.isAbsolute)
    {front : List (List Char)} {last : List Char}
    (cut : segments '/' candidate.chars = front ++ [last]) (idle : isIdleSegment last)
    {extensions : List String} (found : candidateExists tree.disk extensions candidate) :
    tree.disk.isDirectory candidate := by
  have atEnd : Tree.walkLinks tree true Tree.linkLimit [] (segments '/' candidate.chars) =
      (Tree.walkLinks tree true Tree.linkLimit [] front).bind tree.directoryAt? := by
    rw [cut, Tree.walkLinks_append_idle idle]
  have isDirectory {location : Tree.Location}
      (reached : (Tree.walkLinks tree true Tree.linkLimit [] front).bind tree.directoryAt? =
        some location) : tree.disk.isDirectory candidate := by
    rcases Option.bind_eq_some_iff.mp reached with ⟨start, _, here⟩
    cases (Tree.directoryAt?_eq_some_iff.mp here).1
    apply (Tree.isDirectory_iff absolute).mpr
    exact ⟨location, by rw [atEnd, reached]; exact here⟩
  simp only [candidateExists, Bool.or_eq_true, List.any_eq_true] at found
  rcases found with atCandidate | ⟨extension, _, isFile⟩
  · rcases Option.isSome_iff_exists.mp atCandidate with ⟨kind, leads⟩
    rcases Option.map_eq_some_iff.mp leads with ⟨entry, found, _⟩
    rw [Tree.find?_of_isAbsolute absolute, atEnd] at found
    rcases Option.bind_eq_some_iff.mp found with ⟨location, reached, _⟩
    exact isDirectory reached
  · -- The extension goes on behind the slash or the dot, so it is looked for in a directory.
    rcases Option.map_eq_some_iff.mp (of_decide_eq_true isFile) with ⟨entry, found, _⟩
    rcases List.exists_cons_of_ne_nil (segments_ne_nil '/' extension.toList) with
      ⟨head, tail, extensionCut⟩
    rw [Tree.find?_of_isAbsolute (isAbsolute_append absolute extension), chars_append,
      segments_append_of_cut cut extensionCut] at found
    rcases Option.bind_eq_some_iff.mp found with ⟨location, leads, _⟩
    rcases Tree.exists_directory_of_walkLinks_append_cons leads with ⟨directory, reached⟩
    exact isDirectory reached

theorem candidateExists_of_not_endsInName (plain : tree.ReadsPlainly candidate)
    (ends : ¬candidate.EndsInName) (extensions : List String) :
    candidateExists tree.disk extensions candidate = tree.disk.isDirectory candidate.clean := by
  rw [plain.isDirectory_clean, Bool.eq_iff_iff]
  refine ⟨?_, fun found => candidateExists_of_isDirectory found extensions⟩
  rcases exists_segments_eq_append candidate with ⟨front, last, cut, endsIff⟩
  intro found
  by_cases idle : isIdleSegment last
  · exact isDirectory_of_candidateExists plain.absolute cut idle found
  · by_cases up : last = ['.', '.']
    · exact plain.isDirectory_of_dots (up ▸ cut)
    · have noSlash : '/' ∉ last := not_mem_of_mem_segments (cut ▸ List.mem_append_right front
        List.mem_cons_self)
      exact absurd (endsIff.mpr ⟨Bool.eq_false_iff.mpr idle, up, noSlash⟩) ends

end Candidates

/-- The root is the first one for which something holds, or the first of all if it holds for none. -/
def Picks (Holds : Path → Prop) (roots : List Path) (root : Path) : Prop :=
  (∃ before after, roots = before ++ root :: after ∧ Holds root ∧
    ∀ earlier ∈ before, ¬Holds earlier) ∨
  (roots.head? = some root ∧ ∀ other ∈ roots, ¬Holds other)

theorem Picks.mem {Holds : Path → Prop} {roots : List Path} {root : Path}
    (picks : Picks Holds roots root) : root ∈ roots := by
  rcases picks with ⟨before, after, rfl, _⟩ | ⟨isHead, _⟩
  · simp
  · exact List.mem_of_mem_head? isHead

theorem Picks.congr {First Second : Path → Prop} {roots : List Path} {root : Path}
    (same : ∀ other ∈ roots, First other ↔ Second other) (picks : Picks First roots root) :
    Picks Second roots root := by
  have holds := (same root picks.mem).mp
  rcases picks with ⟨before, after, rfl, isFirst, noneBefore⟩ | ⟨isHead, nowhere⟩
  · refine Or.inl ⟨before, after, rfl, holds isFirst, ?_⟩
    intro earlier member
    exact (not_congr (same earlier (List.mem_append_left _ member))).mp (noneBefore earlier member)
  · refine Or.inr ⟨isHead, ?_⟩
    intro other member
    exact (not_congr (same other member)).mp (nowhere other member)

theorem picks_targetBase {roots : List Path} (nonempty : roots ≠ []) (disk : Disk) (cwd : Path)
    (extensions : List String) (value : Path) :
    Picks (fun root => candidateExists disk extensions (root.join value)) roots
      (targetBase disk cwd roots extensions value) := by
  cases roots with
  | nil => exact absurd rfl nonempty
  | cons first rest =>
      unfold targetBase
      dsimp only
      cases found : (first :: rest).find? (fun root =>
          candidateExists disk extensions (root.join value)) with
      | none => exact Or.inr ⟨rfl, List.find?_eq_none.mp found⟩
      | some root =>
          rcases List.find?_eq_some_iff_append.mp found with ⟨holds, before, after, split, earlier⟩
          refine Or.inl ⟨before, after, split, holds, ?_⟩
          intro other member
          simpa using earlier other member

theorem targetBase_congr {roots : List Path} (nonempty : roots ≠ []) {disk : Disk} {cwd : Path}
    {extensions : List String} {first second : Path}
    (same : ∀ root ∈ roots, candidateExists disk extensions (root.join first) =
      candidateExists disk extensions (root.join second)) :
    targetBase disk cwd roots extensions first = targetBase disk cwd roots extensions second := by
  cases roots with
  | nil => exact absurd rfl nonempty
  | cons root rest =>
      simp only [targetBase]
      rw [List.find?_congr same]

/-- A relative target is put below the root that is picked by what is at the target as it is written.
If every double dot leaves a directory that is where the text says, a target that ends in a name is
put below the root that is picked by what is at the clean target, and another target below the root
that is picked by whether the clean target is a directory. So another spelling of the clean target
with an end of the same kind makes no difference. -/
theorem targetOf_picks (tree : Tree) (cwd : Path) {roots : List Path} (nonempty : roots ≠ [])
    (extensions : List String) {value : String} (noPackage : packageName? value = none)
    (relative : Path.isAbsolute ⟨value⟩ = false) :
    ∃ root, targetOf tree.disk cwd roots extensions value = .path (root.cleanFrom ⟨value⟩) ∧
      Picks (fun root => candidateExists tree.disk extensions (root.join ⟨value⟩)) roots root ∧
      ((∀ root ∈ roots, tree.ReadsPlainly (root.join ⟨value⟩)) →
        (Path.EndsInName ⟨value⟩ →
          Picks (fun root => candidateExists tree.disk extensions (root.cleanFrom ⟨value⟩)) roots
            root) ∧
        (¬Path.EndsInName ⟨value⟩ →
          Picks (fun root => tree.disk.isDirectory (root.cleanFrom ⟨value⟩)) roots root) ∧
        ∀ spelling, packageName? spelling = none → Path.isAbsolute ⟨spelling⟩ = false →
          (∀ root ∈ roots, tree.ReadsPlainly (root.join ⟨spelling⟩) ∧
            root.cleanFrom ⟨spelling⟩ = root.cleanFrom ⟨value⟩) →
          (Path.EndsInName ⟨spelling⟩ ↔ Path.EndsInName ⟨value⟩) →
          targetOf tree.disk cwd roots extensions spelling =
            targetOf tree.disk cwd roots extensions value) := by
  have target {text : String} (isPath : packageName? text = none)
      (isRelative : Path.isAbsolute ⟨text⟩ = false) :
      targetOf tree.disk cwd roots extensions text =
        .path ((targetBase tree.disk cwd roots extensions ⟨text⟩).cleanFrom ⟨text⟩) := by
    simp [targetOf, isPath, isRelative]
  have probe {text : String} {root : Path} (isRelative : Path.isAbsolute ⟨text⟩ = false)
      (plain : tree.ReadsPlainly (root.join ⟨text⟩)) :
      (Path.EndsInName ⟨text⟩ → candidateExists tree.disk extensions (root.join ⟨text⟩) =
        candidateExists tree.disk extensions (root.cleanFrom ⟨text⟩)) ∧
      (¬Path.EndsInName ⟨text⟩ → candidateExists tree.disk extensions (root.join ⟨text⟩) =
        tree.disk.isDirectory (root.cleanFrom ⟨text⟩)) := by
    have endsIff := endsInName_join_iff isRelative root
    constructor
    · intro ends
      exact (candidateExists_clean plain (endsIff.mpr ends) extensions).symm
    · intro ends
      exact candidateExists_of_not_endsInName plain (mt endsIff.mp ends) extensions
  have picks := picks_targetBase nonempty tree.disk cwd extensions ⟨value⟩
  refine ⟨_, target noPackage relative, picks, ?_⟩
  intro plain
  refine ⟨?_, ?_, ?_⟩
  · intro ends
    apply picks.congr
    intro root member
    rw [(probe relative (plain root member)).1 ends]
  · intro ends
    apply picks.congr
    intro root member
    rw [(probe relative (plain root member)).2 ends]
  · intro spelling isPath isRelative spelled sameEnd
    have sameBase : targetBase tree.disk cwd roots extensions ⟨spelling⟩ =
        targetBase tree.disk cwd roots extensions ⟨value⟩ := by
      apply targetBase_congr nonempty
      intro root member
      rcases spelled root member with ⟨spellingPlain, sameClean⟩
      have ofValue := probe relative (plain root member)
      have ofSpelling := probe isRelative spellingPlain
      by_cases ends : Path.EndsInName ⟨value⟩
      · rw [ofValue.1 ends, ofSpelling.1 (sameEnd.mpr ends), sameClean]
      · rw [ofValue.2 ends, ofSpelling.2 (mt sameEnd.mp ends), sameClean]
    rw [target isPath isRelative, target noPackage relative, sameBase, (spelled _ picks.mem).2]

/-- Two directories that both have a directory of one name; the second one has a file too. -/
def twoRoots : Tree :=
  .directory [("p", .directory [("a", .directory [("x", .directory [])]),
    ("b", .directory [("x", .directory []), ("lib.js", .file "")])])]

theorem targetOf_picks_of_detour :
    ∃ root, targetOf twoRoots.disk ⟨"/p"⟩ [⟨"/p/a"⟩, ⟨"/p/b"⟩] [".js"] "./x/..//lib" =
        .path (root.cleanFrom ⟨"./x/..//lib"⟩) ∧
      Picks (fun root => candidateExists twoRoots.disk [".js"] (root.cleanFrom ⟨"./x/..//lib"⟩))
        [⟨"/p/a"⟩, ⟨"/p/b"⟩] root ∧
      root.cleanFrom ⟨"./x/..//lib"⟩ = ⟨"/p/b/lib"⟩ := by
  have noPackage : packageName? "./x/..//lib" = none := by decide
  have plain : ∀ root ∈ ([⟨"/p/a"⟩, ⟨"/p/b"⟩] : List Path),
      twoRoots.ReadsPlainly (root.join ⟨"./x/..//lib"⟩) := by decide +kernel
  have ends : Path.EndsInName ⟨"./x/..//lib"⟩ := by decide
  have found : targetOf twoRoots.disk ⟨"/p"⟩ [⟨"/p/a"⟩, ⟨"/p/b"⟩] [".js"] "./x/..//lib" =
      .path ⟨"/p/b/lib"⟩ := by decide +kernel
  rcases targetOf_picks twoRoots ⟨"/p"⟩ (List.cons_ne_nil _ _) [".js"] noPackage (by decide) with
    ⟨root, target, _, clean⟩
  exact ⟨root, target, (clean plain).1 ends, Target.path.inj (target.symm.trans found)⟩

/-- With a slash at its end, the target is put below the first root, though the clean target is found
in the second one alone. -/
theorem targetOf_of_slash_at_end :
    targetOf twoRoots.disk ⟨"/p"⟩ [⟨"/p/a"⟩, ⟨"/p/b"⟩] [".js"] "lib" = .path ⟨"/p/b/lib"⟩ ∧
      targetOf twoRoots.disk ⟨"/p"⟩ [⟨"/p/a"⟩, ⟨"/p/b"⟩] [".js"] "lib/" = .path ⟨"/p/a/lib"⟩ ∧
      ∀ root, Picks (fun root => candidateExists twoRoots.disk [".js"] (root.cleanFrom ⟨"lib/"⟩))
        [⟨"/p/a"⟩, ⟨"/p/b"⟩] root → root.cleanFrom ⟨"lib/"⟩ = ⟨"/p/b/lib"⟩ := by
  refine ⟨by decide +kernel, by decide +kernel, ?_⟩
  have notInFirst :
      candidateExists twoRoots.disk [".js"] (Path.cleanFrom ⟨"/p/a"⟩ ⟨"lib/"⟩) = false := by
    decide +kernel
  have inSecond :
      candidateExists twoRoots.disk [".js"] (Path.cleanFrom ⟨"/p/b"⟩ ⟨"lib/"⟩) = true := by
    decide +kernel
  intro root picks
  have isSecond : root = ⟨"/p/b"⟩ := by
    rcases picks with ⟨before, after, split, holds, _⟩ | ⟨_, nowhere⟩
    · simp only [List.cons_eq_append_iff, List.cons.injEq] at split
      rcases split with ⟨_, rfl, _⟩ | ⟨_, _, ⟨_, rfl, _⟩ | ⟨_, _, impossible⟩⟩
      · simp [notInFirst] at holds
      · rfl
      · simp at impossible
    · simp [inSecond] at nowhere
  subst isSecond
  decide +kernel

end Options

end ImportAlias
