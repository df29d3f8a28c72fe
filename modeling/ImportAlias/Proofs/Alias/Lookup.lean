import ImportAlias.Alias.Table
import ImportAlias.Proofs.Fields

/-!
# Which alias a lookup finds

A literal key applies to a specifier that is the key, goes on behind it with a slash, or is any
specifier at all when the key is empty. The lookup cuts the specifier from the right and takes the
first key it meets, which is the longest one that applies: cuts with longer heads come first. The
patterns are asked only when no key applies.
-/

namespace ImportAlias

namespace AliasTable

/-- There is a literal alias with the key. -/
def HasKey (table : AliasTable) (key : String) : Prop :=
  ∃ target, (key, target) ∈ table.literals

/-- The key applies to the specifier: as a whole, up to a slash, or as the empty key. -/
def Applies (key specifier : String) : Prop :=
  specifier ≠ "" ∧ (key = specifier ∨ (∃ rest, specifier = key ++ "/" ++ rest) ∨ key = "")

/-- The key is the longest one of the table that applies to the specifier, and the rest is what is
behind it. -/
structure LongestKey (table : AliasTable) (specifier key : String) (target : Target)
    (rest : String) : Prop where
  present : table.literal? key = some target
  applies : Applies key specifier
  longest : ∀ other, table.HasKey other → Applies other specifier → other.length ≤ key.length
  split : key ++ rest = specifier

/-- The rule of precedence between the aliases of a table. -/
inductive Chooses (table : AliasTable) (specifier : String) : Option AliasTable.Match → Prop where
  /-- The longest key that applies. -/
  | literal {key rest : String} {target : Target}
      (longest : table.LongestKey specifier key target rest) :
      Chooses table specifier (some (.literal key target rest))
  /-- Without such a key, the first pattern that matches somewhere in the specifier. -/
  | pattern {earlier later : List PatternRule} {rule : PatternRule}
      {captures : Nat → Option String} (nonempty : specifier ≠ "")
      (noKey : ∀ key, table.HasKey key → ¬Applies key specifier)
      (order : table.patterns = earlier ++ rule :: later)
      (unmatched : ∀ other ∈ earlier, other.search? specifier = none)
      (found : rule.search? specifier = some captures) :
      Chooses table specifier (some (.pattern (rule.template.expand captures) rule.external))
  /-- Nothing when there is no such pattern either. -/
  | nothing (noKey : ∀ key, table.HasKey key → ¬Applies key specifier)
      (unmatched : ∀ rule ∈ table.patterns, rule.search? specifier = none) :
      Chooses table specifier none
  /-- Nothing for the empty specifier. -/
  | empty (empty : specifier = "") : Chooses table specifier none

theorem hasKey_iff {table : AliasTable} {key : String} :
    table.HasKey key ↔ ∃ target, table.literal? key = some target := by
  constructor
  · rintro ⟨target, member⟩
    cases found : table.literal? key with
    | none => exact absurd rfl (fieldAt?_eq_none_iff.mp found _ member)
    | some target => exact ⟨target, rfl⟩
  · rintro ⟨target, found⟩
    exact ⟨target, mem_of_fieldAt?_eq_some found⟩

/-! ### Cuts -/

theorem mem_cuts_cons {char : Char} {tail head rest : List Char} :
    (head, rest) ∈ cuts (char :: tail) ↔
      (∃ inner, head = char :: inner ∧ (inner, rest) ∈ cuts tail) ∨
        (char = '/' ∧ head = [] ∧ rest = char :: tail) := by
  have longer : (head, rest) ∈ (cuts tail).map (fun cut => (char :: cut.1, cut.2)) ↔
      ∃ inner, head = char :: inner ∧ (inner, rest) ∈ cuts tail := by
    constructor
    · intro member
      rcases List.mem_map.mp member with ⟨⟨inner, behind⟩, inside, equal⟩
      rcases Prod.mk.inj equal with ⟨rfl, rfl⟩
      exact ⟨inner, rfl, inside⟩
    · rintro ⟨inner, rfl, inside⟩
      exact List.mem_map.mpr ⟨(inner, rest), inside, rfl⟩
  rw [cuts]
  split
  · next slash =>
    rw [List.mem_append, longer, List.mem_singleton, Prod.mk.injEq]
    simp only [slash, true_and]
  · next notSlash =>
    rw [longer]
    simp only [notSlash, false_and, or_false]

/-- A text is cut where it ends and before its slashes. -/
theorem mem_cuts_iff {text head rest : List Char} :
    (head, rest) ∈ cuts text ↔
      head ++ rest = text ∧ (rest = [] ∨ ∃ behind, rest = '/' :: behind) := by
  induction text generalizing head with
  | nil =>
      rw [cuts, List.mem_singleton, Prod.mk.injEq, List.append_eq_nil_iff]
      constructor
      · intro nils
        exact ⟨nils, Or.inl nils.2⟩
      · exact And.left
  | cons char tail ih =>
      rw [mem_cuts_cons]
      cases head with
      | nil =>
          constructor
          · rintro (⟨inner, impossible, _⟩ | ⟨slash, _, whole⟩)
            · exact absurd impossible (List.cons_ne_nil _ _).symm
            · exact ⟨whole, Or.inr ⟨tail, slash ▸ whole⟩⟩
          · rintro ⟨whole, ends | ⟨behind, slash⟩⟩
            · exact absurd (ends ▸ whole) (List.cons_ne_nil _ _).symm
            · rw [List.nil_append] at whole
              rw [whole, List.cons.injEq] at slash
              exact Or.inr ⟨slash.1, rfl, whole⟩
      | cons first inner =>
          rw [List.cons_append, List.cons.injEq, and_assoc, ← ih]
          constructor
          · rintro (⟨other, equal, inside⟩ | ⟨_, impossible, _⟩)
            · rcases List.cons.inj equal with ⟨rfl, rfl⟩
              exact ⟨rfl, inside⟩
            · exact absurd impossible (List.cons_ne_nil _ _)
          · rintro ⟨rfl, inside⟩
            exact Or.inl ⟨inner, rfl, inside⟩

/-- Cuts with longer heads come first. -/
theorem pairwise_cuts (text : List Char) :
    (cuts text).Pairwise (fun earlier later => later.1.length < earlier.1.length) := by
  induction text with
  | nil => exact List.pairwise_singleton _ _
  | cons char tail ih =>
      have longer : ((cuts tail).map (fun cut => (char :: cut.1, cut.2))).Pairwise
          (fun earlier later => later.1.length < earlier.1.length) := by
        rw [List.pairwise_map]
        exact ih.imp (fun shorter => Nat.succ_lt_succ shorter)
      rw [cuts]
      split
      · refine List.pairwise_append.mpr ⟨longer, List.pairwise_singleton _ _, ?_⟩
        intro earlier member later atStart
        rcases List.mem_map.mp member with ⟨cut, _, rfl⟩
        rw [List.mem_singleton.mp atStart]
        exact Nat.succ_pos _
      · exact longer

/-- A key applies exactly if it is the head of a cut, or empty. -/
theorem applies_iff_mem_cuts {key specifier : String} (nonempty : specifier ≠ "") :
    Applies key specifier ↔
      (∃ rest, (key.toList, rest) ∈ cuts specifier.toList) ∨ key = "" := by
  have slash (rest : String) : (key ++ "/" ++ rest).toList = key.toList ++ '/' :: rest.toList := by
    simp
  simp only [Applies, mem_cuts_iff]
  constructor
  · rintro ⟨_, rfl | ⟨rest, rfl⟩ | empty⟩
    · exact Or.inl ⟨[], List.append_nil _, Or.inl rfl⟩
    · exact Or.inl ⟨'/' :: rest.toList, (slash rest).symm, Or.inr ⟨rest.toList, rfl⟩⟩
    · exact Or.inr empty
  · rintro (⟨rest, split, rfl | ⟨behind, rfl⟩⟩ | empty)
    · rw [List.append_nil] at split
      exact ⟨nonempty, Or.inl (String.toList_inj.mp split)⟩
    · refine ⟨nonempty, Or.inr (Or.inl ⟨String.ofList behind, String.toList_inj.mp ?_⟩)⟩
      rw [slash, String.toList_ofList, split]
    · exact ⟨nonempty, Or.inr (Or.inr empty)⟩

/-! ### Lookups -/

theorem literalAt?_eq_some {table : AliasTable} {cut : List Char × List Char}
    {found : AliasTable.Match} (hit : table.literalAt? cut = some found) :
    ∃ target, table.literal? (String.ofList cut.1) = some target ∧
      found = .literal (String.ofList cut.1) target (String.ofList cut.2) := by
  rcases Option.map_eq_some_iff.mp hit with ⟨target, present, made⟩
  exact ⟨target, present, made.symm⟩

theorem not_hasKey_of_literalAt?_eq_none {table : AliasTable} {key : String} {rest : List Char}
    (miss : table.literalAt? (key.toList, rest) = none) : ¬table.HasKey key := by
  intro hasKey
  rcases hasKey_iff.mp hasKey with ⟨target, present⟩
  rw [literalAt?, String.ofList_toList, present] at miss
  exact absurd miss (Option.some_ne_none _)

/-- When no longer head of the specifier is a key, no longer key applies. -/
theorem length_le_of_missed {table : AliasTable} {specifier : String}
    {earlier later : List (List Char × List Char)} {cut : List Char × List Char}
    (order : cuts specifier.toList = earlier ++ cut :: later)
    (missed : ∀ longer ∈ earlier, table.literalAt? longer = none) {key : String}
    (hasKey : table.HasKey key) (applies : Applies key specifier) :
    key.length ≤ (String.ofList cut.1).length := by
  rcases (applies_iff_mem_cuts applies.1).mp applies with ⟨rest, inside⟩ | rfl
  · have ordered := pairwise_cuts specifier.toList
    rw [order] at inside ordered
    rcases List.mem_append.mp inside with before | atOrBehind
    · exact absurd hasKey (not_hasKey_of_literalAt?_eq_none (missed _ before))
    · rcases List.mem_cons.mp atOrBehind with here | behind
      · have same : String.ofList cut.1 = key := by rw [← here, String.ofList_toList]
        exact Nat.le_of_eq (congrArg String.length same.symm)
      · have shorter :=
          (List.pairwise_cons.mp (List.pairwise_append.mp ordered).2.1).1 _ behind
        rw [String.length_ofList, ← String.length_toList]
        exact Nat.le_of_lt shorter
  · exact Nat.zero_le _

theorem eq_empty_of_missed {table : AliasTable} {specifier key : String}
    (missed : (cuts specifier.toList).findSome? table.literalAt? = none)
    (hasKey : table.HasKey key) (applies : Applies key specifier) : key = "" := by
  rcases (applies_iff_mem_cuts applies.1).mp applies with ⟨rest, inside⟩ | empty
  · have miss := List.findSome?_eq_none_iff.mp missed _ inside
    exact absurd hasKey (not_hasKey_of_literalAt?_eq_none miss)
  · exact empty

/-- The key that a lookup finds is the longest one that applies. -/
theorem longestKey_of_lookupKey?_eq_some {table : AliasTable} {specifier : String}
    {found : AliasTable.Match} (nonempty : specifier ≠ "")
    (hit : table.lookupKey? specifier = some found) :
    ∃ key target rest, found = .literal key target rest ∧
      table.LongestKey specifier key target rest := by
  rw [lookupKey?] at hit
  split at hit
  · next chosen atCut =>
    rcases List.findSome?_eq_some_iff.mp atCut with ⟨earlier, cut, later, order, here, missed⟩
    rcases literalAt?_eq_some here with ⟨target, present, made⟩
    have member : (cut.1, cut.2) ∈ cuts specifier.toList := by
      rw [order]
      exact List.mem_append_right _ List.mem_cons_self
    refine ⟨_, target, _, (Option.some.inj hit).symm.trans made, present, ?_, ?_, ?_⟩
    · apply (applies_iff_mem_cuts nonempty).mpr
      rw [String.toList_ofList]
      exact Or.inl ⟨cut.2, member⟩
    · intro other hasOther otherApplies
      exact length_le_of_missed order missed hasOther otherApplies
    · apply String.toList_inj.mp
      rw [String.toList_append, String.toList_ofList, String.toList_ofList]
      exact (mem_cuts_iff.mp member).1
  · next missed =>
    rcases literalAt?_eq_some hit with ⟨target, present, rfl⟩
    refine ⟨_, target, _, rfl, present, ⟨nonempty, Or.inr (Or.inr rfl)⟩, ?_, ?_⟩
    · intro other hasOther otherApplies
      have empty := eq_empty_of_missed missed hasOther otherApplies
      subst empty
      exact Nat.zero_le _
    · apply String.toList_inj.mp
      simp

theorem not_applies_of_lookupKey?_eq_none {table : AliasTable} {specifier : String}
    (miss : table.lookupKey? specifier = none) :
    ∀ key, table.HasKey key → ¬Applies key specifier := by
  intro key hasKey applies
  rw [lookupKey?] at miss
  split at miss
  · simp at miss
  · next missed =>
    have empty := eq_empty_of_missed missed hasKey applies
    rw [empty] at hasKey
    have noEmptyKey : ¬table.HasKey "" := not_hasKey_of_literalAt?_eq_none miss
    exact noEmptyKey hasKey

/-- There is at most one longest key: two heads of one specifier with one length are equal. -/
theorem LongestKey.unique {table : AliasTable} {specifier key otherKey rest otherRest : String}
    {target otherTarget : Target} (first : table.LongestKey specifier key target rest)
    (second : table.LongestKey specifier otherKey otherTarget otherRest) :
    key = otherKey ∧ target = otherTarget ∧ rest = otherRest := by
  have sameLength : key.length = otherKey.length := by
    apply Nat.le_antisymm
    · exact second.longest key (hasKey_iff.mpr ⟨_, first.present⟩) first.applies
    · exact first.longest otherKey (hasKey_iff.mpr ⟨_, second.present⟩) second.applies
  have sameText : key.toList ++ rest.toList = otherKey.toList ++ otherRest.toList := by
    rw [← String.toList_append, ← String.toList_append, first.split, second.split]
  rw [← String.length_toList, ← String.length_toList] at sameLength
  rcases List.append_inj sameText sameLength with ⟨sameKey, sameRest⟩
  have keyEq := String.toList_inj.mp sameKey
  refine ⟨keyEq, ?_, String.toList_inj.mp sameRest⟩
  have present := first.present
  rw [keyEq, second.present, Option.some.injEq] at present
  exact present.symm

/-- Behind a key that is not empty, the specifier ends or goes on with a slash. -/
theorem LongestKey.rest_eq {table : AliasTable} {specifier key rest : String} {target : Target}
    (longest : table.LongestKey specifier key target rest) :
    key = "" ∨ rest = "" ∨ ∃ behind, rest = "/" ++ behind := by
  have split := congrArg String.toList longest.split
  rw [String.toList_append] at split
  rcases longest.applies.2 with whole | ⟨behind, slash⟩ | empty
  · rw [whole, List.append_right_eq_self] at split
    exact Or.inr (Or.inl (String.toList_eq_nil_iff.mp split))
  · rw [slash, String.toList_append, String.toList_append, List.append_assoc,
      List.append_right_inj] at split
    refine Or.inr (Or.inr ⟨behind, String.toList_inj.mp ?_⟩)
    rw [String.toList_append, split]
  · exact Or.inl empty

/-- What a lookup finds is what the rule of precedence chooses. -/
theorem chooses_lookup? (table : AliasTable) (specifier : String) :
    table.Chooses specifier (table.lookup? specifier) := by
  rw [lookup?]
  split
  · next empty => exact .empty empty
  · next nonempty =>
    split
    · next found hit =>
      rcases longestKey_of_lookupKey?_eq_some nonempty hit with ⟨key, target, rest, rfl, longest⟩
      exact .literal longest
    · next miss =>
      have noKey := not_applies_of_lookupKey?_eq_none miss
      cases matched : table.patterns.findSome? (fun entry => entry.match? specifier) with
      | none =>
          refine .nothing noKey ?_
          intro rule member
          exact Option.map_eq_none_iff.mp (List.findSome?_eq_none_iff.mp matched rule member)
      | some found =>
          rcases List.findSome?_eq_some_iff.mp matched with
            ⟨earlier, rule, later, order, here, unmatched⟩
          rcases Option.map_eq_some_iff.mp here with ⟨captures, hit, rfl⟩
          refine .pattern nonempty noKey order ?_ hit
          intro other member
          exact Option.map_eq_none_iff.mp (unmatched other member)

theorem longestKey_of_lookup?_eq_some {table : AliasTable}
    {specifier key rest : String} {target : Target}
    (looked : table.lookup? specifier = some (.literal key target rest)) :
    table.LongestKey specifier key target rest := by
  have chosen := table.chooses_lookup? specifier
  rw [looked] at chosen
  cases chosen with
  | literal longest => exact longest

/-- Without a key that applies, a lookup asks the patterns alone. -/
theorem lookup?_of_not_applies {table : AliasTable} {specifier : String} (nonempty : specifier ≠ "")
    (noKey : ∀ key, table.HasKey key → ¬Applies key specifier) :
    table.lookup? specifier =
      table.patterns.findSome? (fun entry => entry.match? specifier) := by
  rw [lookup?, if_neg nonempty]
  split
  · next found hit =>
    rcases longestKey_of_lookupKey?_eq_some nonempty hit with ⟨key, target, rest, _, longest⟩
    exact absurd longest.applies (noKey key (hasKey_iff.mpr ⟨target, longest.present⟩))
  · rfl

/-- The rule of precedence leaves no choice. -/
theorem lookup?_eq_of_chooses {table : AliasTable} {specifier : String}
    {found : Option AliasTable.Match} (chosen : table.Chooses specifier found) :
    table.lookup? specifier = found := by
  cases chosen with
  | empty empty => rw [lookup?, if_pos empty]
  | literal longest =>
      rw [lookup?, if_neg longest.applies.1]
      split
      · next found hit =>
        rcases longestKey_of_lookupKey?_eq_some longest.applies.1 hit with
          ⟨key, target, rest, rfl, alsoLongest⟩
        rcases longest.unique alsoLongest with ⟨rfl, rfl, rfl⟩
        rfl
      · next miss =>
        have hasKey := hasKey_iff.mpr ⟨_, longest.present⟩
        exact absurd longest.applies (not_applies_of_lookupKey?_eq_none miss _ hasKey)
  | @pattern earlier later rule captures nonempty noKey order unmatched found =>
      rw [lookup?_of_not_applies nonempty noKey, List.findSome?_eq_some_iff]
      refine ⟨earlier, rule, later, order, ?_, ?_⟩
      · rw [PatternRule.match?, found, Option.map_some]
      · intro other member
        rw [PatternRule.match?, unmatched other member, Option.map_none]
  | nothing noKey unmatched =>
      by_cases empty : specifier = ""
      · rw [lookup?, if_pos empty]
      · rw [lookup?_of_not_applies empty noKey, List.findSome?_eq_none_iff]
        intro rule member
        rw [PatternRule.match?, unmatched rule member, Option.map_none]

/-- A lookup finds what the rule of precedence chooses and nothing else: never a pattern when a key
applies, and never a key up to the middle of a segment. -/
theorem lookup?_eq_iff_chooses (table : AliasTable) (specifier : String) :
    (∀ found, table.lookup? specifier = found ↔ table.Chooses specifier found) ∧
      (∀ expanded external, table.lookup? specifier = some (.pattern expanded external) →
        ∀ key, table.HasKey key → ¬Applies key specifier) ∧
      (∀ key target rest, table.lookup? specifier = some (.literal key target rest) →
        key = "" ∨ rest = "" ∨ ∃ behind, rest = "/" ++ behind) := by
  have iff (found : Option AliasTable.Match) :
      table.lookup? specifier = found ↔ table.Chooses specifier found :=
    ⟨fun equal => equal ▸ table.chooses_lookup? specifier, lookup?_eq_of_chooses⟩
  refine ⟨iff, ?_, ?_⟩
  · intro expanded external found
    cases (iff _).mp found with
    | pattern _ noKey => exact noKey
  · intro key target rest found
    cases (iff _).mp found with
    | literal longest => exact longest.rest_eq

end AliasTable

end ImportAlias
