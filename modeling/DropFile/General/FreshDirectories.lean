import DropFile.General.Files

/-!
# Fresh directories

A directory is removed and created anew, with the directories above it that
are missing.  Later it is removed again, with everything that came into it.
-/

namespace DropFile.General.FreshDirectories

open DropFile.General.PathNames
open DropFile.General.Files
open DropFile.General.Files.FileTree

/-- The locations from a directory down to one below it. -/
theorem between_cons
    {current location : Location} {name : PathName} {rest : List PathName} :
    current <+: location ∧ location <+: current ++ name :: rest ↔
      location = current ∨
        current ++ [name] <+: location ∧
          location <+: current ++ [name] ++ rest := by
  have split : current ++ name :: rest = current ++ [name] ++ rest := by simp
  rw [split]
  constructor
  · rintro ⟨⟨below, rfl⟩, isAbove⟩
    cases below with
    | nil => exact Or.inl (List.append_nil current)
    | cons first below =>
        have isPrefix := isAbove
        rw [List.append_assoc, List.prefix_append_right_inj,
          List.singleton_append, List.cons_prefix_cons] at isPrefix
        right
        constructor
        · exact ⟨below, by simp [isPrefix.1]⟩
        · exact isAbove
  · rintro (rfl | ⟨isBelow, isAbove⟩)
    · exact ⟨List.prefix_refl _, by simp⟩
    · exact ⟨(List.prefix_append _ _).trans isBelow, isAbove⟩

/-- Directories that are missing are created, unless a file is in the way. -/
theorem makeDirectories_missing
    {tree : FileTree} {current : Location} {names : List PathName}
    (isDirectory : tree.node current = some .directory)
    (areNames : ∀ name ∈ names, IsName name)
    (noFile : ∀ done, done <+: names →
      ∀ content, tree.node (current ++ done) ≠ some (.file content)) :
    ∃ final,
      tree.makeDirectories current names = (final, true) ∧
      ∀ location, final.node location =
        if current <+: location ∧ location <+: current ++ names then
          some .directory
        else
          tree.node location := by
  induction names generalizing tree current with
  | nil =>
      refine ⟨tree, rfl, ?_⟩
      intro location
      split_ifs with between
      · rw [List.append_nil] at between
        rw [between.2.eq_of_length_le between.1.length_le, isDirectory]
      · rfl
  | cons name rest inductionHypothesis =>
      have isName := areNames name List.mem_cons_self
      have restNames : ∀ each ∈ rest, IsName each := fun each member =>
        areNames each (List.mem_cons_of_mem name member)
      have deeper : ∀ done, done <+: rest → name :: done <+: name :: rest :=
        fun done isPrefix => List.cons_prefix_cons.2 ⟨rfl, isPrefix⟩
      rw [makeDirectories]
      simp only [isName.nonempty, isName.not_dot, isName.not_dotDot,
        or_self, if_false, between_cons]
      cases here : tree.node (current ++ [name]) with
      | none =>
          have possible := canPlace_concat isName isDirectory
            (by rw [here]; exact (Option.some_ne_none _).symm)
          have placed := node_place possible Node.directory
          have made := @inductionHypothesis
            (tree.place (current ++ [name]) .directory) (current ++ [name])
            (node_place_self possible _) restNames (by
              intro done isPrefix content
              rw [placed]
              split_ifs with top
              · exact fun same => Node.noConfusion (Option.some.inj same)
              · rw [tree.node_below_none here]
                exact (Option.some_ne_none _).symm)
          rcases made with ⟨final, made, nodes⟩
          refine ⟨final, made, ?_⟩
          intro location
          rw [nodes, placed]
          by_cases top : location = current
          · subst top
            have different : location ≠ location ++ [name] := by simp
            rw [if_pos (Or.inl rfl), if_neg different, isDirectory]
            exact ite_self _
          · by_cases below : current ++ [name] <+: location ∧
                location <+: current ++ [name] ++ rest
            · rw [if_pos below, if_pos (Or.inr below)]
            · have different : location ≠ current ++ [name] := by
                rintro rfl
                exact below ⟨List.prefix_refl _, List.prefix_append _ _⟩
              rw [if_neg below, if_neg different,
                if_neg (not_or.2 ⟨top, below⟩)]
      | some node =>
          cases node with
          | file content =>
              exact absurd here
                (noFile [name] (deeper [] List.nil_prefix) content)
          | directory =>
              have made := inductionHypothesis here restNames (by
                intro done isPrefix content
                rw [List.append_assoc]
                exact noFile (name :: done) (deeper done isPrefix) content)
              rcases made with ⟨final, made, nodes⟩
              refine ⟨final, made, ?_⟩
              intro location
              rw [nodes]
              by_cases top : location = current
              · subst top
                rw [if_pos (Or.inl rfl), isDirectory]
                exact ite_self _
              · by_cases below : current ++ [name] <+: location ∧
                    location <+: current ++ [name] ++ rest
                · rw [if_pos below, if_pos (Or.inr below)]
                · rw [if_neg below, if_neg (not_or.2 ⟨top, below⟩)]

/-- `final` has an empty directory at `location`, and is `tree` elsewhere. -/
structure Renewed (tree : FileTree) (location : Location)
    (final : FileTree) : Prop where
  empty : ∀ other, location <+: other → other ≠ location →
    final.node other = none
  holders : ∀ other, other <+: location → final.node other = some .directory
  others : ∀ other, ¬ location <+: other → ¬ other <+: location →
    final.node other = tree.node other

/-- `final` has nothing at `location`, and is `tree` elsewhere. -/
structure Retired (tree : FileTree) (location : Location)
    (final : FileTree) : Prop where
  gone : ∀ other, location <+: other → final.node other = none
  holders : ∀ other, other <+: location → other ≠ location →
    final.node other = some .directory
  others : ∀ other, ¬ location <+: other → ¬ other <+: location →
    final.node other = tree.node other

/-- Remove the directory at the end of the names and create it anew. -/
def renew (tree : FileTree) (current : Location) (names : List PathName) :
    FileTree :=
  ((tree.removeAll (current ++ names)).makeDirectories current names).1

theorem renew_spec
    {tree : FileTree} {current : Location} {names : List PathName}
    (isDirectory : tree.node current = some .directory)
    (areNames : ∀ name ∈ names, IsName name)
    (nonempty : names ≠ [])
    (noFile : ∀ done, done <+: names → done ≠ names →
      ∀ content, tree.node (current ++ done) ≠ some (.file content)) :
    (tree.removeAll (current ++ names)).makeDirectories current names =
        (renew tree current names, true) ∧
      Renewed tree (current ++ names) (renew tree current names) := by
  have notRoot : current ++ names ≠ [] := by simp [nonempty]
  have removed (other : Location) :
      (tree.removeAll (current ++ names)).node other =
        if current ++ names <+: other ∧ current ++ names ≠ [] then none
        else tree.node other := rfl
  have atTop : ¬ current ++ names <+: current := by
    intro isPrefix
    have shorter := isPrefix.length_le
    have positive := List.length_pos_iff.2 nonempty
    rw [List.length_append] at shorter
    omega
  have made := @makeDirectories_missing
    (tree.removeAll (current ++ names)) current names
    (by rw [node_removeAll_outside _ atTop, isDirectory]) areNames (by
      intro done isPrefix content
      rw [removed]
      split_ifs with below
      · exact (Option.some_ne_none _).symm
      · apply noFile done isPrefix
        rintro rfl
        exact below ⟨List.prefix_refl _, notRoot⟩)
  rcases made with ⟨final, made, nodes⟩
  have same : renew tree current names = final := congrArg Prod.fst made
  rw [same]
  refine ⟨made, ?_⟩
  constructor
  · intro other below different
    rw [nodes, if_neg, removed, if_pos ⟨below, notRoot⟩]
    rintro ⟨-, isAbove⟩
    exact different (isAbove.eq_of_length_le below.length_le)
  · intro other isAbove
    rw [nodes]
    split_ifs with between
    · rfl
    · have higher : other <+: current := by
        rcases List.prefix_or_prefix_of_prefix isAbove
          (List.prefix_append current names) with higher | lower
        · exact higher
        · exact absurd ⟨lower, isAbove⟩ between
      have outside : ¬ current ++ names <+: other := fun below =>
        atTop (below.trans higher)
      rw [node_removeAll_outside _ outside]
      rcases higher with ⟨below, rfl⟩
      by_cases top : below = []
      · rw [top, List.append_nil] at isDirectory
        exact isDirectory
      · exact tree.ancestor_isDirectory below
          (by rw [isDirectory]; exact Option.some_ne_none _) top
  · intro other outside notAbove
    rw [nodes, if_neg fun between => notAbove between.2,
      node_removeAll_outside _ outside]

namespace Renewed

variable {tree final : FileTree} {location : Location}
variable (renewed : Renewed tree location final)
include renewed

theorem isDirectory : final.node location = some .directory :=
  renewed.holders location (List.prefix_refl _)

/-- Directories elsewhere stay. -/
theorem directory
    {other : Location}
    (outside : ¬ location <+: other)
    (isDirectory : tree.node other = some .directory) :
    final.node other = some .directory := by
  by_cases isAbove : other <+: location
  · exact renewed.holders other isAbove
  · rw [renewed.others other outside isAbove, isDirectory]

/-- A path to a directory leads there still, if it came from elsewhere. -/
theorem resolve
    {workingDirectory other : Location} {path : PathName}
    (resolved : tree.resolve workingDirectory path = some other)
    (isDirectory : tree.node other = some .directory)
    (spared : ∀ each ∈ tree.way workingDirectory path,
      ¬ location <+: each) :
    final.resolve workingDirectory path = some other := by
  rw [← resolved]
  apply resolve_of_way
  intro each member
  have eachIsDirectory : tree.node each = some .directory := by
    rcases (mem_way resolved).2 each member with rfl | isDirectory
    · exact isDirectory
    · exact isDirectory
  rw [renewed.directory (spared each member) eachIsDirectory,
    eachIsDirectory]

/-- A subtree beside the directory stays. -/
theorem below
    {origin : Location}
    (outside : ¬ location <+: origin)
    (apart : ¬ origin <+: location)
    (rest : Location) :
    final.node (origin ++ rest) = tree.node (origin ++ rest) := by
  apply renewed.others
  · intro isBelow
    rcases List.prefix_or_prefix_of_prefix isBelow
      (List.prefix_append origin rest) with isAbove | isAbove
    · exact outside isAbove
    · exact apart isAbove
  · intro isAbove
    exact apart ((List.prefix_append origin rest).trans isAbove)

/-- When it is removed, everything that came into it goes with it. -/
theorem removeAll
    {later : FileTree}
    (notRoot : location ≠ [])
    (same : ∀ other, ¬ location <+: other →
      later.node other = final.node other) :
    Retired tree location (later.removeAll location) := by
  constructor
  · intro other isBelow
    exact if_pos ⟨isBelow, notRoot⟩
  · intro other isAbove different
    have outside : ¬ location <+: other := fun isBelow =>
      different (isAbove.eq_of_length_le isBelow.length_le)
    rw [node_removeAll_outside _ outside, same other outside]
    exact renewed.holders other isAbove
  · intro other outside notAbove
    rw [node_removeAll_outside _ outside, same other outside]
    exact renewed.others other outside notAbove

end Renewed

/-! ## What is left in the end -/

/-- Removing a file keeps the directories. -/
theorem directory_removeAll_file
    {tree : FileTree} {location other : Location} {content : List UInt8}
    (isFile : tree.node location = some (.file content))
    (isDirectory : tree.node other = some .directory) :
    (tree.removeAll location).node other = some .directory := by
  rw [node_removeAll_outside, isDirectory]
  rintro ⟨below, rfl⟩
  by_cases proper : below = []
  · rw [proper, List.append_nil, isFile] at isDirectory
    cases isDirectory
  · have above := tree.ancestor_isDirectory below
      (by rw [isDirectory]; exact Option.some_ne_none _) proper
    rw [isFile] at above
    cases above

theorem removeAll_removeAll
    {tree : FileTree} {top location : Location}
    (notRoot : top ≠ [])
    (below : top <+: location) :
    (tree.removeAll location).removeAll top = tree.removeAll top := by
  apply FileTree.ext
  intro other
  by_cases inside : top <+: other
  · exact (if_pos ⟨inside, notRoot⟩).trans (if_pos ⟨inside, notRoot⟩).symm
  · rw [node_removeAll_outside _ inside,
      node_removeAll_outside _ inside, node_removeAll_outside]
    intro above
    exact inside (below.trans above)

/-- A copy stays a copy when a directory next to it is removed. -/
theorem isCopy_removeAll
    {source target other final : FileTree} {origin goal top : Location}
    (copy : IsCopy source origin target goal final)
    (same : ∀ location, ¬ top <+: location →
      target.node location = other.node location)
    (outside : ¬ top <+: goal)
    (apart : ¬ goal <+: top) :
    IsCopy source origin (other.removeAll top) goal
      (final.removeAll top) where
  inside := by
    intro below
    rw [node_removeAll_outside, copy.inside]
    intro isPrefix
    rcases List.prefix_or_prefix_of_prefix isPrefix
      (List.prefix_append goal below) with above | above
    · exact outside above
    · exact apart above
  outside := by
    intro location elsewhere
    have notRoot : top ≠ [] := by
      rintro rfl
      exact outside List.nil_prefix
    by_cases inside : top <+: location
    · exact (if_pos ⟨inside, notRoot⟩).trans
        (if_pos ⟨inside, notRoot⟩).symm
    · rw [node_removeAll_outside _ inside,
        node_removeAll_outside _ inside, copy.outside _ elsewhere,
        same _ inside]

end DropFile.General.FreshDirectories
