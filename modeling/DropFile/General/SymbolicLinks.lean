import DropFile.General.Files

/-!
# Symbolic links

Links in a file tree.  A link stands at a location and leads to another one,
where something may be or not.  Whoever comes to a link goes on from where it
leads.
-/

namespace DropFile.General.SymbolicLinks

open DropFile.General.PathNames
open DropFile.General.Files
open DropFile.General.Files.FileTree

/-- The links beside what a tree holds. -/
structure Links where
  /-- Where the link at a location leads, if there is one. -/
  target : Location → Option Location
  named : ∀ location name,
    target (location ++ [name]) ≠ none → IsName name

namespace Links

/-- No links at all. -/
def nowhere : Links where
  target _ := none
  named _ _ present := absurd rfl present

variable (links : Links)

/-- What a location leads to, which is itself unless there is a link. -/
def follow (location : Location) : Location :=
  (links.target location).getD location

/-- The location that a walk through components ends at. -/
def walk (tree : FileTree) : Location → List PathName → Option Location
  | current, [] => some current
  | current, component :: rest =>
      if tree.node current = some .directory then
        if component = [] ∨ component = dot then
          walk tree current rest
        else if component = dotDot then
          walk tree current.dropLast rest
        else
          walk tree (links.follow (current ++ [component])) rest
      else
        none

/-- The location that a path name means in a working directory. -/
def resolve (tree : FileTree) (workingDirectory : Location)
    (path : PathName) : Option Location :=
  if native path = [] then
    none
  else
    links.walk tree (if isAbsolute (native path) then [] else workingDirectory)
      (components (native path))

/-- Where the names of entries lead, one after the other. -/
def descend (tree : FileTree) : Location → List PathName → Option Location
  | current, [] => some current
  | current, name :: rest =>
      if tree.node current = some .directory then
        descend tree (links.follow (current ++ [name])) rest
      else
        none

/-! ## Walking -/

section Walking

variable {links} {tree other : FileTree} {workingDirectory base : Location}
variable {left right name : PathName}

theorem walk_append (current : Location) (first second : List PathName) :
    links.walk tree current (first ++ second) =
      (links.walk tree current first).bind fun middle =>
        links.walk tree middle second := by
  induction first generalizing current with
  | nil => rfl
  | cons component rest inductionHypothesis =>
      rw [List.cons_append, walk, walk]
      split_ifs with isDirectory
      · exact inductionHypothesis _
      · exact inductionHypothesis _
      · exact inductionHypothesis _
      · rfl

theorem walk_name
    {current : Location}
    (isDirectory : tree.node current = some .directory)
    (isName : IsName name) :
    links.walk tree current [name] =
      some (links.follow (current ++ [name])) := by
  simp [walk, isDirectory, isName.nonempty, isName.not_dot,
    isName.not_dotDot]

/-- Only the directories decide where a walk leads. -/
theorem walk_of_directories
    (same : ∀ location, other.node location = some .directory ↔
      tree.node location = some .directory)
    (current : Location) (components : List PathName) :
    links.walk other current components =
      links.walk tree current components := by
  induction components generalizing current with
  | nil => rfl
  | cons component rest inductionHypothesis =>
      simp only [walk, same, inductionHypothesis]

theorem resolve_of_directories
    (same : ∀ location, other.node location = some .directory ↔
      tree.node location = some .directory)
    (path : PathName) :
    links.resolve other workingDirectory path =
      links.resolve tree workingDirectory path := by
  rw [resolve, resolve]
  simp only [walk_of_directories same]

theorem resolve_ne_nil
    {path : PathName}
    (resolved : links.resolve tree workingDirectory path = some base) :
    path ≠ [] := by
  rintro rfl
  simp [resolve, native] at resolved

/-- A relative path is walked from the directory it is joined to. -/
theorem resolve_join
    (resolved : links.resolve tree workingDirectory left = some base)
    (leftNoNul : 0 ∉ left) (rightNoNul : 0 ∉ right)
    (relative : isAbsolute right = false) :
    links.resolve tree workingDirectory (join left right) =
      links.walk tree base (components right) := by
  have nonempty := resolve_ne_nil resolved
  have joinedNonempty : join left right ≠ [] := fun joined =>
    nonempty (join_eq_nil joined).1
  rw [resolve, native_of_no_nul leftNoNul, if_neg nonempty] at resolved
  rw [resolve, native_of_no_nul (no_nul_join leftNoNul rightNoNul),
    if_neg joinedNonempty, isAbsolute_join relative]
  rcases components_join left relative with
    joined | ⟨before, split, joined⟩
  · rw [joined, walk_append, resolved]
    rfl
  · rw [split, walk_append] at resolved
    rcases Option.bind_eq_some_iff.1 resolved with ⟨middle, toMiddle, last⟩
    have middleEq : middle = base := by
      rw [walk] at last
      split_ifs at last with _ skipped
      · simpa [walk] using last
      all_goals simp at skipped
    rw [joined, walk_append, toMiddle, middleEq]
    rfl

/-- A name below a directory leads to its entry, or on through a link. -/
theorem resolve_join_name
    (resolved : links.resolve tree workingDirectory left = some base)
    (isDirectory : tree.node base = some .directory)
    (noNul : 0 ∉ left)
    (isName : IsName name) :
    links.resolve tree workingDirectory (join left name) =
      some (links.follow (base ++ [name])) := by
  rw [resolve_join resolved noNul isName.no_nul
      (isAbsolute_of_no_slash isName.no_slash),
    components_of_no_slash isName.no_slash]
  exact walk_name isDirectory isName

end Walking

/-! ## The tree that is seen through the links -/

section Seen

variable {links} {tree other : FileTree} {source : Location}

theorem descend_append
    (current : Location) (first second : List PathName) :
    links.descend tree current (first ++ second) =
      (links.descend tree current first).bind fun middle =>
        links.descend tree middle second := by
  induction first generalizing current with
  | nil => rfl
  | cons name rest inductionHypothesis =>
      rw [List.cons_append, descend, descend]
      split_ifs with isDirectory
      · exact inductionHypothesis _
      · rfl

/-- One name further down. -/
theorem descend_concat
    {below : List PathName} {location : Location}
    (leads : links.descend tree source below = some location)
    (isDirectory : tree.node location = some .directory)
    (name : PathName) :
    links.descend tree source (below ++ [name]) =
      some (links.follow (location ++ [name])) := by
  rw [descend_append, leads, Option.bind_some, descend,
    if_pos isDirectory, descend]

/-- Only the directories decide where the names lead. -/
theorem descend_of_directories
    (same : ∀ location, other.node location = some .directory ↔
      tree.node location = some .directory)
    (current : Location) (below : List PathName) :
    links.descend other current below =
      links.descend tree current below := by
  induction below generalizing current with
  | nil => rfl
  | cons name rest inductionHypothesis =>
      simp only [descend, same, inductionHypothesis]

/-- Names lead nowhere but where every single step leads. -/
theorem descend_within
    {within : Location → Prop} {below : List PathName} {location : Location}
    (start : within source)
    (goesOn : ∀ current name, within current →
      within (links.follow (current ++ [name])))
    (leads : links.descend tree source below = some location) :
    within location := by
  induction below generalizing source with
  | nil =>
      cases leads
      exact start
  | cons name rest inductionHypothesis =>
      rw [descend] at leads
      split_ifs at leads
      exact inductionHypothesis (goesOn source name start) leads

/-- What is found at the end of some names. -/
def found (links : Links) (tree : FileTree) (source : Location)
    (below : List PathName) : Option Node :=
  (links.descend tree source below).bind tree.node

theorem found_of_descend
    {below : List PathName} {location : Location}
    (leads : links.descend tree source below = some location) :
    links.found tree source below = tree.node location := by
  rw [found, leads, Option.bind_some]

/-- Something is found behind a name only in a directory. -/
theorem found_concat
    {below : List PathName} {name : PathName}
    (present : links.found tree source (below ++ [name]) ≠ none) :
    ∃ location, links.descend tree source below = some location ∧
      tree.node location = some .directory ∧
      tree.node (links.follow (location ++ [name])) ≠ none := by
  rw [found, descend_append] at present
  cases leads : links.descend tree source below with
  | none =>
      rw [leads] at present
      exact absurd rfl present
  | some location =>
      rw [leads, Option.bind_some, descend] at present
      split_ifs at present with isDirectory
      · exact ⟨location, rfl, isDirectory, present⟩
      · exact absurd rfl present

/--
The tree below a directory as it looks to someone who follows every link.  It
may go on for ever.
-/
def seen (links : Links) (tree : FileTree) (source : Location)
    (isDirectory : tree.node source = some .directory) : FileTree where
  node := links.found tree source
  root := isDirectory
  parent := by
    intro below name present
    rcases found_concat present with ⟨location, leads, holder, -⟩
    rw [found_of_descend leads, holder]
  named := by
    intro below name present
    rcases found_concat present with ⟨location, -, -, isThere⟩
    cases isLink : links.target (location ++ [name]) with
    | none =>
        rw [follow, isLink] at isThere
        exact tree.named location name isThere
    | some target =>
        apply links.named location name
        rw [isLink]
        exact Option.some_ne_none _

end Seen

/-! ## Without links -/

section Nowhere

variable {tree : FileTree}

theorem walk_nowhere (current : Location) (components : List PathName) :
    nowhere.walk tree current components =
      tree.walk current components := by
  induction components generalizing current with
  | nil => rfl
  | cons component rest inductionHypothesis =>
      simp only [walk, FileTree.walk, inductionHypothesis]
      rfl

theorem resolve_nowhere (workingDirectory : Location) (path : PathName) :
    nowhere.resolve tree workingDirectory path =
      tree.resolve workingDirectory path := by
  rw [resolve, FileTree.resolve, walk_nowhere]

/-- Without links the names lead straight down. -/
theorem descend_nowhere
    {source location : Location} {below : List PathName}
    (leads : nowhere.descend tree source below = some location) :
    location = source ++ below := by
  induction below generalizing source with
  | nil =>
      cases leads
      exact (List.append_nil _).symm
  | cons name rest inductionHypothesis =>
      rw [descend] at leads
      split_ifs at leads
      rw [inductionHypothesis leads]
      exact List.append_assoc _ [name] rest

/-- Without links every directory below is found by its names. -/
theorem descend_nowhere_of_directory
    {source : Location} {below : List PathName}
    (isDirectory : tree.node (source ++ below) = some .directory) :
    nowhere.descend tree source below = some (source ++ below) := by
  induction below generalizing source with
  | nil =>
      rw [List.append_nil]
      rfl
  | cons name rest inductionHypothesis =>
      have holder : tree.node source = some .directory :=
        tree.ancestor_isDirectory (name :: rest)
          (by rw [isDirectory]; simp) (by simp)
      have split : source ++ name :: rest = source ++ [name] ++ rest :=
        (List.append_assoc source [name] rest).symm
      rw [split] at isDirectory ⊢
      rw [descend, if_pos holder]
      exact inductionHypothesis isDirectory

theorem descend_nowhere_concat
    {source : Location} {below : List PathName}
    (isDirectory : tree.node (source ++ below) = some .directory)
    (name : PathName) :
    nowhere.descend tree source (below ++ [name]) =
      some (source ++ below ++ [name]) :=
  descend_concat (descend_nowhere_of_directory isDirectory) isDirectory name

end Nowhere

end Links

end DropFile.General.SymbolicLinks
