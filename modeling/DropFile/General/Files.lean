import DropFile.General.PathNames
import Mathlib.Data.List.Induction
import Mathlib.Data.List.TakeWhile

/-!
# File trees and path resolution

A file tree maps every location, a list of names from the root, to what is
there.  The root is a directory, whatever holds an entry is a directory, and
entries have proper names; these facts are part of the structure, so that an
operation cannot leave a file without its directory.  There are no symbolic
links.

Resolution walks through the components of a path name from a working
directory, as the kernel does: every component but the last has to lead to a
directory, and a name ends at its first NUL byte.
-/

namespace DropFile.General.Files

open DropFile.General.PathNames

/-- What a location holds. -/
inductive Node where
  | directory
  | file (content : List UInt8)
deriving DecidableEq, Repr

abbrev Location := List PathName

structure FileTree where
  node : Location → Option Node
  root : node [] = some .directory
  parent :
    ∀ location name,
      node (location ++ [name]) ≠ none → node location = some .directory
  named :
    ∀ location name, node (location ++ [name]) ≠ none → IsName name

namespace FileTree

@[ext]
theorem ext
    {left right : FileTree}
    (same : ∀ location, left.node location = right.node location) :
    left = right := by
  cases left
  cases right
  congr
  exact funext same

/-- A tree with nothing but its root. -/
def empty : FileTree where
  node location := if location = [] then some .directory else none
  root := rfl
  parent location name present := by simp at present
  named location name present := by simp at present

theorem ancestor_isDirectory
    (tree : FileTree)
    {location : Location} (below : Location)
    (present : tree.node (location ++ below) ≠ none)
    (proper : below ≠ []) :
    tree.node location = some .directory := by
  induction below using List.reverseRecOn with
  | nil => exact absurd rfl proper
  | append_singleton below name inductionHypothesis =>
      rw [← List.append_assoc] at present
      have holder := tree.parent (location ++ below) name present
      by_cases top : below = []
      · simpa [top] using holder
      · exact inductionHypothesis (by simp [holder]) top

/-- Nothing is below a location that is free. -/
theorem node_below_none
    (tree : FileTree)
    {location : Location}
    (free : tree.node location = none)
    (below : Location) :
    tree.node (location ++ below) = none := by
  by_contra present
  by_cases top : below = []
  · subst top
    rw [List.append_nil] at present
    exact present free
  · have directory := tree.ancestor_isDirectory below present top
    rw [free] at directory
    cases directory

theorem dropLast_isDirectory
    {tree : FileTree} {location : Location}
    (isDirectory : tree.node location = some .directory) :
    tree.node location.dropLast = some .directory := by
  rcases List.eq_nil_or_concat location with rfl | ⟨holder, name, rfl⟩
  · exact isDirectory
  · rw [List.concat_eq_append] at isDirectory ⊢
    rw [List.dropLast_concat]
    apply tree.parent holder name
    rw [isDirectory]
    exact Option.some_ne_none _

/-! ## Placing and removing -/

/-- A location where a file or an empty directory can be put. -/
def CanPlace (tree : FileTree) (location : Location) : Prop :=
  location ≠ [] ∧ IsName (location.getLastD []) ∧
    tree.node location.dropLast = some .directory ∧
    tree.node location ≠ some .directory

instance (tree : FileTree) (location : Location) :
    Decidable (tree.CanPlace location) :=
  inferInstanceAs (Decidable (_ ∧ _ ∧ _ ∧ _))

/-- Put a file or an empty directory at a location, if that is possible. -/
def place (tree : FileTree) (location : Location) (new : Node) :
    FileTree :=
  if possible : tree.CanPlace location then
    { node := fun other =>
        if other = location then some new else tree.node other
      root := by
        rw [if_neg possible.1.symm]
        exact tree.root
      parent := by
        intro other name present
        by_cases placed : other ++ [name] = location
        · subst placed
          have holder := possible.2.2.1
          rw [List.dropLast_concat] at holder
          rw [if_neg (by simp), holder]
        · rw [if_neg placed] at present
          have holder := tree.parent other name present
          have different : other ≠ location := by
            rintro rfl
            exact possible.2.2.2 holder
          rw [if_neg different, holder]
      named := by
        intro other name present
        by_cases placed : other ++ [name] = location
        · subst placed
          simpa using possible.2.1
        · rw [if_neg placed] at present
          exact tree.named other name present }
  else
    tree

theorem node_place
    {tree : FileTree} {location : Location}
    (possible : tree.CanPlace location)
    (new : Node) (other : Location) :
    (tree.place location new).node other =
      if other = location then some new else tree.node other := by
  rw [place, dif_pos possible]

theorem node_place_self
    {tree : FileTree} {location : Location}
    (possible : tree.CanPlace location)
    (new : Node) :
    (tree.place location new).node location = some new := by
  rw [node_place possible, if_pos rfl]

theorem node_place_other
    (tree : FileTree) {location other : Location}
    (new : Node)
    (different : other ≠ location) :
    (tree.place location new).node other = tree.node other := by
  unfold place
  split_ifs with possible
  · exact if_neg different
  · rfl

/-- Where a file can be put, another one can be put after it. -/
theorem CanPlace.place
    {tree : FileTree} {location : Location}
    (possible : tree.CanPlace location)
    (content : List UInt8) :
    (tree.place location (.file content)).CanPlace location := by
  have holderElsewhere : location.dropLast ≠ location := fun same =>
    possible.2.2.2 (same ▸ possible.2.2.1)
  refine ⟨possible.1, possible.2.1, ?_, ?_⟩
  · rw [node_place_other tree _ holderElsewhere]
    exact possible.2.2.1
  · rw [node_place_self possible]
    simp

/-- Only the last of two nodes put at one location remains. -/
theorem place_place
    {tree : FileTree} {location : Location}
    (possible : tree.CanPlace location)
    (content : List UInt8) (new : Node) :
    (tree.place location (.file content)).place location new =
      tree.place location new := by
  ext other : 1
  rw [node_place (possible.place content), node_place possible,
    node_place possible]
  split_ifs <;> rfl

/-- Filling a location that is no directory keeps every directory. -/
theorem directory_place
    {tree : FileTree} {location other : Location} {new : Node}
    (notDirectory : tree.node location ≠ some .directory)
    (isDirectory : tree.node other = some .directory) :
    (tree.place location new).node other = some .directory := by
  have different : other ≠ location := by
    rintro rfl
    exact notDirectory isDirectory
  rw [node_place_other tree new different, isDirectory]

theorem canPlace_concat
    {tree : FileTree} {location : Location} {name : PathName}
    (isName : IsName name)
    (holder : tree.node location = some .directory)
    (notDirectory : tree.node (location ++ [name]) ≠ some .directory) :
    tree.CanPlace (location ++ [name]) := by
  refine ⟨by simp, by simpa using isName, ?_, notDirectory⟩
  rwa [List.dropLast_concat]

/-- Remove a location other than the root and everything below it. -/
def removeAll (tree : FileTree) (location : Location) : FileTree where
  node other :=
    if location <+: other ∧ location ≠ [] then none else tree.node other
  root := by
    rw [if_neg]
    · exact tree.root
    · rintro ⟨isPrefix, nonempty⟩
      exact nonempty (List.prefix_nil.1 isPrefix)
  parent other name present := by
    by_cases removed : location <+: other ++ [name] ∧ location ≠ []
    · exact absurd (if_pos removed) present
    · rw [if_neg removed] at present
      have kept : ¬ (location <+: other ∧ location ≠ []) := fun below =>
        removed ⟨below.1.trans (List.prefix_append _ _), below.2⟩
      rw [if_neg kept]
      exact tree.parent other name present
  named other name present := by
    split_ifs at present
    · exact absurd rfl present
    · exact tree.named other name present

theorem node_removeAll_outside
    (tree : FileTree) {location other : Location}
    (outside : ¬ location <+: other) :
    (tree.removeAll location).node other = tree.node other :=
  if_neg fun removed => outside removed.1

/-! ## Walking -/

/-- The location that a walk through components ends at. -/
def walk (tree : FileTree) : Location → List PathName → Option Location
  | current, [] => some current
  | current, component :: rest =>
      if tree.node current = some .directory then
        if component = [] ∨ component = dot then
          tree.walk current rest
        else if component = dotDot then
          tree.walk current.dropLast rest
        else
          tree.walk (current ++ [component]) rest
      else
        none

/-- The part of a path name that a system call sees. -/
def native (path : PathName) : PathName :=
  path.takeWhile (· ≠ 0)

/--
The location that a path name means in a working directory.  The location may
be free; then only its directory exists.
-/
def resolve (tree : FileTree) (workingDirectory : Location)
    (path : PathName) : Option Location :=
  if native path = [] then
    none
  else
    tree.walk (if isAbsolute (native path) then [] else workingDirectory)
      (components (native path))

theorem walk_append
    (tree : FileTree) (current : Location)
    (left right : List PathName) :
    tree.walk current (left ++ right) =
      (tree.walk current left).bind fun middle =>
        tree.walk middle right := by
  induction left generalizing current with
  | nil => rfl
  | cons component rest inductionHypothesis =>
      rw [List.cons_append, walk, walk]
      split_ifs with isDirectory
      · exact inductionHypothesis _
      · exact inductionHypothesis _
      · exact inductionHypothesis _
      · rfl

/-- A plain name leads from a directory to its entry. -/
theorem walk_name
    {tree : FileTree} {current : Location} {name : PathName}
    (isDirectory : tree.node current = some .directory)
    (isName : IsName name) :
    tree.walk current [name] = some (current ++ [name]) := by
  simp [walk, isDirectory, isName.nonempty, isName.not_dot,
    isName.not_dotDot]

/-- Plain names lead to the location below, if its directory exists. -/
theorem walk_names
    {tree : FileTree} {current : Location} {names : List PathName}
    {name : PathName}
    (holder : tree.node (current ++ names) = some .directory)
    (areNames : ∀ each ∈ names ++ [name], IsName each) :
    tree.walk current (names ++ [name]) =
      some (current ++ (names ++ [name])) := by
  induction names generalizing current with
  | nil =>
      rw [List.append_nil] at holder
      exact walk_name holder (areNames name (by simp))
  | cons first rest inductionHypothesis =>
      have isDirectory : tree.node current = some .directory :=
        tree.ancestor_isDirectory (first :: rest)
          (by rw [holder]; simp) (by simp)
      have isName : IsName first := areNames first (by simp)
      have split : first :: rest ++ [name] = [first] ++ (rest ++ [name]) :=
        rfl
      rw [split, walk_append, walk_name isDirectory isName,
        Option.bind_some,
        inductionHypothesis (by simpa using holder)
          fun each member =>
            areNames each (List.mem_cons_of_mem first member)]
      simp

/-- A walk depends on nothing but the directories. -/
theorem walk_of_directories
    {tree other : FileTree} {current final : Location}
    {names : List PathName}
    (kept : ∀ location, tree.node location = some .directory →
      other.node location = some .directory)
    (walked : tree.walk current names = some final) :
    other.walk current names = some final := by
  induction names generalizing current with
  | nil => exact walked
  | cons component rest inductionHypothesis =>
      rw [walk] at walked ⊢
      split_ifs at walked with isDirectory skipped upwards
      · rw [if_pos (kept current isDirectory), if_pos skipped]
        exact inductionHypothesis walked
      · rw [if_pos (kept current isDirectory), if_neg skipped,
          if_pos upwards]
        exact inductionHypothesis walked
      · rw [if_pos (kept current isDirectory), if_neg skipped,
          if_neg upwards]
        exact inductionHypothesis walked

theorem native_of_no_nul
    {path : PathName}
    (noNul : 0 ∉ path) :
    native path = path := by
  rw [native, List.takeWhile_eq_self_iff]
  intro byte member
  rw [decide_eq_true_eq]
  rintro rfl
  exact noNul member

theorem resolve_of_directories
    (other : FileTree) {tree : FileTree}
    {workingDirectory final : Location}
    {path : PathName}
    (kept : ∀ location, tree.node location = some .directory →
      other.node location = some .directory)
    (resolved : tree.resolve workingDirectory path = some final) :
    other.resolve workingDirectory path = some final := by
  rw [resolve] at resolved ⊢
  by_cases empty : native path = []
  · rw [if_pos empty] at resolved
    cases resolved
  · rw [if_neg empty] at resolved ⊢
    exact walk_of_directories kept resolved

/-- A joined path first leads to where its left part leads. -/
theorem walk_join
    {tree : FileTree} {workingDirectory base : Location}
    {left right : PathName}
    (resolved : tree.resolve workingDirectory left = some base)
    (noNul : 0 ∉ left)
    (relative : isAbsolute right = false) :
    ∃ leading,
      components (join left right) = leading ++ components right ∧
        tree.walk (if isAbsolute left then [] else workingDirectory)
          leading = some base := by
  rw [resolve, native_of_no_nul noNul] at resolved
  have empty : left ≠ [] := by
    rintro rfl
    simp at resolved
  rw [if_neg empty] at resolved
  rcases components_join left relative with
    joined | ⟨before, split, joined⟩
  · exact ⟨components left, joined, resolved⟩
  · refine ⟨before, joined, ?_⟩
    rw [split, walk_append] at resolved
    obtain ⟨middle, toMiddle, last⟩ := Option.bind_eq_some_iff.1 resolved
    have middleEq : middle = base := by
      rw [walk] at last
      split_ifs at last with _ skipped
      · simpa [walk] using last
      all_goals simp at skipped
    rw [toMiddle, middleEq]

theorem no_nul_join
    {left right : PathName}
    (leftNoNul : 0 ∉ left) (rightNoNul : 0 ∉ right) :
    0 ∉ join left right := by
  intro member
  rcases mem_join member with inLeft | same | inRight
  · exact leftNoNul inLeft
  · exact absurd same (by decide)
  · exact rightNoNul inRight

theorem resolve_ne_nil
    {tree : FileTree} {workingDirectory base : Location} {path : PathName}
    (resolved : tree.resolve workingDirectory path = some base) :
    path ≠ [] := by
  rintro rfl
  simp [resolve, native] at resolved

/-- A relative path is walked from the directory it is joined to. -/
theorem resolve_join
    {tree : FileTree} {workingDirectory base : Location}
    {left right : PathName}
    (resolved : tree.resolve workingDirectory left = some base)
    (leftNoNul : 0 ∉ left) (rightNoNul : 0 ∉ right)
    (relative : isAbsolute right = false) :
    tree.resolve workingDirectory (join left right) =
      tree.walk base (components right) := by
  have joinedNonempty : join left right ≠ [] := fun joined =>
    resolve_ne_nil resolved (join_eq_nil joined).1
  obtain ⟨leading, split, walked⟩ :=
    walk_join resolved leftNoNul relative
  rw [resolve, native_of_no_nul (no_nul_join leftNoNul rightNoNul),
    if_neg joinedNonempty, isAbsolute_join relative, split, walk_append,
    walked]
  rfl

/-- A path whose last component is no name leads to a directory. -/
theorem isDirectory_of_not_ordinary
    {tree : FileTree} {workingDirectory final : Location} {path : PathName}
    (resolved : tree.resolve workingDirectory path = some final)
    (noNul : 0 ∉ path)
    (noName : ¬ Ordinary (filename path)) :
    tree.node final = some .directory := by
  have nonempty := resolve_ne_nil resolved
  rw [resolve, native_of_no_nul noNul, if_neg nonempty] at resolved
  generalize (if isAbsolute path = true then [] else workingDirectory) =
    start at resolved
  rcases List.eq_nil_or_concat (components path) with
    empty | ⟨before, name, isLast⟩
  · exact absurd empty (components_ne_nil path)
  · rw [List.concat_eq_append] at isLast
    have isFilename : filename path = name := by
      simp [filename, isLast]
    rw [isFilename] at noName
    rw [isLast, walk_append] at resolved
    rcases Option.bind_eq_some_iff.1 resolved with ⟨current, -, last⟩
    rw [walk] at last
    split_ifs at last with isDirectory skipped up
    · cases last
      exact isDirectory
    · cases last
      exact dropLast_isDirectory isDirectory
    · rw [not_or] at skipped
      exact absurd ⟨skipped.1, skipped.2, up⟩ noName

/-- The path of a directory with the name of an entry leads to the entry. -/
theorem resolve_join_name
    {tree : FileTree} {workingDirectory base : Location}
    {left name : PathName}
    (resolved : tree.resolve workingDirectory left = some base)
    (isDirectory : tree.node base = some .directory)
    (noNul : 0 ∉ left)
    (isName : IsName name) :
    tree.resolve workingDirectory (join left name) =
      some (base ++ [name]) := by
  rw [resolve_join resolved noNul isName.no_nul
      (isAbsolute_of_no_slash isName.no_slash),
    components_of_no_slash isName.no_slash]
  exact walk_name isDirectory isName

/-- Resolving plain names below a directory that resolves. -/
theorem resolve_joinNames
    {tree : FileTree} {workingDirectory base : Location}
    {left : PathName} {names : List PathName} {name : PathName}
    (resolved : tree.resolve workingDirectory left = some base)
    (noNul : 0 ∉ left)
    (holder : tree.node (base ++ names) = some .directory)
    (areNames : ∀ each ∈ names ++ [name], IsName each) :
    tree.resolve workingDirectory
        (join left (joinNames (names ++ [name]))) =
      some (base ++ (names ++ [name])) := by
  have nonempty : names ++ [name] ≠ [] := by simp
  rw [resolve_join resolved noNul
    (no_nul_joinNames areNames) (isAbsolute_joinNames nonempty areNames),
    components_joinNames nonempty areNames, walk_names holder areNames]

/-! ## Creating directories -/

/--
Walk through components and create the directories that are missing.  The
flag tells whether the walk met a file where it needed a directory; what was
created before stays.
-/
def makeDirectories :
    FileTree → Location → List PathName → FileTree × Bool
  | tree, _, [] => (tree, true)
  | tree, current, component :: rest =>
      if component = [] ∨ component = dot then
        makeDirectories tree current rest
      else if component = dotDot then
        makeDirectories tree current.dropLast rest
      else
        match tree.node (current ++ [component]) with
        | some .directory =>
            makeDirectories tree (current ++ [component]) rest
        | some (.file _) => (tree, false)
        | none =>
            makeDirectories
              (tree.place (current ++ [component]) .directory)
              (current ++ [component]) rest

/-- Where a walk already leads there is nothing to create. -/
theorem makeDirectories_walk
    {tree : FileTree} {current final : Location}
    {names : List PathName}
    (walked : tree.walk current names = some final)
    (isDirectory : tree.node final = some .directory)
    (rest : List PathName) :
    tree.makeDirectories current (names ++ rest) =
      tree.makeDirectories final rest := by
  induction names generalizing current with
  | nil =>
      cases walked
      rfl
  | cons component names inductionHypothesis =>
      rw [walk] at walked
      rw [List.cons_append, makeDirectories]
      split_ifs at walked ⊢
      · exact inductionHypothesis walked
      · exact inductionHypothesis walked
      · have next :
            tree.node (current ++ [component]) = some .directory := by
          cases names with
          | nil =>
              cases walked
              exact isDirectory
          | cons =>
              rw [walk] at walked
              by_contra notDirectory
              rw [if_neg notDirectory] at walked
              cases walked
        simp only [next]
        exact inductionHypothesis walked

/-- Creating a single missing directory. -/
theorem makeDirectories_names
    {tree : FileTree} {current : Location} {names : List PathName}
    {name : PathName}
    (holder : tree.node (current ++ names) = some .directory)
    (areNames : ∀ each ∈ names ++ [name], IsName each)
    (free : tree.node (current ++ (names ++ [name])) = none) :
    tree.makeDirectories current (names ++ [name]) =
      (tree.place (current ++ (names ++ [name])) .directory, true) := by
  induction names generalizing current with
  | nil =>
      have isName := areNames name (by simp)
      simp only [List.nil_append] at free ⊢
      simp [makeDirectories, isName.nonempty, isName.not_dot,
        isName.not_dotDot, free]
  | cons first rest inductionHypothesis =>
      have isName : IsName first := areNames first (by simp)
      have split :
          current ++ first :: rest = current ++ [first] ++ rest := by
        simp
      have isDirectory :
          tree.node (current ++ [first]) = some .directory := by
        by_cases top : rest = []
        · simpa [top] using holder
        · exact tree.ancestor_isDirectory rest
            (by rw [← split, holder]; simp) top
      have deeper := @inductionHypothesis (current ++ [first])
        (by rw [← split, holder])
        (fun each member =>
          areNames each (List.mem_cons_of_mem first member))
        (by simpa using free)
      rw [List.cons_append, makeDirectories]
      simp only [isName.nonempty, isName.not_dot, isName.not_dotDot,
        or_self, if_false, isDirectory]
      rw [deeper]
      simp

/-- Creating directories only fills locations that were free. -/
theorem makeDirectories_node
    (tree : FileTree) (current : Location) (names : List PathName)
    (location : Location)
    (present : tree.node location ≠ none) :
    (tree.makeDirectories current names).1.node location =
      tree.node location := by
  fun_induction makeDirectories tree current names with
  | case1 => rfl
  | case2 _ _ _ _ _ inductionHypothesis => exact inductionHypothesis present
  | case3 _ _ _ _ inductionHypothesis => exact inductionHypothesis present
  | case4 _ _ _ _ _ _ _ inductionHypothesis =>
      exact inductionHypothesis present
  | case5 => rfl
  | case6 tree current component rest _ _ free inductionHypothesis =>
      have different : location ≠ current ++ [component] := by
        rintro rfl
        exact present free
      have kept := tree.node_place_other .directory different
      rw [inductionHypothesis (by rwa [kept]), kept]

/-! ## The way of a path -/

/-- The locations that a walk comes through, with its end. -/
def walked (tree : FileTree) : Location → List PathName → List Location
  | current, [] => [current]
  | current, component :: rest =>
      current ::
        if tree.node current = some .directory then
          if component = [] ∨ component = dot then
            tree.walked current rest
          else if component = dotDot then
            tree.walked current.dropLast rest
          else
            tree.walked (current ++ [component]) rest
        else
          []

/-- The locations that a path name leads through. -/
def way (tree : FileTree) (workingDirectory : Location)
    (path : PathName) : List Location :=
  tree.walked (if isAbsolute (native path) then [] else workingDirectory)
    (components (native path))

theorem mem_walked_self
    (tree : FileTree) (current : Location) (names : List PathName) :
    current ∈ tree.walked current names := by
  cases names with
  | nil => exact List.mem_singleton.2 rfl
  | cons component rest => exact List.mem_cons_self

/-- A walk depends on nothing but the locations that it comes through. -/
theorem walk_of_walked
    {tree other : FileTree} {current : Location} {names : List PathName}
    (same : ∀ location ∈ tree.walked current names,
      other.node location = tree.node location) :
    other.walk current names = tree.walk current names := by
  induction names generalizing current with
  | nil => rfl
  | cons component rest inductionHypothesis =>
      have here := same current (tree.mem_walked_self current _)
      rw [walk, walk, here]
      rw [walked] at same
      have deeper {next : Location}
          (same : ∀ location ∈ current :: tree.walked next rest,
            other.node location = tree.node location) :
          other.walk next rest = tree.walk next rest :=
        inductionHypothesis fun location member =>
          same location (List.mem_cons_of_mem _ member)
      split_ifs at same ⊢ with isDirectory skipped upwards
      · exact deeper same
      · exact deeper same
      · exact deeper same
      · rfl

/-- The walk ends where it says, and what it comes through is a directory. -/
theorem mem_walked
    {tree : FileTree} {current final : Location} {names : List PathName}
    (leads : tree.walk current names = some final) :
    final ∈ tree.walked current names ∧
      ∀ location ∈ tree.walked current names,
        location = final ∨ tree.node location = some .directory := by
  induction names generalizing current with
  | nil =>
      cases leads
      exact ⟨List.mem_singleton.2 rfl, fun location member =>
        Or.inl (List.mem_singleton.1 member)⟩
  | cons component rest inductionHypothesis =>
      rw [walk] at leads
      rw [walked]
      have deeper {next : Location}
          (onward : tree.walk next rest = some final)
          (isDirectory : tree.node current = some .directory) :
          final ∈ current :: tree.walked next rest ∧
            ∀ location ∈ current :: tree.walked next rest,
              location = final ∨
                tree.node location = some .directory := by
        have found := inductionHypothesis onward
        constructor
        · exact List.mem_cons_of_mem _ found.1
        · intro location member
          rcases List.mem_cons.1 member with rfl | further
          · exact Or.inr isDirectory
          · exact found.2 location further
      split_ifs at leads ⊢ with isDirectory skipped upwards
      · exact deeper leads isDirectory
      · exact deeper leads isDirectory
      · exact deeper leads isDirectory

theorem resolve_of_way
    {tree other : FileTree} {workingDirectory : Location} {path : PathName}
    (same : ∀ location ∈ tree.way workingDirectory path,
      other.node location = tree.node location) :
    other.resolve workingDirectory path =
      tree.resolve workingDirectory path := by
  rw [resolve, resolve]
  by_cases empty : native path = []
  · rw [if_pos empty, if_pos empty]
  · rw [if_neg empty, if_neg empty]
    exact walk_of_walked same

theorem mem_way
    {tree : FileTree} {workingDirectory location : Location}
    {path : PathName}
    (resolved : tree.resolve workingDirectory path = some location) :
    location ∈ tree.way workingDirectory path ∧
      ∀ other ∈ tree.way workingDirectory path,
        other = location ∨ tree.node other = some .directory := by
  rw [resolve] at resolved
  by_cases empty : native path = []
  · rw [if_pos empty] at resolved
    cases resolved
  · rw [if_neg empty] at resolved
    exact mem_walked resolved

/-! ## Copies of subtrees -/

/--
`final` is `target` with the subtree that `source` has at `origin` copied to
`goal`.
-/
structure IsCopy (source : FileTree) (origin : Location)
    (target : FileTree) (goal : Location) (final : FileTree) : Prop where
  inside : ∀ below,
    final.node (goal ++ below) = source.node (origin ++ below)
  outside : ∀ other, ¬ goal <+: other →
    final.node other = target.node other

/-- A copy of a directory of which only some entries are there yet. -/
structure IsPartialCopy (source : FileTree) (origin : Location)
    (target : FileTree) (goal : Location) (entries : List PathName)
    (final : FileTree) : Prop where
  top : final.node goal = some .directory
  inside : ∀ name below,
    final.node (goal ++ name :: below) =
      if name ∈ entries then source.node (origin ++ name :: below) else none
  outside : ∀ other, ¬ goal <+: other →
    final.node other = target.node other

section Copies

variable {source target final : FileTree} {origin goal : Location}

/-- Copying a file. -/
theorem isCopy_file
    {content : List UInt8}
    (isFile : source.node origin = some (.file content))
    (possible : target.CanPlace goal)
    (free : target.node goal = none) :
    IsCopy source origin target goal
      (target.place goal (.file content)) where
  inside below := by
    cases below with
    | nil =>
        rw [List.append_nil, List.append_nil, node_place_self possible,
          isFile]
    | cons name rest =>
        have different : goal ++ name :: rest ≠ goal := by simp
        rw [node_place_other target _ different,
          target.node_below_none free]
        by_contra present
        have directory := source.ancestor_isDirectory _
          (Ne.symm present) (by simp)
        rw [isFile] at directory
        cases directory
  outside other outside := by
    refine node_place_other target _ ?_
    rintro rfl
    exact outside List.prefix_rfl

/-- An empty directory is the beginning of a copy. -/
theorem isPartialCopy_nil
    (possible : target.CanPlace goal)
    (free : target.node goal = none) :
    IsPartialCopy source origin target goal []
      (target.place goal .directory) where
  top := node_place_self possible _
  inside name below := by
    have different : goal ++ name :: below ≠ goal := by simp
    rw [node_place_other target _ different,
      target.node_below_none free, if_neg List.not_mem_nil]
  outside other outside := by
    refine node_place_other target _ ?_
    rintro rfl
    exact outside List.prefix_rfl

/-- Copying one more entry. -/
theorem IsPartialCopy.append
    {middle : FileTree} {entries : List PathName} {name : PathName}
    (copied : IsPartialCopy source origin target goal entries middle)
    (entry :
      IsCopy source (origin ++ [name]) middle (goal ++ [name]) final) :
    IsPartialCopy source origin target goal (entries ++ [name]) final where
  top := by
    have outside : ¬ goal ++ [name] <+: goal := by
      intro isPrefix
      have shorter := isPrefix.length_le
      rw [List.length_append, List.length_singleton] at shorter
      omega
    rw [entry.outside goal outside, copied.top]
  inside other below := by
    by_cases same : other = name
    · subst same
      have inside := entry.inside below
      rw [List.append_assoc, List.append_assoc] at inside
      rw [if_pos (by simp)]
      exact inside
    · have outside : ¬ goal ++ [name] <+: goal ++ other :: below := by
        intro isPrefix
        rw [List.prefix_append_right_inj] at isPrefix
        exact same (List.cons_prefix_cons.1 isPrefix).1.symm
      rw [entry.outside _ outside, copied.inside]
      simp [same]
  outside other outside := by
    have further : ¬ goal ++ [name] <+: other := fun isPrefix =>
      outside ((List.prefix_append goal [name]).trans isPrefix)
    rw [entry.outside other further, copied.outside other outside]

/-- With every entry the copy is complete. -/
theorem IsPartialCopy.isCopy
    {entries : List PathName}
    (copied : IsPartialCopy source origin target goal entries final)
    (isDirectory : source.node origin = some .directory)
    (complete : ∀ name, source.node (origin ++ [name]) ≠ none →
      name ∈ entries) :
    IsCopy source origin target goal final where
  inside below := by
    cases below with
    | nil =>
        rw [List.append_nil, List.append_nil, copied.top, isDirectory]
    | cons name rest =>
        rw [copied.inside]
        split_ifs with member
        · rfl
        · have free : source.node (origin ++ [name]) = none := by
            by_contra present
            exact member (complete name present)
          have below := source.node_below_none free rest
          rw [List.append_assoc] at below
          exact below.symm
  outside := copied.outside

end Copies

end FileTree

end DropFile.General.Files
