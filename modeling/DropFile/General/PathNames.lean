import Mathlib.Data.List.Basic

/-!
# POSIX path names

Path names are byte strings whose components are separated by slashes.  The
operations are those of `std::filesystem::path` on a POSIX system: joining two
paths, which drops the first when the second is absolute, the last component,
and lexical normalisation, which removes empty and dot components and lets
every dot-dot cancel the name before it.
-/

namespace DropFile.General.PathNames

abbrev PathName := List UInt8

def slash : UInt8 := 47

def dot : PathName := [46]

def dotDot : PathName := [46, 46]

/-- The parts between the slashes; some of them may be empty. -/
def components (path : PathName) : List PathName :=
  path.splitOn slash

def isAbsolute (path : PathName) : Bool :=
  path.head? = some slash

/-- `path.filename()`. -/
def filename (path : PathName) : PathName :=
  (components path).getLastD []

/-- `left / right`. -/
def join (left right : PathName) : PathName :=
  if isAbsolute right then
    right
  else if left = [] ∨ left.getLast? = some slash then
    left ++ right
  else
    left ++ slash :: right

/-- A component that a directory entry can have. -/
structure IsName (name : PathName) : Prop where
  nonempty : name ≠ []
  not_dot : name ≠ dot
  not_dotDot : name ≠ dotDot
  no_slash : slash ∉ name
  no_nul : 0 ∉ name

instance (name : PathName) : Decidable (IsName name) :=
  decidable_of_iff
    (name ≠ [] ∧ name ≠ dot ∧ name ≠ dotDot ∧ slash ∉ name ∧ 0 ∉ name)
    ⟨fun ⟨nonempty, not_dot, not_dotDot, no_slash, no_nul⟩ =>
        ⟨nonempty, not_dot, not_dotDot, no_slash, no_nul⟩,
      fun isName =>
        ⟨isName.nonempty, isName.not_dot, isName.not_dotDot,
          isName.no_slash, isName.no_nul⟩⟩

/-- The relative path through the given components. -/
def joinNames (names : List PathName) : PathName :=
  [slash].intercalate names

theorem components_ne_nil (path : PathName) : components path ≠ [] :=
  List.splitOn_ne_nil slash path

theorem components_joinNames
    {names : List PathName}
    (nonempty : names ≠ [])
    (areNames : ∀ name ∈ names, IsName name) :
    components (joinNames names) = names :=
  List.splitOn_intercalate slash
    (fun name member => (areNames name member).no_slash) nonempty

theorem components_of_no_slash
    {name : PathName}
    (no_slash : slash ∉ name) :
    components name = [name] :=
  List.splitOn_eq_singleton no_slash

theorem isAbsolute_of_no_slash
    {name : PathName}
    (no_slash : slash ∉ name) :
    isAbsolute name = false := by
  cases name with
  | nil => rfl
  | cons byte rest =>
      have different : byte ≠ slash := by
        rintro rfl
        exact no_slash List.mem_cons_self
      simp [isAbsolute, different]

/-- Joining a relative path appends its components, up to a trailing slash. -/
theorem components_join
    (left : PathName) {right : PathName}
    (relative : isAbsolute right = false) :
    components (join left right) = components left ++ components right ∨
      ∃ before, components left = before ++ [[]] ∧
        components (join left right) = before ++ components right := by
  simp only [join, relative, Bool.false_eq_true, if_false]
  split_ifs with bare
  · right
    rcases List.eq_nil_or_concat left with rfl | ⟨start, last, rfl⟩
    · exact ⟨[], rfl, rfl⟩
    · have lastSlash : last = slash := by simpa using bare
      subst lastSlash
      refine ⟨components start, ?_, ?_⟩
      · rw [List.concat_eq_append]
        exact List.splitOn_append_cons_self start []
      · rw [List.concat_eq_append, List.append_assoc]
        exact List.splitOn_append_cons_self start right
  · left
    exact List.splitOn_append_cons_self left right

theorem join_eq_nil
    {left right : PathName}
    (joined : join left right = []) :
    left = [] ∧ right = [] := by
  unfold join at joined
  split_ifs at joined with absolute bare
  · subst joined
    simp [isAbsolute] at absolute
  · simpa using joined
  · simp at joined

theorem mem_join
    {left right : PathName} {byte : UInt8}
    (member : byte ∈ join left right) :
    byte ∈ left ∨ byte = slash ∨ byte ∈ right := by
  unfold join at member
  split_ifs at member
  · exact Or.inr (Or.inr member)
  · exact (List.mem_append.1 member).imp_right Or.inr
  · simpa using member

theorem joinNames_append
    {names : List PathName} {name : PathName}
    (nonempty : names ≠ []) :
    joinNames (names ++ [name]) = joinNames names ++ slash :: name := by
  induction names with
  | nil => exact absurd rfl nonempty
  | cons first rest inductionHypothesis =>
      by_cases single : rest = []
      · subst single
        simp [joinNames]
      · have tail := inductionHypothesis single
        simp only [joinNames] at tail ⊢
        rw [List.cons_append,
          List.intercalate_cons_of_ne_nil (by simp),
          List.intercalate_cons_of_ne_nil single, tail]
        simp

theorem joinNames_ne_nil
    {names : List PathName}
    (nonempty : names ≠ [])
    (areNames : ∀ name ∈ names, IsName name) :
    joinNames names ≠ [] := by
  intro empty
  have split := components_joinNames nonempty areNames
  rw [empty] at split
  have member : ([] : PathName) ∈ names := by
    rw [← split]
    exact List.mem_singleton_self _
  exact (areNames [] member).nonempty rfl

/-- An absolute path starts with an empty component. -/
theorem components_of_isAbsolute
    {path : PathName}
    (absolute : isAbsolute path = true) :
    [] ∈ components path := by
  cases path with
  | nil => exact absurd absolute (by decide)
  | cons byte rest =>
      obtain rfl : byte = slash := by simpa [isAbsolute] using absolute
      have split : components (slash :: rest) = [] :: components rest :=
        List.splitOn_append_cons_self [] rest
      rw [split]
      exact List.mem_cons_self

theorem isAbsolute_joinNames
    {names : List PathName}
    (nonempty : names ≠ [])
    (areNames : ∀ name ∈ names, IsName name) :
    isAbsolute (joinNames names) = false := by
  by_contra absolute
  rw [Bool.not_eq_false] at absolute
  have member := components_of_isAbsolute absolute
  rw [components_joinNames nonempty areNames] at member
  exact (areNames [] member).nonempty rfl

theorem no_nul_joinNames
    {names : List PathName}
    (areNames : ∀ name ∈ names, IsName name) :
    0 ∉ joinNames names := by
  induction names with
  | nil => simp [joinNames]
  | cons first rest inductionHypothesis =>
      have firstName := (areNames first List.mem_cons_self).no_nul
      by_cases single : rest = []
      · subst single
        simpa [joinNames] using firstName
      · have tail := inductionHypothesis fun name member =>
          areNames name (List.mem_cons_of_mem _ member)
        rw [joinNames, List.intercalate_cons_of_ne_nil single]
        simp only [List.mem_append, List.mem_singleton, not_or]
        exact ⟨⟨firstName, by decide⟩, tail⟩

/-- Joining another name to a joined path. -/
theorem join_joinNames
    {names : List PathName} {name : PathName}
    (nonempty : names ≠ [])
    (areNames : ∀ each ∈ names, IsName each)
    (isName : IsName name) :
    join (joinNames names) name = joinNames (names ++ [name]) := by
  have trailing : (joinNames names).getLast? ≠ some slash := by
    intro last
    obtain ⟨start, startEq⟩ := List.getLast?_eq_some_iff.1 last
    have split : components (joinNames names) = components start ++ [[]] := by
      rw [startEq]
      exact List.splitOn_append_cons_self start []
    rw [components_joinNames nonempty areNames] at split
    have member : [] ∈ names := by simp [split]
    exact (areNames [] member).nonempty rfl
  rw [join, isAbsolute_of_no_slash isName.no_slash, if_neg (by simp),
    if_neg (by simp [trailing, joinNames_ne_nil nonempty areNames]),
    joinNames_append nonempty]

/-- Names are joined to a path one after the other, or together. -/
theorem join_join
    (path : PathName) {first second : PathName}
    (firstIsName : IsName first)
    (secondIsName : IsName second) :
    join (join path first) second = join path (joinNames [first, second]) := by
  have areNames : ∀ name ∈ [first, second], IsName name := by
    simp [firstIsName, secondIsName]
  have joined : joinNames [first, second] = first ++ slash :: second := by
    have both := @joinNames_append [first] second (List.cons_ne_nil first [])
    have single : joinNames [first] = first := by simp [joinNames]
    rwa [single] at both
  have relative := isAbsolute_joinNames (List.cons_ne_nil first _) areNames
  have trailing (before : PathName) :
      (before ++ first).getLast? ≠ some slash := by
    rw [List.getLast?_append_of_ne_nil _ firstIsName.nonempty]
    exact fun last =>
      firstIsName.no_slash (List.mem_of_mem_getLast? last)
  have nonempty (before : PathName) : before ++ first ≠ [] := by
    simp [firstIsName.nonempty]
  have continues (before : PathName) :
      join (before ++ first) second = before ++ first ++ slash :: second := by
    rw [join, isAbsolute_of_no_slash secondIsName.no_slash,
      if_neg Bool.false_ne_true,
      if_neg (not_or.2 ⟨nonempty before, trailing before⟩)]
  rw [joined] at relative ⊢
  simp only [join.eq_1 path, relative,
    isAbsolute_of_no_slash firstIsName.no_slash, Bool.false_eq_true,
    if_false]
  split_ifs with bare
  · rw [continues, List.append_assoc]
  · have split : path ++ slash :: first = path ++ [slash] ++ first := by simp
    rw [split, continues]
    simp

/-- What is joined to a path ends it. -/
theorem filename_join_right (left right : PathName) :
    filename (join left right) = filename right := by
  by_cases absolute : isAbsolute right = true
  · rw [join, if_pos absolute]
  · rw [Bool.not_eq_true] at absolute
    rcases List.eq_nil_or_concat (components right) with
      empty | ⟨before, name, isLast⟩
    · exact absurd empty (components_ne_nil right)
    · rcases components_join left absolute with
        joined | ⟨start, -, joined⟩
      · simp [filename, joined, isLast, ← List.append_assoc]
      · simp [filename, joined, isLast, ← List.append_assoc]

/-- The last component of a path with a plain name at its end. -/
theorem filename_join
    {left name : PathName}
    (isName : IsName name) :
    filename (join left name) = name := by
  rw [filename_join_right, filename, components_of_no_slash isName.no_slash]
  rfl

/-- A path is its last component, or it ends in a slash and that. -/
theorem filename_cases (path : PathName) :
    (slash ∉ path ∧ filename path = path) ∨
      ∃ start name, path = start ++ slash :: name ∧ slash ∉ name ∧
        filename path = name := by
  induction path with
  | nil => exact Or.inl ⟨List.not_mem_nil, rfl⟩
  | cons byte rest inductionHypothesis =>
      have split (start name : PathName) (no_slash : slash ∉ name) :
          filename (start ++ slash :: name) = name := by
        have parts : components (start ++ slash :: name) =
            components start ++ components name :=
          List.splitOn_append_cons_self start name
        rw [filename, parts, components_of_no_slash no_slash,
          List.getLastD_concat]
      rcases inductionHypothesis with
        ⟨no_slash, -⟩ | ⟨start, name, rfl, no_slash, -⟩
      · by_cases isSlash : byte = slash
        · subst isSlash
          exact Or.inr ⟨[], rest, rfl, no_slash, split [] rest no_slash⟩
        · left
          have none : slash ∉ byte :: rest := by
            rw [List.mem_cons, not_or]
            exact ⟨Ne.symm isSlash, no_slash⟩
          rw [filename, components_of_no_slash none]
          exact ⟨none, rfl⟩
      · exact Or.inr ⟨byte :: start, name, rfl, no_slash,
          split (byte :: start) name no_slash⟩

theorem no_slash_filename (path : PathName) : slash ∉ filename path := by
  rcases filename_cases path with
    ⟨no_slash, same⟩ | ⟨_, name, -, no_slash, same⟩
  · rw [same]
    exact no_slash
  · rw [same]
    exact no_slash

theorem mem_of_mem_filename
    {path : PathName} {byte : UInt8}
    (member : byte ∈ filename path) :
    byte ∈ path := by
  rcases filename_cases path with ⟨-, same⟩ | ⟨start, name, rfl, -, same⟩
  · rwa [same] at member
  · rw [same] at member
    exact List.mem_append_right _ (List.mem_cons_of_mem _ member)

/-- Only a path that is empty or ends in a slash has no last component. -/
theorem filename_ne_nil
    {path : PathName}
    (nonempty : path ≠ [])
    (lastIsNoSlash : path.getLast? ≠ some slash) :
    filename path ≠ [] := by
  rcases filename_cases path with ⟨-, same⟩ | ⟨start, name, rfl, -, same⟩
  · rw [same]
    exact nonempty
  · rw [same]
    rintro rfl
    exact lastIsNoSlash List.getLast?_concat

/-- The last component is a proper name, or one of the two that are not. -/
theorem isName_filename
    {path : PathName}
    (nonempty : path ≠ [])
    (lastIsNoSlash : path.getLast? ≠ some slash)
    (noNul : 0 ∉ path)
    (not_dot : filename path ≠ dot)
    (not_dotDot : filename path ≠ dotDot) :
    IsName (filename path) where
  nonempty := filename_ne_nil nonempty lastIsNoSlash
  not_dot := not_dot
  not_dotDot := not_dotDot
  no_slash := no_slash_filename path
  no_nul := fun member => noNul (mem_of_mem_filename member)

/-! ## Lexical normalisation -/

/--
One component on top of the names before it.  A dot-dot takes the last name
away, stays when there is none, and is dropped at the root directory.
-/
def pushComponent
    (absolute : Bool) (stack : List PathName) (component : PathName) :
    List PathName :=
  if component = [] ∨ component = dot then
    stack
  else if component = dotDot then
    match stack.getLast? with
    | none => if absolute then [] else [dotDot]
    | some last =>
        if last = dotDot then stack ++ [dotDot] else stack.dropLast
  else
    stack ++ [component]

/-- Push components one after the other. -/
def collapse
    (absolute : Bool) (stack names : List PathName) :
    List PathName :=
  names.foldl (pushComponent absolute) stack

/-- The components of `path.lexically_normal()`. -/
def normalNames (path : PathName) : List PathName :=
  collapse (isAbsolute path) [] (components path)

/-- Lexically, the path is the base directory or something below it. -/
def LexicallyInside (base path : PathName) : Prop :=
  isAbsolute path = isAbsolute base ∧
    ∃ below, normalNames path = normalNames base ++ below ∧
      dotDot ∉ below

/-- A relative path that never climbs above where it starts. -/
def Contained (path : PathName) : Prop :=
  isAbsolute path = false ∧ dotDot ∉ normalNames path

instance (path : PathName) : Decidable (Contained path) :=
  inferInstanceAs (Decidable (_ ∧ _))

theorem collapse_append
    (absolute : Bool) (stack left right : List PathName) :
    collapse absolute stack (left ++ right) =
      collapse absolute (collapse absolute stack left) right :=
  List.foldl_append

/-- A dot-dot at the bottom of a relative stack is never taken away. -/
theorem pushComponent_dotDot
    (stack : List PathName) (component : PathName) :
    ∃ later,
      pushComponent false (dotDot :: stack) component =
        dotDot :: later := by
  unfold pushComponent
  by_cases skipped : component = [] ∨ component = dot
  · exact ⟨stack, if_pos skipped⟩
  rw [if_neg skipped]
  by_cases up : component = dotDot
  · rw [if_pos up]
    cases stack with
    | nil => exact ⟨[dotDot], by simp⟩
    | cons next stack =>
        cases last : (dotDot :: next :: stack).getLast? with
        | none => simp at last
        | some top =>
            dsimp only
            split_ifs
            · exact ⟨_, List.cons_append⟩
            · exact ⟨_, List.dropLast_cons_cons⟩
  · exact ⟨stack ++ [component], if_neg up⟩

theorem dotDot_mem_collapse
    {stack : List PathName} (names : List PathName) :
    dotDot ∈ collapse false (dotDot :: stack) names := by
  induction names generalizing stack with
  | nil => exact List.mem_cons_self
  | cons component rest inductionHypothesis =>
      obtain ⟨later, pushed⟩ := pushComponent_dotDot stack component
      rw [collapse, List.foldl_cons, pushed]
      exact inductionHypothesis

/--
A component either climbs out of a stack of names, or does the same to the
names whatever lies below them.
-/
theorem pushComponent_above
    {stack : List PathName} (stackContained : dotDot ∉ stack)
    (component : PathName) :
    pushComponent false stack component = [dotDot] ∨
      dotDot ∉ pushComponent false stack component ∧
        ∀ absolute base,
          pushComponent absolute (base ++ stack) component =
            base ++ pushComponent false stack component := by
  unfold pushComponent
  by_cases skipped : component = [] ∨ component = dot
  · simp only [if_pos skipped]
    exact Or.inr ⟨stackContained, fun _ _ => trivial⟩
  simp only [if_neg skipped]
  by_cases up : component = dotDot
  · simp only [if_pos up]
    rcases List.eq_nil_or_concat stack with rfl | ⟨lower, top, rfl⟩
    · exact Or.inl rfl
    · right
      rw [List.concat_eq_append] at stackContained ⊢
      simp only [List.mem_append, List.mem_singleton, not_or]
        at stackContained
      have topName : top ≠ dotDot := Ne.symm stackContained.2
      simp only [List.getLast?_append, List.getLast?_singleton,
        Option.some_or, topName, if_false, ← List.append_assoc,
        List.dropLast_concat]
      exact ⟨stackContained.1, fun _ _ => trivial⟩
  · simp only [if_neg up]
    refine Or.inr ⟨?_, fun _ _ => List.append_assoc _ _ _⟩
    simp only [List.mem_append, List.mem_singleton, not_or]
    exact ⟨stackContained, Ne.symm up⟩

/--
When a walk never climbs above its start, what it does does not depend on
what lies below it on the stack.
-/
theorem collapse_above
    {absolute : Bool} (base : List PathName) {stack names : List PathName}
    (stackContained : dotDot ∉ stack)
    (contained : dotDot ∉ collapse false stack names) :
    collapse absolute (base ++ stack) names =
      base ++ collapse false stack names := by
  induction names generalizing stack with
  | nil => rfl
  | cons component rest inductionHypothesis =>
      rw [collapse, List.foldl_cons] at contained
      rw [collapse, collapse, List.foldl_cons, List.foldl_cons]
      rcases pushComponent_above stackContained component with
        climbs | ⟨pushedContained, same⟩
      · rw [climbs] at contained
        exact absurd (dotDot_mem_collapse rest) contained
      · rw [same]
        exact inductionHypothesis pushedContained contained

/-- An empty component changes nothing. -/
theorem collapse_trailing_nil
    (absolute : Bool) (stack names : List PathName) :
    collapse absolute stack (names ++ [[]]) =
      collapse absolute stack names := by
  rw [collapse_append]
  simp [collapse, pushComponent]

theorem isAbsolute_join
    {left right : PathName}
    (relative : isAbsolute right = false) :
    isAbsolute (join left right) = isAbsolute left := by
  simp only [join, relative, Bool.false_eq_true, if_false]
  cases left with
  | nil => simp [relative, isAbsolute.eq_1 []]
  | cons byte rest => split_ifs <;> simp [isAbsolute]

theorem normalNames_join
    {left right : PathName}
    (relative : isAbsolute right = false) :
    normalNames (join left right) =
      collapse (isAbsolute left) (normalNames left)
        (components right) := by
  rw [normalNames, isAbsolute_join relative, normalNames]
  rcases components_join left relative with
    joined | ⟨before, split, joined⟩
  · rw [joined, collapse_append]
  · rw [joined, collapse_append, split, collapse_trailing_nil]

/-- A contained relative path stays inside every base directory. -/
theorem Contained.inside
    {path : PathName}
    (contained : Contained path)
    (base : PathName) :
    LexicallyInside base (join base path) := by
  obtain ⟨relative, names⟩ := contained
  rw [normalNames, relative] at names
  refine ⟨isAbsolute_join relative,
    collapse false [] (components path), ?_, names⟩
  rw [normalNames_join relative]
  simpa using collapse_above (normalNames base)
    List.not_mem_nil names

/-! ## Climbing -/

/-- A component that lexical normalisation puts on the stack. -/
structure Ordinary (component : PathName) : Prop where
  nonempty : component ≠ []
  not_dot : component ≠ dot
  not_dotDot : component ≠ dotDot

/-- Lexically, the path is an entry of the base directory. -/
def DirectChild (base path : PathName) : Prop :=
  isAbsolute path = isAbsolute base ∧
    ∃ name, name ≠ dotDot ∧ normalNames path = normalNames base ++ [name]

theorem pushComponent_ordinary
    {component : PathName} (ordinary : Ordinary component)
    (absolute : Bool) (stack : List PathName) :
    pushComponent absolute stack component = stack ++ [component] := by
  simp [pushComponent, ordinary.nonempty, ordinary.not_dot,
    ordinary.not_dotDot]

theorem pushComponent_up
    {name : PathName} (different : name ≠ dotDot)
    (absolute : Bool) (stack : List PathName) :
    pushComponent absolute (stack ++ [name]) dotDot = stack := by
  have isStep : ¬ (dotDot = [] ∨ dotDot = dot) := by decide
  simp [pushComponent, isStep, different]

/-- Without a name to take away, a dot-dot stays on a relative stack. -/
theorem pushComponent_climb (count : Nat) :
    pushComponent false (List.replicate count dotDot) dotDot =
      List.replicate (count + 1) dotDot := by
  have isStep : ¬ (dotDot = [] ∨ dotDot = dot) := by decide
  cases count with
  | zero => simp [pushComponent, isStep]
  | succ count =>
      simp [pushComponent, isStep, List.getLast?_replicate,
        List.replicate_succ' (n := count + 1)]

theorem collapse_ordinary
    {names : List PathName}
    (ordinary : ∀ name ∈ names, Ordinary name)
    (absolute : Bool) (stack : List PathName) :
    collapse absolute stack names = stack ++ names := by
  induction names generalizing stack with
  | nil => simp [collapse]
  | cons name rest inductionHypothesis =>
      rw [List.forall_mem_cons] at ordinary
      rw [collapse, List.foldl_cons,
        pushComponent_ordinary ordinary.1]
      simpa [collapse] using inductionHypothesis ordinary.2 (stack ++ [name])

/-- Relative normal forms climb some levels and then name what is there. -/
inductive Climbs : List PathName → Prop where
  | intro (count : Nat) {names : List PathName} :
      (∀ name ∈ names, Ordinary name) →
      Climbs (List.replicate count dotDot ++ names)

theorem climbs_nil : Climbs [] :=
  .intro 0 (List.forall_mem_nil _)

/-- Where a stack leads to does not depend on the way it was made. -/
theorem collapse_pushComponent
    {stack : List PathName} (climbs : Climbs stack)
    (base : List PathName) (component : PathName) :
    Climbs (pushComponent false stack component) ∧
      collapse true base (pushComponent false stack component) =
        pushComponent true (collapse true base stack) component := by
  cases climbs with
  | @intro count names ordinary =>
      by_cases skipped : component = [] ∨ component = dot
      · have same (absolute : Bool) (stack : List PathName) :
            pushComponent absolute stack component = stack :=
          if_pos skipped
        rw [same, same]
        exact ⟨.intro count ordinary, rfl⟩
      by_cases up : component = dotDot
      · subst up
        rcases List.eq_nil_or_concat names with rfl | ⟨lower, top, rfl⟩
        · rw [List.append_nil, pushComponent_climb]
          constructor
          · have climbs : Climbs (List.replicate (count + 1) dotDot ++ []) :=
              .intro (count + 1) (by simp)
            simpa using climbs
          · rw [List.replicate_succ', collapse_append]
            rfl
        · rw [List.concat_eq_append] at ordinary ⊢
          rw [List.forall_mem_append] at ordinary
          have isTop := ordinary.2 top (List.mem_singleton_self top)
          rw [← List.append_assoc, pushComponent_up isTop.not_dotDot,
            collapse_append _ _ _ [top],
            collapse_ordinary ordinary.2, pushComponent_up isTop.not_dotDot]
          exact ⟨.intro count ordinary.1, rfl⟩
      · rw [not_or] at skipped
        have isName : Ordinary component := ⟨skipped.1, skipped.2, up⟩
        rw [pushComponent_ordinary isName, collapse_append]
        constructor
        · rw [List.append_assoc]
          apply Climbs.intro count
          exact List.forall_mem_append.2
            ⟨ordinary, List.forall_mem_singleton.2 isName⟩
        · rfl

theorem collapse_collapse
    {stack : List PathName} (climbs : Climbs stack)
    (base names : List PathName) :
    Climbs (collapse false stack names) ∧
      collapse true base (collapse false stack names) =
        collapse true (collapse true base stack) names := by
  induction names generalizing stack with
  | nil => exact ⟨climbs, rfl⟩
  | cons component rest inductionHypothesis =>
      have pushed := collapse_pushComponent climbs base component
      have later := inductionHypothesis pushed.1
      rw [pushed.2] at later
      exact later

/-- Every step up takes one name away from an absolute stack. -/
theorem collapse_up
    {base : List PathName} (noUp : dotDot ∉ base) (count : Nat) :
    collapse true base (List.replicate count dotDot) =
      base.take (base.length - count) := by
  induction count generalizing base with
  | zero => simp [collapse]
  | succ count inductionHypothesis =>
      have step : pushComponent true base dotDot = base.dropLast := by
        rcases List.eq_nil_or_concat base with rfl | ⟨lower, top, rfl⟩
        · rfl
        · rw [List.concat_eq_append] at noUp ⊢
          have different : top ≠ dotDot := by
            rintro rfl
            simp at noUp
          rw [pushComponent_up different, List.dropLast_concat]
      have stillNoUp : dotDot ∉ base.dropLast := fun member =>
        noUp ((List.dropLast_sublist _).subset member)
      have later := inductionHypothesis stillNoUp
      rw [List.replicate_succ, collapse, List.foldl_cons, step]
      rw [collapse] at later
      rw [later, List.dropLast_eq_take, List.take_take, List.length_take]
      congr 1
      omega

/-- No step up is left over in an absolute normal form. -/
theorem dotDot_not_mem_of_isAbsolute
    {path : PathName} (absolute : isAbsolute path = true) :
    dotDot ∉ normalNames path := by
  have kept (names stack : List PathName) (noUp : dotDot ∉ stack) :
      dotDot ∉ collapse true stack names := by
    induction names generalizing stack with
    | nil => exact noUp
    | cons component rest inductionHypothesis =>
        apply inductionHypothesis
        by_cases skipped : component = [] ∨ component = dot
        · rw [pushComponent, if_pos skipped]
          exact noUp
        by_cases up : component = dotDot
        · subst up
          rcases List.eq_nil_or_concat stack with rfl | ⟨lower, top, rfl⟩
          · exact List.not_mem_nil
          · rw [List.concat_eq_append] at noUp ⊢
            have different : top ≠ dotDot := by
              rintro rfl
              simp at noUp
            rw [pushComponent_up different]
            exact fun member => noUp (List.mem_append_left _ member)
        · rw [not_or] at skipped
          rw [pushComponent_ordinary ⟨skipped.1, skipped.2, up⟩]
          simp [noUp, Ne.symm up]
  rw [normalNames, absolute]
  exact kept _ [] List.not_mem_nil

theorem climbs_normalNames
    {path : PathName} (relative : isAbsolute path = false) :
    Climbs (normalNames path) := by
  rw [normalNames, relative]
  exact (collapse_collapse climbs_nil [] _).1

/--
Below an absolute base, a relative path takes as many names away as it climbs
levels, and puts its own names there.
-/
theorem normalNames_join_climbs
    {base path : PathName}
    (absolute : isAbsolute base = true)
    (relative : isAbsolute path = false) :
    ∃ count names,
      normalNames path = List.replicate count dotDot ++ names ∧
        dotDot ∉ names ∧
        normalNames (join base path) =
          (normalNames base).take ((normalNames base).length - count) ++
            names := by
  have climbs := climbs_normalNames relative
  generalize isNormal : normalNames path = normal at climbs
  cases climbs with
  | @intro count names ordinary =>
      refine ⟨count, names, rfl, ?_, ?_⟩
      · intro member
        exact (ordinary dotDot member).not_dotDot rfl
      · have same := (collapse_collapse climbs_nil (normalNames base)
          (components path)).2
        rw [normalNames, relative] at isNormal
        rw [normalNames_join relative, absolute]
        have fromNormal :
            collapse true (normalNames base) (components path) =
              collapse true (normalNames base)
                (List.replicate count dotDot ++ names) := by
          rw [← isNormal]
          exact same.symm
        rw [fromNormal, collapse_append,
          collapse_up (dotDot_not_mem_of_isAbsolute absolute),
          collapse_ordinary ordinary]

end DropFile.General.PathNames
