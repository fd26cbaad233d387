import DropFile.General.SymbolicLinks
import DropFile.Client.AcceptedArchives
import Mathlib.Data.List.Forall2
import Mathlib.Data.List.Nodup
import Mathlib.Data.List.Perm.Subperm

/-!
# Trees with links in an archive

What has been packed when a walk through a tree with links returns: one record
for each directory and regular file that is seen through the links.
-/

namespace DropFile.Client.LinkedTrees

open DropFile.General.PathNames
open DropFile.General.Files
open DropFile.General.SymbolicLinks
open DropFile.Streams
open DropFile.Client.PackedEntries
open DropFile.Client.AcceptedArchives

/-! ## Records of a tree -/

/-- The record of something below the directory that was packed. -/
structure RecordFor
    (tree : FileTree) (source : Location) (root : PathName)
    (below : Location) (record : Record) : Prop where
  relativePath : record.relativePath = below.foldl join root
  isDirectory :
    record.flag = 1 ↔ tree.node (source ++ below) = some .directory

/-- One record for each location that is asked for and holds something. -/
def RecordsOf
    (tree : FileTree) (source : Location) (root : PathName)
    (asked : Location → Prop) (records : List Record) : Prop :=
  ∃ belows : List Location, belows.Nodup ∧
    (∀ below, below ∈ belows ↔
      asked below ∧ tree.node (source ++ below) ≠ none) ∧
    List.Forall₂ (RecordFor tree source root) belows records

/-- The whole tree below a directory. -/
def Everything (_ : Location) : Prop :=
  True

/-- What starts in an entry with one of the names. -/
def StartsIn (names : List PathName) (below : Location) : Prop :=
  ∃ name ∈ names, below.head? = some name

section Contents

variable {tree : FileTree} {location : Location} {relativePath : PathName}

theorem RecordsOf.nothing :
    RecordsOf tree location relativePath (StartsIn []) [] := by
  refine ⟨[], List.nodup_nil, ?_, .nil⟩
  intro below
  constructor
  · intro member
    cases member
  · rintro ⟨⟨name, member, -⟩, -⟩
    cases member

theorem RecordsOf.free
    (isFree : tree.node location = none) :
    RecordsOf tree location relativePath Everything [] := by
  refine ⟨[], List.nodup_nil, ?_, .nil⟩
  intro below
  constructor
  · intro member
    cases member
  · rintro ⟨-, present⟩
    exact absurd (tree.node_below_none isFree below) present

theorem RecordsOf.file
    {content : Bytes}
    (isFile : tree.node location = some (.file content))
    (payload : Bytes) :
    RecordsOf tree location relativePath Everything
      [Record.ofEntry (fileEntry relativePath payload)] := by
  refine ⟨[[]], List.nodup_singleton _, ?_, .cons ⟨rfl, ?_⟩ .nil⟩
  · intro below
    rw [List.mem_singleton]
    constructor
    · rintro rfl
      rw [List.append_nil, isFile]
      exact ⟨trivial, Option.some_ne_none _⟩
    · rintro ⟨-, present⟩
      by_contra proper
      have inDirectory := tree.ancestor_isDirectory below present proper
      rw [isFile] at inDirectory
      cases inDirectory
  · rw [List.append_nil, isFile]
    constructor
    · intro isDirectory
      exact absurd isDirectory (show (0 : UInt8) ≠ 1 by decide)
    · intro isDirectory
      cases isDirectory

theorem RecordsOf.directory
    {names : List PathName} {records : List Record}
    (isDirectory : tree.node location = some .directory)
    (complete : ∀ name, tree.node (location ++ [name]) ≠ none →
      name ∈ names)
    (others :
      RecordsOf tree location relativePath (StartsIn names) records) :
    RecordsOf tree location relativePath Everything
      (Record.ofEntry (directoryEntry relativePath) :: records) := by
  rcases others with ⟨belows, nodup, mem_iff, describe⟩
  have self : RecordFor tree location relativePath []
      (Record.ofEntry (directoryEntry relativePath)) := by
    refine ⟨rfl, ?_⟩
    rw [List.append_nil, isDirectory]
    exact iff_of_true rfl rfl
  refine ⟨[] :: belows, ?_, ?_, .cons self describe⟩
  · rw [List.nodup_cons, mem_iff]
    refine ⟨?_, nodup⟩
    rintro ⟨⟨name, -, starts⟩, -⟩
    cases starts
  · intro below
    rw [List.mem_cons, mem_iff]
    cases below with
    | nil =>
        rw [List.append_nil, isDirectory]
        exact iff_of_true (Or.inl rfl) ⟨trivial, Option.some_ne_none _⟩
    | cons name rest =>
        constructor
        · rintro (same | ⟨-, present⟩)
          · cases same
          · exact ⟨trivial, present⟩
        · rintro ⟨-, present⟩
          refine Or.inr ⟨⟨name, ?_, rfl⟩, present⟩
          apply complete
          intro isFree
          have nothing := tree.node_below_none isFree rest
          rw [List.append_assoc] at nothing
          exact present nothing

/-- The records of an entry come in front of those of the other entries. -/
theorem RecordsOf.entry
    {name : PathName} {names : List PathName}
    {first others : List Record}
    (isNew : name ∉ names)
    (ofFirst : RecordsOf tree (location ++ [name]) (join relativePath name)
      Everything first)
    (ofOthers :
      RecordsOf tree location relativePath (StartsIn names) others) :
    RecordsOf tree location relativePath (StartsIn (name :: names))
      (first ++ others) := by
  rcases ofFirst with ⟨belows, nodup, mem_iff, describe⟩
  rcases ofOthers with
    ⟨otherBelows, otherNodup, otherMem_iff, otherDescribe⟩
  have through (below : Location) :
      location ++ [name] ++ below = location ++ name :: below :=
    List.append_assoc _ _ _
  refine ⟨belows.map (name :: ·) ++ otherBelows, ?_, ?_, ?_⟩
  · apply List.Nodup.append
    · exact nodup.map (List.cons_injective)
    · exact otherNodup
    · intro below inFirst inOthers
      rcases List.mem_map.1 inFirst with ⟨rest, -, rfl⟩
      rcases ((otherMem_iff _).1 inOthers).1 with ⟨other, member, starts⟩
      cases starts
      exact isNew member
  · intro below
    rw [List.mem_append, List.mem_map, otherMem_iff]
    constructor
    · rintro (⟨rest, member, rfl⟩ | ⟨⟨other, member, starts⟩, present⟩)
      · have present := ((mem_iff rest).1 member).2
        rw [through] at present
        exact ⟨⟨name, List.mem_cons_self, rfl⟩, present⟩
      · exact ⟨⟨other, List.mem_cons_of_mem _ member, starts⟩, present⟩
    · rintro ⟨⟨other, member, starts⟩, present⟩
      rcases List.mem_cons.1 member with rfl | inNames
      · cases below with
        | nil => cases starts
        | cons head rest =>
            cases starts
            left
            refine ⟨rest, (mem_iff rest).2 ⟨trivial, ?_⟩, rfl⟩
            rw [through]
            exact present
      · exact Or.inr ⟨⟨other, inNames, starts⟩, present⟩
  · apply List.rel_append
    · rw [List.forall₂_map_left_iff]
      apply describe.imp
      rintro below record ⟨relativePath, isDirectory⟩
      rw [through] at isDirectory
      exact ⟨relativePath, isDirectory⟩
    · exact otherDescribe

end Contents

/-! ## The walk finds everything -/

/-- The names in a directory, each once, with all that lead to something. -/
structure Lists
    (links : Links) (tree : FileTree) (location : Location)
    (names : List PathName) : Prop where
  nodup : names.Nodup
  named : ∀ name ∈ names, IsName name
  complete : ∀ name,
    tree.node (links.follow (location ++ [name])) ≠ none → name ∈ names

/-- Through the links, from a working directory. -/
def through (links : Links) (workingDirectory : Location) : Resolving :=
  fun tree => links.resolve tree workingDirectory

section Walking

variable {links : Links} {tree : FileTree}
variable {workingDirectory source : Location}
variable {listing : Location → List PathName}

/-- The records of some work are those of what the work is about. -/
def Recorded
    (links : Links) (tree : FileTree) (workingDirectory source : Location)
    (isDirectory : tree.node source = some .directory) :
    Work → List Entry → Prop
  | .directory dirToCompress relativePath, entries =>
      ∀ below location,
        links.descend tree source below = some location →
          through links workingDirectory tree dirToCompress =
            some location →
          0 ∉ dirToCompress →
          RecordsOf (links.seen tree source isDirectory) below relativePath
            Everything (entries.map Record.ofEntry)
  | .entries dirToCompress relativePath names, entries =>
      ∀ below location,
        links.descend tree source below = some location →
          through links workingDirectory tree dirToCompress =
            some location →
          0 ∉ dirToCompress →
          tree.node location = some .directory →
          names.Nodup →
          (∀ name ∈ names, IsName name) →
          RecordsOf (links.seen tree source isDirectory) below relativePath
            (StartsIn names) (entries.map Record.ofEntry)

variable {inDirectory : tree.node source = some .directory}

/-- The next entry, if its own records are known. -/
theorem recorded_cons
    {dirToCompress relativePath name : PathName} {names : List PathName}
    {first others : List Entry}
    (ofFirst : ∀ below location,
      links.descend tree source below = some location →
        through links workingDirectory tree (join dirToCompress name) =
          some location →
        0 ∉ join dirToCompress name →
        RecordsOf (links.seen tree source inDirectory) below
          (join relativePath (filename (join dirToCompress name)))
          Everything (first.map Record.ofEntry))
    (ofOthers : Recorded links tree workingDirectory source inDirectory
      (.entries dirToCompress relativePath names) others) :
    Recorded links tree workingDirectory source inDirectory
      (.entries dirToCompress relativePath (name :: names))
      (first ++ others) := by
  intro below location leads resolved noNul isDirectory nodup areNames
  rw [List.nodup_cons] at nodup
  rw [List.forall_mem_cons] at areNames
  have isName := areNames.1
  have records := ofFirst (below ++ [name]) _
    (Links.descend_concat leads isDirectory name)
    (Links.resolve_join_name resolved isDirectory noNul isName)
    (FileTree.no_nul_join noNul isName.no_nul)
  rw [filename_join isName] at records
  rw [List.map_append]
  exact records.entry nodup.1
    (ofOthers below location leads resolved noNul isDirectory nodup.2
      areNames.2)

/-- What is neither a directory nor a regular file is not there. -/
theorem statusWith_of_neither
    {leads : Resolving} {path : PathName}
    (notDirectory : isDirectoryWith leads tree path = false)
    (noFile : regularFileWith leads tree path = none) :
    statusWith leads tree path = none := by
  rw [isDirectoryWith, decide_eq_false_iff_not] at notDirectory
  rw [regularFileWith] at noFile
  rcases found : statusWith leads tree path with _ | (_ | content)
  · rfl
  · exact absurd found notDirectory
  · rw [found] at noFile
    cases noFile

theorem statusWith_of_regularFile
    {leads : Resolving} {path : PathName} {content : Bytes}
    (isFile : regularFileWith leads tree path = some content) :
    statusWith leads tree path = some (.file content) := by
  rw [regularFileWith] at isFile
  rcases found : statusWith leads tree path with _ | (_ | other)
  · rw [found] at isFile
    cases isFile
  · rw [found] at isFile
    cases isFile
  · rw [found] at isFile
    cases isFile
    rfl

/-- What a path leads to is what is seen there. -/
theorem seen_of_statusWith
    (inDirectory : tree.node source = some .directory)
    {path : PathName} {below location : Location}
    (leads : links.descend tree source below = some location)
    (resolved :
      through links workingDirectory tree path = some location) :
    (links.seen tree source inDirectory).node below =
      statusWith (through links workingDirectory) tree path := by
  rw [statusWith, resolved, Option.bind_some]
  exact Links.found_of_descend leads

theorem recorded_of_packed
    (lists : ∀ below location,
      links.descend tree source below = some location →
      tree.node location = some .directory →
      Lists links tree location (listing location))
    {work : Work} {entries : List Entry}
    (packed : Packed (through links workingDirectory) tree listing work
      entries) :
    Recorded links tree workingDirectory source inDirectory work entries := by
  induction packed with
  | @directory _ _ location _ _ resolved isDirectory _ inductionHypothesis =>
      intro below _ leads resolvedBelow noNul
      cases resolved.symm.trans resolvedBelow
      have listsNames := lists below location leads isDirectory
      have isSeen : (links.seen tree source inDirectory).node below =
          some .directory :=
        (Links.found_of_descend leads).trans isDirectory
      apply RecordsOf.directory isSeen
      · intro name present
        apply listsNames.complete
        rwa [← Links.found_of_descend
          (Links.descend_concat leads isDirectory name)]
      · exact inductionHypothesis below location leads resolved noNul
          isDirectory listsNames.nodup listsNames.named
  | done =>
      intro below _ _ _ _ _ _ _
      exact RecordsOf.nothing
  | subdirectory _ _ _ firstHypothesis othersHypothesis =>
      exact recorded_cons firstHypothesis othersHypothesis
  | @file _ _ _ _ _ payload _ _ isFile _ _ inductionHypothesis =>
      show Recorded _ _ _ _ _ _ ([fileEntry _ payload] ++ _)
      apply recorded_cons _ inductionHypothesis
      intro below location leads resolved _
      have isSeen := (seen_of_statusWith inDirectory leads resolved).trans
        (statusWith_of_regularFile isFile)
      exact RecordsOf.file isSeen payload
  | other notDirectory noFile _ inductionHypothesis =>
      show Recorded _ _ _ _ _ _ ([] ++ _)
      apply recorded_cons _ inductionHypothesis
      intro below location leads resolved _
      have isSeen := (seen_of_statusWith inDirectory leads resolved).trans
        (statusWith_of_neither notDirectory noFile)
      exact RecordsOf.free isSeen

end Walking

/-! ## One more entry -/

/-- One more thing in the tree is one more record. -/
theorem RecordsOf.not_of_more
    {before after : FileTree} {root : PathName} {records : List Record}
    (more : ∀ below, before.node below ≠ none → after.node below ≠ none)
    {archive : Location}
    (isFree : before.node archive = none)
    (isThere : after.node archive ≠ none)
    (ofAfter : RecordsOf after [] root Everything records) :
    ¬ RecordsOf before [] root Everything records := by
  rintro ⟨first, firstNodup, mem_first, describeFirst⟩
  rcases ofAfter with ⟨second, secondNodup, mem_second, describeSecond⟩
  have isNew : archive ∉ first := by
    intro member
    exact ((mem_first archive).1 member).2 isFree
  have within : archive :: first ⊆ second := by
    apply List.cons_subset.2
    constructor
    · exact (mem_second archive).2 ⟨trivial, isThere⟩
    · intro below member
      exact (mem_second below).2
        ⟨trivial, more below ((mem_first below).1 member).2⟩
  have longer := ((List.nodup_cons.2 ⟨isNew, firstNodup⟩).subperm
    within).length_le
  rw [List.length_cons, describeFirst.length_eq, describeSecond.length_eq]
    at longer
  exact Nat.not_succ_le_self _ longer

end DropFile.Client.LinkedTrees
