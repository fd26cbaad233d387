import DropFile.Client.AnnouncedRuns
import DropFile.Client.ReceivingPhases
import DropFile.Client.ZstdRoundTrip

/-!
# Where the received file goes

Neither the server nor the receiver looks into the announced filename.  What
keeps a file from being created is that there is something at its path already,
or that no path leads there.
-/

namespace DropFile.Client.ReceivePaths

open DropFile.General.Processes.Process
open DropFile.General.PathNames
open DropFile.General.Files
open DropFile.General.Utf8
open DropFile.Streams
open DropFile.FileSystem
open DropFile.Socket
open DropFile.JsonObjects
open DropFile.Utils
open DropFile.InitSessionMessage
open DropFile.SessionMessages
open DropFile.Client.DropFileReceiveClient
open DropFile.Client.Announcements
open DropFile.Client.ReceivedFiles
open DropFile.Client.ReceivingPhases
open DropFile.Client.AnnouncedRuns

/-! ## Joined paths -/

/-- Where a filename leads to from a base directory, lexically. -/
structure Leads (base filename path : PathName) : Prop where
  /-- An absolute filename drops the base. -/
  absolute : isAbsolute filename = true → path = filename
  /-- Below the base, if the filename never climbs. -/
  contained : Contained filename →
    isAbsolute path = isAbsolute base ∧
      normalNames path = normalNames base ++ normalNames filename
  /-- Some levels up from the base and down again. -/
  climbing : isAbsolute base = true → isAbsolute filename = false →
    ∃ count names,
      normalNames filename = List.replicate count dotDot ++ names ∧
        dotDot ∉ names ∧
        normalNames path =
          (normalNames base).take ((normalNames base).length - count) ++
            names ∧
        (DirectChild base path ↔ ∃ name, names =
          (normalNames base).drop ((normalNames base).length - count) ++
            [name])

theorem leads_join (base filename : PathName) :
    Leads base filename (join base filename) where
  absolute := by
    intro absolute
    rw [join, if_pos absolute]
  contained := by
    rintro ⟨relative, contained⟩
    constructor
    · exact isAbsolute_join relative
    · rw [normalNames, relative] at contained
      rw [normalNames_join relative, normalNames.eq_1 filename, relative]
      simpa using collapse_above (normalNames base) List.not_mem_nil
        contained
  climbing := by
    intro absolute relative
    rcases normalNames_join_climbs absolute relative with
      ⟨count, names, isNormal, noUp, leads⟩
    refine ⟨count, names, isNormal, noUp, leads, ?_⟩
    have split := List.take_append_drop
      ((normalNames base).length - count) (normalNames base)
    generalize (normalNames base).length - count = kept at leads split ⊢
    constructor
    · rintro ⟨-, name, -, isChild⟩
      rw [leads] at isChild
      nth_rewrite 2 [← split] at isChild
      rw [List.append_assoc, List.append_right_inj] at isChild
      exact ⟨name, isChild⟩
    · rintro ⟨name, rfl⟩
      refine ⟨isAbsolute_join relative, name, ?_, ?_⟩
      · rintro rfl
        simp at noUp
      · rw [leads, ← List.append_assoc, split]

/-- A contained filename names an entry exactly if it is a single name. -/
theorem directChild_iff_of_contained
    {filename : PathName} (contained : Contained filename)
    (base : PathName) :
    DirectChild base (join base filename) ↔
      ∃ name, normalNames filename = [name] := by
  have leads := (leads_join base filename).contained contained
  constructor
  · rintro ⟨-, name, -, isChild⟩
    rw [leads.2, List.append_right_inj] at isChild
    exact ⟨name, isChild⟩
  · rintro ⟨name, isName⟩
    refine ⟨leads.1, name, ?_, ?_⟩
    · rintro rfl
      exact contained.2 (by simp [isName])
    · rw [leads.2, isName]

/-- A component by itself is an entry of every base. -/
theorem directChild_of_no_slash
    {filename : PathName} (no_slash : slash ∉ filename)
    (ordinary : Ordinary filename) (base : PathName) :
    DirectChild base (join base filename) := by
  have relative := isAbsolute_of_no_slash no_slash
  have isNormal : normalNames filename = [filename] := by
    rw [normalNames, components_of_no_slash no_slash, collapse,
      List.foldl_cons, pushComponent_ordinary ordinary]
    rfl
  have contained : Contained filename := by
    constructor
    · exact relative
    · simpa [isNormal] using ordinary.not_dotDot.symm
  exact (directChild_iff_of_contained contained base).2
    ⟨filename, isNormal⟩

/-! ## The file that is created -/

variable {Peer : Type} {machine : Machine} {disk : Disk}
variable {server : Peer} {moment : Local Peer Receiving}

/-- `receive_path_base` in `receiveFile`. -/
def receivePathBase (machine : Machine) (isCompressed : Bool) : PathName :=
  if isCompressed then receiverTmpDir machine
  else currentPath machine.workingDirectory

/-- The first message that the server has sent is this announcement. -/
structure Announced
    (announcement : Announcement machine disk.tree) (server : Peer)
    (moment : Local Peer Receiving) : Prop where
  fits : announcement.metadata.length ≤ bufferSize
  received : frame announcement.metadata <+: moment.received server

/--
Up to its unpacking the receiver has created the announced file and no other.
-/
structure Creates
    (announcement : Announcement machine disk.tree) (server : Peer)
    (location : Location) (moment : Local Peer Receiving) : Prop extends
    Announced announcement server moment where
  resolved : disk.tree.resolve machine.workingDirectory announcement.path =
    some location
  wasFree : disk.tree.node location = none
  created : moment.state.unpacking = none →
    ∃ content,
      moment.state.disk.tree = disk.tree.place location (.file content)

/-- What is known of the name of a file that is created. -/
structure PlacedAt (base announced path : PathName) : Prop extends
    Leads base announced path where
  single : Contained announced →
    (DirectChild base path ↔ ∃ name, normalNames announced = [name])
  /-- It does not end in a slash, a dot or a dot-dot. -/
  named : 0 ∉ base → 0 ∉ announced →
    Ordinary (filename announced)
  plain : 0 ∉ base → slash ∉ announced → DirectChild base path

theorem creates_of_holds
    {announcement : Announcement machine disk.tree} {bytes : Bytes}
    {holding : Receiving}
    (announced : Announced announcement server moment)
    (holds : Holds announcement bytes holding)
    (sameDisk : moment.state.disk = holding.disk)
    (noArchive : moment.state.unpacking = none) :
    moment.state.disk.tree = disk.tree ∧ moment.state.unpacking = none ∨
      ∃ location, Creates announcement server location moment := by
  cases holds with
  | @opened location free resolved possible =>
      right
      refine ⟨location, announced, resolved, free, ?_⟩
      intro _
      exact ⟨bytes, by rw [sameDisk]; rfl⟩
  | notOpened =>
      left
      rw [sameDisk]
      exact ⟨rfl, noArchive⟩

theorem noArchive_of_holds
    {announcement : Announcement machine disk.tree} {bytes : Bytes}
    {holding : Receiving}
    (holds : Holds announcement bytes holding) :
    holding.unpacking = none := by
  cases holds with
  | opened => rfl
  | notOpened => rfl

theorem creates_of_phase
    {codeWords : Bytes} {fuel : Nat}
    (phase : Phase machine disk server codeWords fuel moment) :
    moment.state.disk.tree = disk.tree ∧ moment.state.unpacking = none ∨
      ∃ (announcement : Announcement machine disk.tree) (location : Location),
        Creates announcement server location moment := by
  have unchanged (isUntouched : moment.state = untouched disk) :
      moment.state.disk.tree = disk.tree ∧ moment.state.unpacking = none := by
    rw [isUntouched]
    exact ⟨rfl, rfl⟩
  have creates {announcement : Announcement machine disk.tree}
      {bytes : Bytes}
      (announced : Announced announcement server moment)
      (holds : Holds announcement bytes moment.state) :
      moment.state.disk.tree = disk.tree ∧ moment.state.unpacking = none ∨
        ∃ (announcement : Announcement machine disk.tree)
          (location : Location),
          Creates announcement server location moment :=
    (creates_of_holds announced holds rfl
      (noArchive_of_holds holds)).imp_right fun created =>
        ⟨announcement, created⟩
  cases phase with
  | silent isUntouched => exact Or.inl (unchanged isUntouched)
  | requests _ isUntouched => exact Or.inl (unchanged isUntouched)
  | declines _ isUntouched => exact Or.inl (unchanged isUntouched)
  | agrees _ isUntouched => exact Or.inl (unchanged isUntouched)
  | @opens _ holding announcement _ fits received holds isState =>
      have announced : Announced announcement server moment :=
        ⟨fits, by rw [received]⟩
      apply (creates_of_holds announced holds _ _).imp_right
      · exact fun created => ⟨announcement, created⟩
      · rw [isState]
      · have noArchive : holding.unpacking = none := noArchive_of_holds holds
        rw [isState]
        exact noArchive
  | fills _ fits _ received holds =>
      apply creates ⟨fits, _⟩ holds
      rw [received, List.append_assoc]
      exact List.prefix_append _ _
  | refuses _ fits _ received _ holds =>
      apply creates ⟨fits, _⟩ holds
      rw [received, List.append_assoc]
      exact List.prefix_append _ _
  | finishes _ fits _ arrived holds =>
      apply creates ⟨fits, _⟩ holds
      rw [arrived.received]
      exact List.prefix_append _ _
  | @unpacks _ _ announcement _ location _ fits _ verified _ free _
      unpacking =>
      right
      refine ⟨announcement, location, ⟨fits, ?_⟩, verified.resolved, free,
        ?_⟩
      · rw [verified.arrived.received]
        exact List.prefix_append _ _
      · intro noArchive
        rw [unpacking] at noArchive
        cases noArchive

/-- A file was created only where the last component is a name. -/
theorem placedAt_of_creates
    {announcement : Announcement machine disk.tree} {location : Location}
    (creates : Creates announcement server location moment) :
    PlacedAt (receivePathBase machine announcement.isCompressed)
      announcement.filename announcement.path := by
  have isPath : announcement.path =
      join (receivePathBase machine announcement.isCompressed)
        announcement.filename :=
    rfl
  have resolved := creates.resolved
  rw [isPath] at resolved ⊢
  have named
      (baseNoNul : 0 ∉ receivePathBase machine announcement.isCompressed)
      (noNul : 0 ∉ announcement.filename) :
      Ordinary (filename announcement.filename) := by
    by_contra noName
    rw [← filename_join_right
      (receivePathBase machine announcement.isCompressed)] at noName
    have isDirectory := FileTree.isDirectory_of_not_ordinary resolved
      (FileTree.no_nul_join baseNoNul noNul) noName
    rw [creates.wasFree] at isDirectory
    cases isDirectory
  exact
    { toLeads := leads_join _ _
      single := fun contained => directChild_iff_of_contained contained _
      named := named
      plain := by
        intro baseNoNul no_slash
        apply directChild_of_no_slash no_slash
        by_cases noNul : 0 ∈ announcement.filename
        · -- the exceptions have no null character
          refine ⟨?_, ?_, ?_⟩
          · rintro isEmpty
            simp [isEmpty] at noNul
          · intro isDot
            rw [isDot] at noNul
            revert noNul
            decide
          · intro isDotDot
            rw [isDotDot] at noNul
            revert noNul
            decide
        · have ordinary := named baseNoNul noNul
          rw [filename, components_of_no_slash no_slash] at ordinary
          exact ordinary }

/-- A machine on which the client is started in `/d`. -/
def climbingMachine : Machine where
  zstd := ZstdRoundTrip.holdingBack Nat.one_pos Nat.one_pos
  library := FlatJson.flatLibrary
  digest := knownDigest (ascii "!") [0xbb]
  workingDirectory := [ascii "d"]
  temporaryDirectory := ascii "/tmp"
  freeSpace _ := 100
  buffering := LiveUnpacking.unbuffered

def climbingDisk : Disk :=
  ⟨FileTree.empty.place [ascii "d"] .directory, []⟩

/-- A file of one byte with this name has come to this location. -/
theorem exists_received
    {announced : PathName} {location : Location}
    (utf8 : IsUtf8 announced)
    (free : fileExists climbingDisk.tree climbingMachine.workingDirectory
      announced = false)
    (missing : climbingDisk.tree.node location = none)
    (resolved : climbingDisk.tree.resolve climbingMachine.workingDirectory
      (receivePath climbingMachine false announced) = some location)
    (possible : climbingDisk.tree.CanPlace location)
    (short : (flatMetadata announced 1 (binaryToHumanReadable [0xbb])
      false).length ≤ bufferSize) :
    ∃ (announcement : Announcement climbingMachine climbingDisk.tree)
      (moment : Local Unit Receiving),
      announcement.metadata =
          flatMetadata announced 1 (binaryToHumanReadable [0xbb]) false ∧
        announcement.path = receivePath climbingMachine false announced ∧
        Becomes (receiveFile climbingMachine () 121 (ascii "a-b-1") 3)
          (starting climbingDisk) (pure ()) moment ∧
        moment.state.receivedFile = some (location, ascii "!") := by
  rcases @exists_announcement climbingMachine climbingDisk.tree rfl announced
      1 (binaryToHumanReadable [0xbb]) false utf8
      (isUtf8_binaryToHumanReadable _) (by decide) free (by decide) with
    ⟨announcement, isMetadata, isFilename, isFileSize, isCompressed,
      fileHashRead⟩
  have isPath : announcement.path =
      receivePath climbingMachine false announced := by
    rw [Announcement.path, isCompressed, isFilename]
  have hashes : HasHash climbingMachine.digest (ascii "!")
      (binaryToHumanReadable [0xbb]) :=
    hasHash_knownDigest (by decide +kernel)
  rcases @becomes_checked climbingMachine FlatJson.flatLibrary_contract
      climbingDisk announcement (by rw [isMetadata]; exact short) location
      (ascii "!") _ missing (by rw [isPath]; exact resolved) possible
      (by decide) (by decide) (by rw [isFileSize]; decide) fileHashRead
      hashes 3 (by decide) with
    ⟨received, sent, becomes⟩
  rw [isCompressed] at becomes
  exact ⟨announcement, _, isMetadata, isPath, becomes, rfl⟩

end DropFile.Client.ReceivePaths
