import DropFile.Client.SharedDiskSteps

/-!
# Clients on one disk

Any number of senders and receivers take their steps on the same file tree, in
any order.  An archive is needed from the moment when its file is opened to be
written to the last time that its client looks it up.
-/

namespace DropFile.Client.SharedDisk

open DropFile.General.FuelledProgram
open DropFile.General.Processes.Process
open DropFile.General.PathNames
open DropFile.General.Files
open DropFile.General.Files.FileTree
open DropFile.General.Stages
open DropFile.Streams
open DropFile.FileSystem
open DropFile.Socket
open DropFile.Client.DropFileSendClient hiding construct destroy
open DropFile.Client.DropFileReceiveClient hiding Machine construct destroy
open DropFile.Client.ExistingFiles hiding Spares
open DropFile.Client.SparedFiles
open DropFile.Client.SparingStages
open DropFile.Client.SendStages (SendStage)
open DropFile.Client.SentNames (archivePath)
open DropFile.Client.PackingSteps (PackingStage)
open DropFile.Client.ReceiveStages (ReceiveStage Incoming)
open DropFile.Client.UnpackingSteps (UnpackingStage)

/-! ## What the others need -/

section Names

variable {Name : Type}

/-- What another client needs: its archive and the way to it. -/
def NeededByOthers (world : Clients Name) (name : Name)
    (location : Location) : Prop :=
  ∃ other path content, other ≠ name ∧
    (world.member other).holding = some (path, content) ∧
    location ∈ world.shared.way (world.member other).workingDirectory path

/-- The next step of the client spares what the others need. -/
def Considerate (world : Clients Name) (name : Name) : Prop :=
  (world.member name).Spares (NeededByOthers world name) world.shared

end Names

/-! ## What a step does -/

/-- What a client has of its archive after a step. -/
inductive Follows (client next : ClientProcess) (tree later : FileTree) :
    Prop where
  | nothing :
      next.holding = none →
      Follows client next tree later
  | same :
      next.holding = client.holding →
      next.written = none ∨ next.written = client.written →
      later = tree →
      Follows client next tree later
  | writes {path : PathName} {location : Location} {before content : Bytes} :
      client.holding = some (path, before) →
      client.written = some (location, before) →
      next.holding = some (path, content) →
      next.written = none ∨ next.written = some (location, content) →
      later = tree.place location (.file content) →
      Follows client next tree later
  | opens {path : PathName} {location : Location} :
      client.written = none →
      next.holding = some (path, []) →
      next.written = some (location, []) →
      tree.resolve client.workingDirectory path = some location →
      tree.CanPlace location →
      later = tree.place location (.file []) →
      Follows client next tree later

section Stages

variable {tree : FileTree} {kept : Location → Prop}

theorem Sender.part_leaves
    (sender : Sender)
    (notPacking : sender.stage ≠ .packing)
    (present : ∀ location, kept location → tree.node location ≠ none)
    (spares : (ClientProcess.sender sender).Spares kept tree) :
    Leaves (sender.view tree) sender.part
      (fun stage later => Unchanged kept tree later.tree ∧
        Follows (.sender sender) (.sender (sender.next stage later)) tree
          later.tree)
      (fun _ _ => True) := by
  rcases sender with
    ⟨machine, fileToSendPath, fuel, stage, handed, packing, archive⟩
  have clears (path : PathName)
      (spares : SparesRemoval kept tree machine.workingDirectory path) :
      Leaves ⟨tree, handed⟩
        (ofProgram (removeAll machine.workingDirectory path) :
          SenderProcess Unit Unit)
        (fun _ later => Unchanged kept tree later.tree) (fun _ _ => True) :=
    (leaves_of_sparing
      (@removeAll_sparing kept ⟨tree, handed⟩ _ _ spares)).regardless
  cases stage with
  | clearing =>
      apply (clears _ (spares.clearing _ rfl)).bind
      intro _ later unchanged
      exact .pure ⟨unchanged, .nothing rfl⟩
  | making =>
      have creates := @createDirectories_sparing kept ⟨tree, handed⟩
        machine.workingDirectory present (senderTmpDir machine)
      apply Leaves.attempt_resume
      apply (leaves_of_sparing creates).weaken
      · exact fun _ _ unchanged => ⟨unchanged, .nothing rfl⟩
      · exact fun _ _ unchanged => ⟨unchanged, .nothing rfl⟩
  | testing =>
      apply Leaves.getState_bind
      split_ifs
      · exact .pure ⟨Unchanged.refl _, .nothing rfl⟩
      · exact .pure ⟨Unchanged.refl _, .nothing rfl⟩
  | packing => exact absurd rfl notPacking
  | describing entry isCompressed =>
      apply Leaves.getState_bind
      apply Leaves.pure
      constructor
      · exact Unchanged.refl _
      · show Follows _ (.sender (Sender.next _ (SendStages.afterDescribing
          entry (SendStages.metadataMessage machine tree entry isCompressed))
            ⟨tree, handed⟩)) tree tree
        cases SendStages.metadataMessage machine tree entry isCompressed with
        | ok message => exact .same rfl (Or.inl rfl) rfl
        | error exception => exact .nothing rfl
  | announcing entry message =>
      apply LeavesAlone.attempt_resume
      · apply (send_leavesAlone () message).bind
        intro _
        exact getReceiveCodeFromServer_leavesAlone () machine
      · exact fun _ => ⟨Unchanged.refl _, .same rfl (Or.inl rfl) rfl⟩
      · exact fun _ => ⟨Unchanged.refl _, .nothing rfl⟩
  | waiting entry =>
      apply LeavesAlone.attempt_resume (receiveACK_leavesAlone ())
      · exact fun _ => ⟨Unchanged.refl _, .same rfl (Or.inl rfl) rfl⟩
      · exact fun _ => ⟨Unchanged.refl _, .nothing rfl⟩
  | opening entry =>
      apply Leaves.getState_bind
      apply Leaves.pure
      constructor
      · exact Unchanged.refl _
      · show Follows _ (.sender (Sender.next _ (SendStages.afterOpening entry
          (regularFile tree machine.workingDirectory entry.path))
            ⟨tree, handed⟩)) tree tree
        cases regularFile tree machine.workingDirectory entry.path with
        | none => exact .nothing rfl
        | some content => exact .nothing rfl
  | sending entry content =>
      apply LeavesAlone.attempt_resume
      · exact (sendContent_leavesAlone () machine fuel _).bind fun _ =>
          receiveACK_leavesAlone ()
      · exact fun _ => ⟨Unchanged.refl _, .nothing rfl⟩
      · exact fun _ => ⟨Unchanged.refl _, .nothing rfl⟩
  | dropping entry ending =>
      have drops : Leaves ⟨tree, handed⟩
          (destroyEntry machine entry : SenderProcess Unit Unit)
          (fun _ later => Unchanged kept tree later.tree)
          (fun _ _ => True) := by
        rw [destroyEntry]
        split_ifs with removes
        · exact clears _ (spares.clearing _ (if_pos removes))
        · exact .pure (Unchanged.refl _)
      apply drops.bind
      intro _ later unchanged
      exact .pure ⟨unchanged, .nothing rfl⟩
  | destroying ending =>
      apply (clears _ (spares.clearing _ rfl)).bind
      intro _ later unchanged
      exact .pure ⟨unchanged, .nothing rfl⟩
  | ended ending => exact .pure ⟨Unchanged.refl _, .nothing rfl⟩

/-- What a step of `createArchive` leaves of the disk and of the archive. -/
theorem Sender.packs_follows
    {sender : Sender} {packing : PackingStage} {later : Disk}
    (isPacking : sender.stage = .packing)
    (packs : sender.Packs sender.packing (sender.view tree) packing later)
    (spares : (ClientProcess.sender sender).Spares kept tree) :
    Unchanged kept tree later.tree ∧
      Follows (.sender sender) (.sender (sender.packed packing later)) tree
        later.tree := by
  have changes := PackingSteps.Act.changes _ _ packs
  rcases sender with
    ⟨machine, fileToSendPath, fuel, stage, handed, now, archive⟩
  dsimp only at isPacking
  subst isPacking
  have start : ∀ opened, (now.opened = some opened) →
      ¬ kept opened := by
    intro location isOpen
    apply spares.writing (location, archive.getD [])
    show now.opened.map _ = _
    rw [isOpen]
    rfl
  rcases later with ⟨final, finalHanded⟩
  cases changes with
  | tests => exact ⟨Unchanged.refl _, .nothing rfl⟩
  | refuses _ error => exact ⟨Unchanged.refl _, .nothing rfl⟩
  | opens tasks newArchive resolved possible =>
      constructor
      · exact unchanged_place (spares.opening _ rfl _ resolved possible) _
      · exact .opens rfl rfl rfl resolved possible rfl
  | opensNothing => exact ⟨Unchanged.refl _, .nothing rfl⟩
  | walks => exact ⟨Unchanged.refl _, .same rfl (Or.inr rfl) rfl⟩
  | finishes opened tasks newArchive other ending =>
      refine ⟨Unchanged.refl _, ?_⟩
      cases ending with
      | ok value => exact .same rfl (Or.inr rfl) rfl
      | error error => exact .nothing rfl
  | closes opened newArchive ending =>
      cases opened with
      | none =>
          refine ⟨Unchanged.refl _, ?_⟩
          cases ending with
          | ok value => exact .same rfl (Or.inl rfl) rfl
          | error error => exact .nothing rfl
      | some location =>
          refine ⟨unchanged_place (start location rfl) _, ?_⟩
          cases ending with
          | ok value =>
              cases archive with
              | none => exact .nothing rfl
              | some before =>
                  exact .writes rfl rfl rfl (Or.inl rfl) rfl
          | error error => exact .nothing rfl
  | rests ending =>
      refine ⟨Unchanged.refl _, ?_⟩
      cases ending with
      | ok value => exact .same rfl (Or.inl rfl) rfl
      | error error => exact .nothing rfl

/-- What reaches the file of the archive while it is open. -/
theorem Sender.flushes_follows
    {sender : Sender} {location : Location}
    (isOpen : sender.opened = some location)
    (spares : (ClientProcess.sender sender).Spares kept tree)
    (content : Bytes) :
    Unchanged kept tree (tree.place location (.file content)) ∧
      Follows (.sender sender) (.sender (sender.flushed content)) tree
        (tree.place location (.file content)) := by
  have isWritten : sender.written =
      some (location, sender.archive.getD []) := by
    rw [Sender.written, isOpen]
    rfl
  constructor
  · exact unchanged_place (spares.writing _ isWritten) _
  · have needs : (sender.flushed content).needed = sender.needed := rfl
    cases need : sender.needed with
    | none =>
        apply Follows.nothing
        show (sender.flushed content).holding = none
        rw [Sender.holding, needs, need]
        rfl
    | some path =>
        cases left : sender.archive with
        | none =>
            apply Follows.nothing
            show (sender.flushed content).holding = none
            rw [Sender.holding, needs, need, Sender.flushed, left]
            rfl
        | some before =>
            apply Follows.writes _ _ _ _ rfl
            · exact path
            · exact before
            · show sender.holding = some (path, before)
              rw [Sender.holding, need, left]
              rfl
            · show sender.written = some (location, before)
              rw [isWritten, left]
              rfl
            · show (sender.flushed content).holding = some (path, content)
              rw [Sender.holding, needs, need, Sender.flushed, left]
              rfl
            · apply Or.inr
              show (sender.flushed content).opened.map _ =
                some (location, content)
              have same : (sender.flushed content).opened = sender.opened :=
                rfl
              rw [same, isOpen, Sender.flushed, left]
              rfl

theorem Receiver.holding_of_noFile
    {receiver : Receiver}
    (noFile : receiver.receiving.receivedFile = none) :
    receiver.holding = none := by
  rw [holding, noFile]
  cases receiver.needed with
  | none => rfl
  | some path => rfl

/-- The file of a receiver has just been opened. -/
theorem Receiver.opens_follows
    {receiver : Receiver} {incoming : Incoming} {totalTransferredBytes
      left : Nat} {later : Receiving} {location : Location}
    (isOpening : receiver.stage = .opening incoming)
    (resolved : tree.resolve receiver.machine.workingDirectory
      incoming.path = some location)
    (possible : tree.CanPlace location)
    (placed : later.disk.tree = tree.place location (.file []))
    (isFile : later.receivedFile = some (location, [])) :
    Follows (.receiver receiver)
      (.receiver (receiver.next
        (.receiving incoming totalTransferredBytes left) later))
      tree later.disk.tree := by
  rcases incoming with ⟨serverResponse, path, _ | _, expectedBytes⟩
  · exact .nothing rfl
  · apply Follows.opens _ _ _ resolved possible placed
    · show receiver.written = none
      rw [Receiver.written, isOpening]
    · show (later.receivedFile.map fun file => (path, file.2)) = _
      rw [isFile]
      rfl
    · exact isFile

/-- What has come is written to the file of a receiver. -/
theorem Receiver.writes_follows
    {receiver : Receiver} {incoming : Incoming}
    {totalTransferredBytes left : Nat} {stage : ReceiveStage}
    (isReceiving : receiver.stage =
      .receiving incoming totalTransferredBytes left)
    (data : Bytes)
    (onward : (∃ total fuel, stage = .receiving incoming total fuel) ∨
      stage = .acknowledging incoming) :
    Follows (.receiver receiver)
      (.receiver (receiver.next stage ((receiver.view tree).write data)))
      tree ((receiver.view tree).write data).disk.tree := by
  rcases receiver with
    ⟨machine, interactionStream, receiveCode, fuel, _,
      ⟨disk, receivedFile, unpackingPath⟩, unpacking⟩
  cases isReceiving
  rcases incoming with ⟨serverResponse, path, _ | _, expectedBytes⟩
  · rcases onward with ⟨total, fuel, rfl⟩ | rfl
    · exact .nothing rfl
    · exact .nothing rfl
  · cases receivedFile with
    | none =>
        rcases onward with ⟨total, fuel, rfl⟩ | rfl
        · exact .nothing rfl
        · exact .nothing rfl
    | some file =>
        rcases onward with ⟨total, fuel, rfl⟩ | rfl
        · exact .writes rfl rfl rfl (Or.inr rfl) rfl
        · exact .writes rfl rfl rfl (Or.inl rfl) rfl

theorem Receiver.part_leaves
    (receiver : Receiver)
    (notUnpacking : ∀ incoming, receiver.stage ≠ .unpacking incoming)
    (present : ∀ location, kept location → tree.node location ≠ none)
    (spares : (ClientProcess.receiver receiver).Spares kept tree) :
    Leaves (receiver.view tree) receiver.part
      (fun stage later => Unchanged kept tree later.disk.tree ∧
        Follows (.receiver receiver) (.receiver (receiver.next stage later))
          tree later.disk.tree)
      (fun _ _ => True) := by
  rcases receiver with
    ⟨machine, interactionStream, receiveCode, fuel, stage, receiving,
      unpacking⟩
  have clears
      (spares : SparesRemoval kept tree machine.workingDirectory
        (receiverTmpDir machine)) :
      Leaves ⟨⟨tree, receiving.disk.handed⟩, receiving.receivedFile,
          receiving.unpacking⟩
        (DropFileReceiveClient.destroy machine : ReceiverProcess Unit Unit)
        (fun _ later => Unchanged kept tree later.disk.tree)
        (fun _ _ => True) :=
    (@leaves_onDisk_of_sparing kept Unit _ _
      ⟨⟨tree, receiving.disk.handed⟩, receiving.receivedFile,
        receiving.unpacking⟩ _ (removeAll_sparing spares)).regardless
  cases stage with
  | clearing =>
      apply (clears (spares.clearing _ rfl)).bind
      intro _ later unchanged
      exact .pure ⟨unchanged, .nothing rfl⟩
  | making =>
      have creates := @createDirectories_sparing kept
        ⟨tree, receiving.disk.handed⟩ machine.workingDirectory present
        (receiverTmpDir machine)
      apply Leaves.attempt_resume
      apply (leaves_onDisk_of_sparing creates).weaken
      · exact fun _ _ unchanged => ⟨unchanged, .nothing rfl⟩
      · exact fun _ _ unchanged => ⟨unchanged, .nothing rfl⟩
  | requesting =>
      apply LeavesAlone.attempt_resume
      · apply (LeavesAlone.ofExcept _).bind
        intro message
        exact (send_leavesAlone () message).bind fun _ =>
          receive_leavesAlone ()
      · exact fun _ => ⟨Unchanged.refl _, .nothing rfl⟩
      · exact fun _ => ⟨Unchanged.refl _, .nothing rfl⟩
  | checking received =>
      apply Leaves.getState_bind
      apply Leaves.pure
      constructor
      · exact Unchanged.refl _
      · show Follows _ (.receiver (Receiver.next _
          (ReceiveStages.afterChecking (checkResponse machine tree received))
            _)) tree tree
        cases checkResponse machine tree received with
        | ok serverResponse => exact .nothing rfl
        | error exception => exact .nothing rfl
  | confirming serverResponse =>
      apply LeavesAlone.attempt_resume
      · exact (getUserConfirmation_leavesAlone () _).bind fun _ =>
          readIncoming_leavesAlone machine serverResponse
      · exact fun _ => ⟨Unchanged.refl _, .nothing rfl⟩
      · exact fun _ => ⟨Unchanged.refl _, .nothing rfl⟩
  | testing incoming =>
      apply Leaves.getState_bind
      split_ifs
      · exact .pure ⟨Unchanged.refl _, .nothing rfl⟩
      · exact .pure ⟨Unchanged.refl _, .nothing rfl⟩
  | opening incoming =>
      apply (openReceivedFile_leaves (spares.opening _ rfl)).bind
      rintro _ later ⟨unchanged, opened⟩
      apply Leaves.pure
      refine ⟨unchanged, ?_⟩
      rcases opened with noFile | ⟨location, resolved, possible, placed, file⟩
      · exact .nothing (holding_of_noFile noFile)
      · exact opens_follows rfl resolved possible placed file
  | receiving incoming totalTransferredBytes left =>
      cases left with
      | zero => exact fun _ _ _ => trivial
      | succ left =>
          have passes := @receivePass_leaves Unit _
            ⟨⟨tree, receiving.disk.handed⟩, receiving.receivedFile,
              receiving.unpacking⟩ () incoming.expectedBytes
            totalTransferredBytes
          have writes := @write_unchanged kept
            ⟨⟨tree, receiving.disk.handed⟩, receiving.receivedFile,
              receiving.unpacking⟩
            fun location bytes isWritten =>
              spares.writing (location, bytes) isWritten
          apply Leaves.attempt_resume
          apply passes.weaken
          · rintro (next | result) later (rfl | ⟨data, rfl⟩)
            · exact ⟨Unchanged.refl _, .same rfl (Or.inr rfl) rfl⟩
            · exact ⟨writes data, writes_follows rfl data
              (Or.inl ⟨_, _, rfl⟩)⟩
            · exact ⟨Unchanged.refl _, .same rfl (Or.inl rfl) rfl⟩
            · exact ⟨writes data, writes_follows rfl data (Or.inr rfl)⟩
          · rintro exception later rfl
            exact ⟨Unchanged.refl _, .nothing rfl⟩
  | acknowledging incoming =>
      apply LeavesAlone.attempt_resume
      · exact (send_leavesAlone () ack).bind fun _ => LeavesAlone.ofExcept _
      · exact fun _ => ⟨Unchanged.refl _, .same rfl (Or.inl rfl) rfl⟩
      · exact fun _ => ⟨Unchanged.refl _, .nothing rfl⟩
  | hashing incoming expectedFileHash =>
      apply LeavesAlone.attempt_resume
        (validateFileHash_leavesAlone machine _ _)
      · intro _
        refine ⟨Unchanged.refl _, ?_⟩
        rcases incoming with ⟨serverResponse, path, _ | _, expectedBytes⟩
        · exact .nothing rfl
        · exact .same rfl (Or.inl rfl) rfl
      · exact fun _ => ⟨Unchanged.refl _, .nothing rfl⟩
  | unpacking incoming => exact absurd rfl (notUnpacking incoming)
  | removing incoming =>
      have removes := @remove_sparing kept ⟨tree, receiving.disk.handed⟩
        _ _ (spares.removing _ rfl)
      apply Leaves.attempt_resume
      apply (leaves_onDisk_of_sparing removes).weaken
      · exact fun _ _ unchanged => ⟨unchanged, .nothing rfl⟩
      · exact fun _ _ unchanged => ⟨unchanged, .nothing rfl⟩
  | destroying ending =>
      apply (clears (spares.clearing _ rfl)).bind
      intro _ later unchanged
      exact .pure ⟨unchanged, .nothing rfl⟩
  | ended ending => exact .pure ⟨Unchanged.refl _, .nothing rfl⟩

theorem Receiver.holding_of_noNeed
    {receiver : Receiver}
    (noNeed : receiver.needed = none) :
    receiver.holding = none := by
  rw [holding, noNeed]
  rfl

theorem Receiver.holding_eq
    {receiver next : Receiver}
    (sameNeed : next.needed = receiver.needed)
    (sameFile : next.receiving.receivedFile =
      receiver.receiving.receivedFile) :
    next.holding = receiver.holding := by
  rw [holding, holding, sameNeed, sameFile]

theorem Receiver.needed_of_unpacking
    {receiver : Receiver} {incoming : Incoming}
    (isUnpacking : receiver.stage = .unpacking incoming) :
    receiver.needed =
      if receiver.unpacking.looksUp then some incoming.path else none := by
  rw [needed, isUnpacking]

/-- The archive is needed until it has been looked up. -/
theorem Receiver.needed_unpacked
    (receiver : Receiver) (incoming : Incoming)
    (unpacking : UnpackingStage) (later : Disk) :
    (receiver.unpacked incoming unpacking later).needed =
      if unpacking.looksUp then some incoming.path else none := by
  rcases unpacking with _ | _ | _ | _ | _ | _ | _ | _ | (_ | _)
  all_goals rfl

theorem Receiver.written_of_looksUp
    {receiver : Receiver} {incoming : Incoming}
    {unpacking : UnpackingStage} {later : Disk}
    (looksUp : unpacking.looksUp = true) :
    (receiver.unpacked incoming unpacking later).written = none := by
  cases unpacking with
  | testing => rfl
  | checking => rfl
  | opening => rfl
  | measuring archive => rfl
  | passing => cases looksUp
  | creating => cases looksUp
  | placing => cases looksUp
  | extracting => cases looksUp
  | ended => cases looksUp

/-- What a step of `unpackArchive` leaves of the disk and of the archive. -/
theorem Receiver.unpacks_follows
    {receiver : Receiver} {incoming : Incoming}
    {unpacking : UnpackingStage} {later : Disk}
    (isUnpacking : receiver.stage = .unpacking incoming)
    (unpacks : receiver.Unpacks incoming receiver.unpacking
      (receiver.view tree).disk unpacking later)
    (present : ∀ location, kept location → tree.node location ≠ none)
    (spares : (ClientProcess.receiver receiver).Spares kept tree) :
    Unchanged kept tree later.tree ∧
      Follows (.receiver receiver)
        (.receiver (receiver.unpacked incoming unpacking later)) tree
        later.tree := by
  have sameNeed
      (lookedUp : receiver.unpacking.looksUp = true)
      (looksUp : unpacking.looksUp = true) :
      (receiver.unpacked incoming unpacking later).needed =
        receiver.needed := by
    rw [needed_unpacked, needed_of_unpacking isUnpacking, looksUp, lookedUp]
  rcases receiver with
    ⟨machine, interactionStream, receiveCode, fuel, _, receiving, now⟩
  cases isUnpacking
  constructor
  · exact unpacks.unchanged present spares.opening spares.writing
  · cases looksUp : unpacking.looksUp with
    | true =>
        rcases unpacks.of_looksUp looksUp with ⟨lookedUp, rfl⟩
        apply Follows.same _ _ rfl
        · exact holding_eq (sameNeed lookedUp looksUp) rfl
        · exact Or.inl (written_of_looksUp looksUp)
    | false =>
        apply Follows.nothing
        apply holding_of_noNeed
        rw [needed_unpacked, looksUp]
        rfl

end Stages

/-! ## What every client relies on -/

/-- The archive of a client is where it writes to, as it left it. -/
def ClientProcess.Intact (tree : FileTree) (client : ClientProcess) : Prop :=
  ∀ path content, client.holding = some (path, content) →
    ∃ location,
      tree.resolve client.workingDirectory path = some location ∧
      tree.node location = some (.file content) ∧
      ∀ file ∈ client.written, file = (location, content)

/-- The archive of a client is where it expects it. -/
def ClientProcess.Finds (tree : FileTree) (client : ClientProcess) : Prop :=
  ∀ path content, client.holding = some (path, content) →
    regularFile tree client.workingDirectory path = some content

section Intact

variable {tree later : FileTree} {client : ClientProcess}

theorem ClientProcess.Intact.finds
    (intact : client.Intact tree) :
    client.Finds tree := by
  intro path content holds
  rcases intact path content holds with ⟨location, resolved, isFile, -⟩
  rw [regularFile, status, resolved, Option.bind_some, isFile]

/-- What another client spares stays intact. -/
theorem ClientProcess.Intact.of_unchanged
    (intact : client.Intact tree)
    (same : ∀ path content, client.holding = some (path, content) →
      ∀ location ∈ tree.way client.workingDirectory path,
        later.node location = tree.node location) :
    client.Intact later := by
  intro path content holds
  rcases intact path content holds with
    ⟨location, resolved, isFile, agrees⟩
  have sameWay := same path content holds
  refine ⟨location, ?_, ?_, agrees⟩
  · rw [← resolved]
    exact resolve_of_way sameWay
  · rw [sameWay location (mem_way resolved).1, isFile]

theorem holding_of_unborn (unborn : client.Unborn) :
    client.holding = none := by
  cases client with
  | sender member =>
      have unborn : member.stage = .clearing := unborn
      rw [ClientProcess.holding, Sender.holding, Sender.needed, unborn]
      rfl
  | receiver member =>
      have unborn : member.stage = .clearing := unborn
      rw [ClientProcess.holding, Receiver.holding, Receiver.needed, unborn]
      rfl

theorem ClientProcess.intact_of_unborn
    (unborn : client.Unborn)
    (tree : FileTree) :
    client.Intact tree := by
  intro path content holds
  cases (holding_of_unborn unborn).symm.trans holds

/-- A client that finds what it has written is not disturbed. -/
theorem ClientProcess.not_disturbed
    {location : Location} {content : Bytes}
    (isFile : tree.node location = some (.file content))
    (agrees : ∀ file ∈ client.written, file = (location, content)) :
    ¬ client.Disturbed tree := by
  rintro ⟨other, bytes, isWritten, differs⟩
  cases agrees (other, bytes) isWritten
  exact differs isFile

theorem ClientProcess.settled_eq
    {settled : FileTree}
    (settles : client.Settles tree later settled)
    (undisturbed : ¬ client.Disturbed tree) :
    settled = later := by
  rcases settles with same | ⟨disturbed, -⟩
  · exact same
  · exact absurd disturbed undisturbed

/-- A file can take the place of a file. -/
theorem canPlace_of_file
    {location : Location} {content : Bytes}
    (isFile : tree.node location = some (.file content)) :
    tree.CanPlace location := by
  have present : tree.node location ≠ none := by
    rw [isFile]
    exact Option.some_ne_none _
  rcases List.eq_nil_or_concat location with rfl | ⟨holder, name, rfl⟩
  · cases tree.root.symm.trans isFile
  · rw [List.concat_eq_append] at isFile present ⊢
    apply canPlace_concat
    · exact tree.named holder name present
    · exact tree.parent holder name present
    · rw [isFile]
      simp

/-- What follows on an intact archive is an intact archive. -/
theorem Follows.intact
    {next : ClientProcess} {settled : FileTree}
    (follows : Follows client next tree later)
    (sameDirectory : next.workingDirectory = client.workingDirectory)
    (intact : client.Intact tree)
    (settles : client.Settles tree later settled) :
    next.Intact settled := by
  intro path content holds
  rw [sameDirectory]
  cases follows with
  | nothing noHolding => cases noHolding.symm.trans holds
  | same sameHolding sameWritten sameTree =>
      rcases intact path content (sameHolding.symm.trans holds) with
        ⟨location, resolved, isFile, agrees⟩
      have undisturbed := ClientProcess.not_disturbed isFile agrees
      rw [ClientProcess.settled_eq settles undisturbed, sameTree]
      refine ⟨location, resolved, isFile, ?_⟩
      intro file isWritten
      rcases sameWritten with closed | same
      · cases closed.symm.trans isWritten
      · exact agrees file (same.symm.trans isWritten)
  | writes held written nextHolds nextWritten placed =>
      cases nextHolds.symm.trans holds
      rcases intact path _ held with ⟨location, resolved, isFile, agrees⟩
      cases agrees _ written
      have undisturbed := ClientProcess.not_disturbed isFile agrees
      have possible := canPlace_of_file isFile
      rw [ClientProcess.settled_eq settles undisturbed, placed]
      refine ⟨_, resolve_place resolved possible _,
        node_place_self possible _, ?_⟩
      intro file isWritten
      rcases nextWritten with closed | same
      · cases closed.symm.trans isWritten
      · exact (Option.some.inj (same.symm.trans isWritten)).symm
  | @opens _ location notWritten nextHolds nextWritten resolved possible
      placed =>
      cases nextHolds.symm.trans holds
      have undisturbed : ¬ client.Disturbed tree := by
        rintro ⟨other, bytes, isWritten, -⟩
        cases notWritten.symm.trans isWritten
      rw [ClientProcess.settled_eq settles undisturbed, placed]
      refine ⟨location, resolve_place resolved possible _,
        node_place_self possible _, ?_⟩
      intro file isWritten
      exact (Option.some.inj (nextWritten.symm.trans isWritten)).symm

end Intact

/-! ## One step -/

section Steps

variable {tree settled : FileTree} {client next : ClientProcess}
variable {kept : Location → Prop}

theorem Step.workingDirectory_eq
    (step : Step tree client settled next) :
    next.workingDirectory = client.workingDirectory := by
  cases step with
  | sender _ _ => rfl
  | packs _ _ _ => rfl
  | flushes _ _ _ => rfl
  | receiver _ _ _ => rfl
  | unpacks _ _ _ => rfl
  | clears _ _ _ => rfl

theorem holding_of_clears
    {path : PathName}
    (clears : client.clears = some path) :
    client.holding = none := by
  cases client with
  | sender member =>
      rcases member with ⟨_, _, _, stage, _, _, _⟩
      cases stage
      all_goals first | rfl | cases clears
  | receiver member =>
      rcases member with ⟨_, _, _, _, stage, _, _⟩
      cases stage
      all_goals first | rfl | cases clears

/-- What a step changes and what follows, whoever takes it. -/
theorem Step.follows
    (step : Step tree client settled next)
    (present : ∀ location, kept location → tree.node location ≠ none)
    (spares : client.Spares kept tree) :
    ∃ later, client.Settles tree later settled ∧
      Unchanged kept tree later ∧ Follows client next tree later := by
  cases step with
  | sender notPacking becomes =>
      exact ⟨_, Or.inl rfl,
        (Sender.part_leaves _ notPacking present spares).of_becomes becomes⟩
  | packs isPacking packs settles =>
      exact ⟨_, settles, Sender.packs_follows isPacking packs spares⟩
  | flushes content isOpen settles =>
      exact ⟨_, settles, Sender.flushes_follows isOpen spares content⟩
  | receiver notUnpacking becomes settles =>
      exact ⟨_, settles,
        (Receiver.part_leaves _ notUnpacking present spares).of_becomes
          becomes⟩
  | unpacks isUnpacking unpacks settles =>
      exact ⟨_, settles,
        Receiver.unpacks_follows isUnpacking unpacks present spares⟩
  | @clears _ path location other clears resolved below =>
      refine ⟨_, Or.inl rfl, ?_, .nothing (holding_of_clears clears)⟩
      apply unchanged_removeAll
      intro keptLocation isKept isBelow
      exact spares.clearing path clears location resolved keptLocation isKept
        (below.trans isBelow)

/-- A step changes nothing that it spares. -/
theorem Step.unchanged
    (step : Step tree client settled next)
    (present : ∀ location, kept location → tree.node location ≠ none)
    (spares : client.Spares kept tree) :
    Unchanged kept tree settled := by
  rcases step.follows present spares with ⟨later, settles, unchanged, -⟩
  rcases settles with rfl | ⟨-, elsewhere⟩
  · exact unchanged
  · intro location isKept
    rw [← unchanged location isKept]
    apply elsewhere
    intro bytes isWritten
    exact spares.writing (location, bytes) isWritten isKept

/-- A client keeps its own archive as it is. -/
theorem Step.intact
    (step : Step tree client settled next)
    (present : ∀ location, kept location → tree.node location ≠ none)
    (spares : client.Spares kept tree)
    (intact : client.Intact tree) :
    next.Intact settled := by
  rcases step.follows present spares with ⟨later, settles, -, follows⟩
  exact follows.intact step.workingDirectory_eq intact settles

end Steps

/-! ## Runs -/

section Runs

variable {Name : Type} {world later : Clients Name}

/-- What the others need is there. -/
theorem present_of_neededByOthers
    (intact : ∀ each, (world.member each).Intact world.shared)
    (name : Name) :
    ∀ location, NeededByOthers world name location →
      world.shared.node location ≠ none := by
  rintro location ⟨other, path, content, -, holds, onWay⟩
  exact present_of_mem_way ((intact other).finds path content holds)
    location onWay

variable [DecidableEq Name]

end Runs

/-! ## Steps without a peer -/

/-- A step that asks for no peer. -/
def ClientProcess.stepAlone (tree : FileTree) :
    ClientProcess → Option (FileTree × ClientProcess)
  | .sender member =>
      match member.stage with
      | .packing =>
          match PackingSteps.step member.machine.zstd
              member.machine.workingDirectory member.machine.listing
              member.fuel member.fileToSendPath
              (archivePath member.machine member.fileToSendPath)
              member.packing (member.view tree) with
          | .returned packing later =>
              some (later.tree, .sender (member.packed packing later))
          | _ => none
      | _ =>
          (runAlone member.part (member.view tree)).map fun ended =>
            (ended.2.tree, .sender (member.next ended.1 ended.2))
  | .receiver member =>
      match member.stage with
      | .unpacking incoming =>
          match UnpackingSteps.step member.machine.zstd
              member.machine.workingDirectory
              (currentPath member.machine.workingDirectory) incoming.path
              member.fuel member.unpacking (member.view tree).disk with
          | .returned unpacking later =>
              some (later.tree,
                .receiver (member.unpacked incoming unpacking later))
          | _ => none
      | _ =>
          (runAlone member.part (member.view tree)).map fun ended =>
            (ended.2.disk.tree, .receiver (member.next ended.1 ended.2))

theorem step_of_stepAlone
    {tree later : FileTree} {client next : ClientProcess}
    (steps : client.stepAlone tree = some (later, next)) :
    Step tree client later next := by
  cases client with
  | sender member =>
      rw [ClientProcess.stepAlone] at steps
      split at steps
      · next isPacking =>
          split at steps
          · next packing later stepped =>
              cases steps
              exact .packs isPacking (.steps stepped) (Or.inl rfl)
          · cases steps
      · next notPacking =>
          rcases Option.map_eq_some_iff.1 steps with
            ⟨⟨stage, disk⟩, runs, same⟩
          cases same
          exact .sender notPacking
            (Becomes.of_plays (plays_of_runAlone runs) silence silence)
  | receiver member =>
      rw [ClientProcess.stepAlone] at steps
      split at steps
      · next incoming isUnpacking =>
          split at steps
          · next unpacking later stepped =>
              cases steps
              exact .unpacks isUnpacking (.steps _ stepped) (Or.inl rfl)
          · cases steps
      · next notUnpacking =>
          rcases Option.map_eq_some_iff.1 steps with
            ⟨⟨stage, receiving⟩, runs, same⟩
          cases same
          exact .receiver notUnpacking
            (Becomes.of_plays (plays_of_runAlone runs) silence silence)
            (Or.inl rfl)

section Schedules

variable {Name : Type} [DecidableEq Name]

/-- The named clients take steps that ask for no peer, in this order. -/
def takeTurns : List Name → Clients Name → Option (Clients Name)
  | [], world => some world
  | name :: names, world =>
      ((world.member name).stepAlone world.shared).bind fun stepped =>
        takeTurns names
          ⟨stepped.1, Function.update world.member name stepped.2⟩

theorem run_of_takeTurns
    {allowed : Clients Name → Name → Prop}
    {world later : Clients Name} {names : List Name}
    (isAllowed : ∀ world name, allowed world name)
    (taken : takeTurns names world = some later) :
    Relation.ReflTransGen (Turn Step allowed) world later := by
  induction names generalizing world with
  | nil =>
      cases taken
      exact .refl
  | cons name names inductionHypothesis =>
      rcases Option.bind_eq_some_iff.1 taken with
        ⟨⟨tree, client⟩, steps, rest⟩
      have turn : Turn Step allowed world
          ⟨tree, Function.update world.member name client⟩ :=
        .take name (isAllowed world name) (step_of_stepAlone steps)
      exact .head turn (inductionHypothesis rest)

/-- Where nothing is kept every step spares it. -/
theorem ClientProcess.spares_of_nothing
    {kept : Location → Prop}
    (nothing : ∀ location, ¬ kept location)
    (tree : FileTree) (client : ClientProcess) :
    client.Spares kept tree := by
  have removal (path : PathName) :
      SparesRemoval kept tree client.workingDirectory path :=
    fun _ _ other isKept => absurd isKept (nothing other)
  exact {
    clearing := fun path _ => removal path
    removing := fun path _ => removal path
    opening := fun _ _ location _ _ => nothing location
    writing := fun file _ => nothing file.1 }

/-- One client that acts before the others are born is considerate. -/
theorem run_of_takeTurns_replicate
    {world later : Clients Name} {name : Name} {count : Nat}
    (unborn : ∀ other, other ≠ name → (world.member other).Unborn)
    (taken : takeTurns (List.replicate count name) world = some later) :
    Relation.ReflTransGen (Turn Step Considerate) world later ∧
      ∀ other, other ≠ name → later.member other = world.member other := by
  induction count generalizing world with
  | zero =>
      cases taken
      exact ⟨.refl, fun _ _ => rfl⟩
  | succ count inductionHypothesis =>
      rcases Option.bind_eq_some_iff.1 taken with
        ⟨⟨tree, client⟩, steps, rest⟩
      have same (other : Name) (different : other ≠ name) :
          Function.update world.member name client other =
            world.member other :=
        Function.update_of_ne different _ _
      have considerate : Considerate world name := by
        apply ClientProcess.spares_of_nothing
        rintro location ⟨other, path, content, different, holds, -⟩
        have noHolding := holding_of_unborn (unborn other different)
        cases noHolding.symm.trans holds
      have turn : Turn Step Considerate world
          ⟨tree, Function.update world.member name client⟩ :=
        .take name considerate (step_of_stepAlone steps)
      have onward := inductionHypothesis
        (fun other different => by
          dsimp only
          rw [same other different]
          exact unborn other different) rest
      constructor
      · exact .head turn onward.1
      · intro other different
        rw [onward.2 other different]
        exact same other different

end Schedules

/-! ## Two clients -/

/-- A client that sends the directory `/d/e`. -/
def sendingClient : ClientProcess :=
  .sender ⟨SentNames.machineInD, ascii "/d/e", 5, .clearing, [], .testing,
    none⟩

def receivingClient : ClientProcess :=
  .receiver ⟨foreignMachine, ascii "y", ascii "old-two-7", 5, .clearing,
    ⟨⟨FileTree.empty, []⟩, none, none⟩, .testing⟩

/-- A sender and another client. -/
def twoClients (other : ClientProcess) : Clients Bool where
  shared := SentNames.freshDisk.tree
  member first := if first then sendingClient else other

/-- Where the sender puts the archive, and what it is. -/
def pathOfE : PathName :=
  ascii "/tmp/drop-file/sender/e"

def archiveOfE : Bytes :=
  EntryInfo.header ⟨true, ascii "e", 0⟩

end DropFile.Client.SharedDisk
