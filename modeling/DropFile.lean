import DropFile.General.FuelledProgram
import DropFile.General.Processes
import DropFile.General.ProcessRuns
import DropFile.General.CommutingSteps
import DropFile.General.Networks
import DropFile.General.Dialogues
import DropFile.General.Stages
import DropFile.General.Worklists
import DropFile.General.LittleEndian
import DropFile.General.PathNames
import DropFile.General.Files
import DropFile.General.SymbolicLinks
import DropFile.General.Utf8
import DropFile.Streams
import DropFile.FileSystem
import DropFile.JsonObjects
import DropFile.FlatJson
import DropFile.Socket
import DropFile.Framing
import DropFile.ContentLoops
import DropFile.Utils
import DropFile.InitSessionMessage
import DropFile.Client.Zstd
import DropFile.Client.ZstdRoundTrip
import DropFile.Client.DecompressRuns
import DropFile.Client.CutFrames
import DropFile.Client.EntryInfo
import DropFile.Client.ArchiveManager
import DropFile.Client.LiveUnpacking
import DropFile.Client.ArchiveRoundTrip
import DropFile.Client.UnpackedPaths
import DropFile.Client.UnpackingEnds
import DropFile.Client.DropFileReceiveClient
import DropFile.Client.DropFileSendClient
import DropFile.SessionMessages
import DropFile.Client.SendLoop
import DropFile.Client.Announcements
import DropFile.Client.ReceivedFiles
import DropFile.Server.SessionsManager
import DropFile.Server.SessionHistory
import DropFile.Server.ServerSideClientSession
import DropFile.Server.Relay
import DropFile.Server.FirstRead
import DropFile.Server.FailedHandling
import DropFile.Server.Transfers
import DropFile.Server.Serving
import DropFile.Client.RunDropFileClient
import DropFile.Client.FirstMessages
import DropFile.Parties
import DropFile.Consent
import DropFile.Client.ReceivingPhases
import DropFile.Client.AnnouncedRuns
import DropFile.Client.ExistingFiles
import DropFile.ConstMessages
import DropFile.Client.ServerResponses
import DropFile.SocketBuffers
import DropFile.Client.RAIIFSEntry
import DropFile.Client.PackedEntries
import DropFile.Client.SentNames
import DropFile.Client.AcceptedArchives
import DropFile.Client.MetadataSizes
import DropFile.Client.PackingEnds
import DropFile.Client.LinkedTrees
import DropFile.Client.LiveArchives
import DropFile.Client.ReceivePaths
import DropFile.Client.LeftBehind
import DropFile.WrittenContents
import DropFile.Client.FileHashes
import DropFile.FileSizes
import DropFile.Server.ServedVisits
import DropFile.HonestTransfers
import DropFile.Client.SparedFiles
import DropFile.Client.SendStages
import DropFile.Client.ReceiveStages
import DropFile.Client.PackingSteps
import DropFile.Client.UnpackingSteps
import DropFile.Client.SparingStages
import DropFile.Client.SharedDiskSteps
import DropFile.Client.SharedDisk
import DropFile.Server.ServedTransfers
import DropFile.Client.PackedTrees
import DropFile.Client.TemporaryDirectories
import DropFile.General.FreshDirectories
import DropFile.Client.SentDirectories
import DropFile.Client.ReceivedDirectories
import DropFile.ManyTransfers
import DropFile.Client.SentContents
import DropFile.Client.ReceivedContents
import DropFile.FinishedTransfers
import DropFile.Server.EventLoop
import DropFile.Server.EventLoopRuns
import DropFile.Server.EventLoopRefinement
import DropFile.Server.EventLoopSafety
import DropFile.ConcurrentClients
import DropFile.Client.Traces
import DropFile.Server.SessionCodes
import DropFile.General.Interference
import DropFile.Server.ControllerThread
import DropFile.WholeSystem
