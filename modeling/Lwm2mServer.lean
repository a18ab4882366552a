import Lwm2mServer.Library.Table
import Lwm2mServer.Library.Machine
import Lwm2mServer.Library.Tasks
import Lwm2mServer.Library.Files
import Lwm2mServer.Library.Crc
import Lwm2mServer.Library.Cbor
import Lwm2mServer.Model
import Lwm2mServer.Json
import Lwm2mServer.Registry
import Lwm2mServer.RegistryIndexes
import Lwm2mServer.Bootstrap
import Lwm2mServer.Coap
import Lwm2mServer.Provisioning
import Lwm2mServer.WritePhase
import Lwm2mServer.Server
import Lwm2mServer.Transitions
import Lwm2mServer.PhaseHistory
import Lwm2mServer.IncludedSet
import Lwm2mServer.Consent
import Lwm2mServer.Reapproval
import Lwm2mServer.Certificates
import Lwm2mServer.WriteAcks
import Lwm2mServer.WriteOrder
import Lwm2mServer.WriteTokens
import Lwm2mServer.WriteOutcome
import Lwm2mServer.RegistrationRace
import Lwm2mServer.AddressIndex
import Lwm2mServer.Persistence
import Lwm2mServer.InFlight
import Lwm2mServer.RestoredRegistry
import Lwm2mServer.DelayedRemoval
import Lwm2mServer.ExclusionEffect
import Lwm2mServer.Heartbeats
import Lwm2mServer.Client
import Lwm2mServer.Gateway
import Lwm2mServer.TrafficClass
import Lwm2mServer.GatewaySteps
import Lwm2mServer.OnlineFlag
import Lwm2mServer.ConnectionStatus
import Lwm2mServer.Exchanges
import Lwm2mServer.OperationIds
import Lwm2mServer.TokenKinds
import Lwm2mServer.AddressText
import Lwm2mServer.RestartedRegistry
import Lwm2mServer.Restarts
import Lwm2mServer.DevicePayload
import Lwm2mServer.DeviceRecords
import Lwm2mServer.JsonMerge
import Lwm2mServer.ReportedState
import Lwm2mServer.AtomicWrites
import Lwm2mServer.StartUp
import Lwm2mServer.Storage
import Lwm2mServer.StorageSteps
import Lwm2mServer.SavedInclusions
import Lwm2mServer.BlockAcks
import Lwm2mServer.BlockTransfer
import Lwm2mServer.RecvSteps
import Lwm2mServer.Ipc
import Lwm2mServer.FirmwareUploads
import Lwm2mServer.RecordSteps
import Lwm2mServer.RegistryFile
import Lwm2mServer.Library.Slices
import Lwm2mServer.LinkFormat
import Lwm2mServer.Events
import Lwm2mServer.DerItems
import Lwm2mServer.BlockStream
import Lwm2mServer.InboundContact
import Lwm2mServer.Resets
import Lwm2mServer.Library.Paths
import Lwm2mServer.StateFiles
import Lwm2mServer.RetransmissionEnd
import Lwm2mServer.MessageIds
import Lwm2mServer.ResourceNames
import Lwm2mServer.KeptReports
import Lwm2mServer.MergeAlgebra
import Lwm2mServer.BlockOutcomes
import Lwm2mServer.NetworkKey
import Lwm2mServer.KeyFile
import Lwm2mServer.SecurityObject
import Lwm2mServer.SenmlRecords
import Lwm2mServer.ReportedValues
import Lwm2mServer.SpecialPaths
import Lwm2mServer.Commands
import Lwm2mServer.CommandPanics
import Lwm2mServer.PingSchedule
import Lwm2mServer.LinkRendering
import Lwm2mServer.SessionIndexes
import Lwm2mServer.DeviceIds
import Lwm2mServer.DerEncoding
import Lwm2mServer.BlockNumbers
import Lwm2mServer.ObjectDefinitions
import Lwm2mServer.Deadlines
import Lwm2mServer.DeviceCertificates
import Lwm2mServer.Responses
import Lwm2mServer.Successes
import Lwm2mServer.Syslog
import Lwm2mServer.FleetRefinement
import Lwm2mServer.Progress
