import VMAccel.IdentifierDBCount
import VMAccel.IdentifierDBExact
import VMAccel.IdentifierDBLowest
import VMAccel.IdentifierDBBounds
import VMAccel.DescLockstep
import VMAccel.AllocatorReferences
import VMAccel.AllocatorAccounts
import VMAccel.AllocRangeSafety
import VMAccel.AllocatorUndo
import VMAccel.AllocRangeCoalesce
import VMAccel.AllocIntCounter
import VMAccel.ManagerLeases
import VMAccel.StreamSlots
import VMAccel.StreamFraming
import VMAccel.StreamComplete
import VMAccel.StreamTransfer
import VMAccel.StreamPairing
import VMAccel.BackendGenerations
import VMAccel.BackendMappings
import VMAccel.BackendRegions
import VMAccel.BackendDownloads
import VMAccel.DispatchTopology
import VMAccel.ClientConsistency
import VMAccel.ClientInvalidation
import VMAccel.ClientUpdates
import VMAccel.ClientOnce
import VMAccel.ClientQuiesce
import VMAccel.ClientCopies
import VMAccel.ExecuteHonest
import VMAccel.ServerSurvives
import VMAccel.ServerIsolation
import VMAccel.ServerPlatforms
import VMAccel.AcceleratorOwners
import VMAccel.AcceleratorReach
import VMAccel.AcceleratorResidency
import VMAccel.AcceleratorQueues
import VMAccel.Service
import VMAccel.Transcoder
import VMAccel.Comparators
import VMAccel.TimeStats
import VMAccel.ManagerPlacement
import VMAccel.WireServer
import VMAccel.WireManager
import VMAccel.ClientDeferred
