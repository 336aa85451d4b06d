import KafkaDriver.ResolutionCapacity
import KafkaDriver.CoordinatorEvidence
import KafkaDriver.SessionAgreement
import KafkaDriver.AuthenticationGate
import KafkaDriver.TimerOwnership
import KafkaDriver.ConnectionLifecycle
import KafkaDriver.ConnectionRefusals
import KafkaDriver.MetadataGenerations
import KafkaDriver.TopicViewOutcomes
import KafkaDriver.InvalidationBarriers
import KafkaDriver.HostFailures
import KafkaDriver.CoordinatorRetries
import KafkaDriver.CoordinatorLiveness
import KafkaDriver.ScanOrder
import KafkaDriver.WaitingLaw
import KafkaDriver.BootstrapPasses
import KafkaDriver.EndpointDialer
import KafkaDriver.KafkaFrameDecoder
import KafkaDriver.PartitionRanges
import KafkaDriver.PendingIdentities
import KafkaDriver.Backoff
import KafkaDriver.CanonicalSets
import KafkaDriver.FrameProgress
import KafkaDriver.ResolutionFence
