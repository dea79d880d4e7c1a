import AtomMqtt.V3RoundTrip
import AtomMqtt.V5RoundTrip
import AtomMqtt.PublishLayout
import AtomMqtt.PropertyBounds
import AtomMqtt.Resending
import AtomMqtt.DecoderSafety
import AtomMqtt.AclSoundness
import AtomMqtt.AccessFile
import AtomMqtt.SubscriptionRefinement
import AtomMqtt.FilterAgreement
import AtomMqtt.Delivery
import AtomMqtt.RouterCopies
import AtomMqtt.Handover
import AtomMqtt.Cleanup
import AtomMqtt.Takeover
import AtomMqtt.PublishAuthorisation
import AtomMqtt.SubscriptionAuthorisation
import AtomMqtt.IncrementalDecoding
import AtomMqtt.FramedStream
import AtomMqtt.FramedLosses
import AtomMqtt.PiecewiseConnect
import AtomMqtt.LimitRuns
import AtomMqtt.ExactlyOnce
import AtomMqtt.ConnectParity
import AtomMqtt.SessionResumption
import AtomMqtt.FreshIds
import AtomMqtt.Terminated
import AtomMqtt.VersionParity
import AtomMqtt.RetainedDurability
import AtomMqtt.SessionDurability
import AtomMqtt.StartupRecovery
import AtomMqtt.BackgroundWriter
import AtomMqtt.WillOwnership
import AtomMqtt.RetainedRace
import AtomMqtt.Journal
import AtomMqtt.RouterOrder
import AtomMqtt.TopicNames
import AtomMqtt.DashboardAccess
import AtomMqtt.SubscribeEffects
import AtomMqtt.RemainingLength
import AtomMqtt.AckCodes
import AtomMqtt.TopicMatching
import AtomMqtt.WillDelivery
import AtomMqtt.WebPublish
import AtomMqtt.SubscriptionMetric
import AtomMqtt.Library.Erasure
import AtomMqtt.WebSessions
import AtomMqtt.OtherClients
import AtomMqtt.SessionErasure
import AtomMqtt.Scripts
import AtomMqtt.Behaviour
import AtomMqtt.Client
import AtomMqtt.ClientReads
import AtomMqtt.ClientSends
import AtomMqtt.Links
import AtomMqtt.Acknowledgement
import AtomMqtt.Forwarding
import AtomMqtt.Listening
import AtomMqtt.CrashedStartups
import AtomMqtt.Draining
import AtomMqtt.Conveyance
