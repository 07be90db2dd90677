import ModelRegistry.IdentifierJson
import ModelRegistry.JsonText
import ModelRegistry.JsonWriter
import ModelRegistry.Schedule
import ModelRegistry.Proofs.Reconciliation
import ModelRegistry.Proofs.SessionChanges
import ModelRegistry.Proofs.RegistryHistory
import ModelRegistry.Proofs.GateOrder
import ModelRegistry.Proofs.SessionOrder
import ModelRegistry.Proofs.DiscoveryCalls
import ModelRegistry.Proofs.RefreshProtocol
import ModelRegistry.Proofs.RefreshProvenance
import ModelRegistry.Proofs.KindStability
import ModelRegistry.Proofs.WayBack
import ModelRegistry.Proofs.MapperLikeness
import ModelRegistry.Proofs.SessionLikeness
import ModelRegistry.Proofs.StripeIndependence
import ModelRegistry.Proofs.ClockOrders
import ModelRegistry.Proofs.BatchCalls
import ModelRegistry.Proofs.BeginningOrder
import ModelRegistry.Proofs.RefreshRush
import ModelRegistry.Proofs.GateSuccession
import ModelRegistry.Proofs.BatchRush
import ModelRegistry.Proofs.FailedDiscovery
import ModelRegistry.Proofs.SlowDiscovery
import ModelRegistry.Proofs.RoundTrips
import ModelRegistry.Proofs.RegistryCoherence
import ModelRegistry.Proofs.ReconciliationOrder
import ModelRegistry.Proofs.DeadlineAdvance
import ModelRegistry.Proofs.RunningAhead
import ModelRegistry.Proofs.FastCheck
import ModelRegistry.Proofs.InverseLookups
import ModelRegistry.Proofs.BootstrapOwners
import ModelRegistry.Proofs.BootstrapOrder
import ModelRegistry.Proofs.EarlierCalls
import ModelRegistry.Proofs.FreshStart
import ModelRegistry.Proofs.DurationRoundTrip
import ModelRegistry.Proofs.RecordMembers
import ModelRegistry.Proofs.ConfigRoundTrip
import ModelRegistry.Proofs.NameGrammar
import ModelRegistry.Proofs.ReconciliationEffect
import ModelRegistry.Proofs.NameCollisions
import ModelRegistry.Proofs.BootstrapAccounts
import ModelRegistry.Proofs.NameComposition
import ModelRegistry.Proofs.GroupVersionText
import ModelRegistry.Proofs.ReconciliationAgain
import ModelRegistry.Proofs.FurtherStems
import ModelRegistry.Proofs.JsonReaders
import ModelRegistry.Proofs.LongerIntervals
import ModelRegistry.Proofs.ConfigSections
import ModelRegistry.Proofs.FieldKinds
import ModelRegistry.Proofs.WireForms
import ModelRegistry.Proofs.SimpleNames
import ModelRegistry.Proofs.QualifiedCandidates
