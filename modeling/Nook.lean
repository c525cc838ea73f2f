import Nook.Replication.CausalGraphAncestry
import Nook.Replication.CausalGraphQuarantine
import Nook.Lib.LinearExtension
import Nook.Replication.CausalGraphOrder
import Nook.EventLog.Event
import Nook.EventLog.Graph
import Nook.EventLog.GraphPast
import Nook.EventLog.GraphQuarantine
import Nook.EventLog.GraphConfluence
import Nook.EventLog.TestSupport
import Nook.EventLog.AuthorizationScan
import Nook.EventLog.Revocation
import Nook.EventLog.Roster
import Nook.EventLog.RosterAuthorization
import Nook.Lib.Register
import Nook.Lib.Journal
import Nook.EventLog.Projection
import Nook.EventLog.ProjectionFold
import Nook.EventLog.ProjectionOutcome
import Nook.EventLog.SecretLiveness
import Nook.EventLog.ProjectionConflicts
import Nook.EventLog.EpochCheckpoint
import Nook.EventLog.TieBreak
import Nook.Lib.Obligation
import Nook.Replication.ReplicaStore
import Nook.EventLog.GraphRestriction
import Nook.EventLog.SecurityTransition
import Nook.EventLog.StoreProjection
import Nook.EventLog.RemoteUnion
import Nook.EventLog.UnionInvariant
import Nook.EventLog.ReplicaConvergence
import Nook.EventLog.GraphOrdering
import Nook.EventLog.UnionOrdering
import Nook.EventLog.HeadVisibility
import Nook.Lib.LeastMap
import Nook.Replication.CausalGraphRun
import Nook.Replication.CausalGraphSemilattice
import Nook.IdentityControl.Wire
import Nook.IdentityControl.Graph
import Nook.IdentityControl.Projection
import Nook.IdentityControl.Envelope
import Nook.IdentityControl.GraphInvariant
import Nook.IdentityControl.Membership
import Nook.IdentityControl.InviteJoin
import Nook.IdentityControl.RecoveryConfinement
import Nook.IdentityControl.TestSupport
import Nook.IdentityControl.ProjectionFold
import Nook.IdentityControl.Projectable
import Nook.IdentityControl.AdmittedMembers
import Nook.EventLog.GraphUnion
import Nook.IdentityControl.AppendedPast
import Nook.IdentityControl.Installations
import Nook.IdentityControl.AppKeyKept
import Nook.IdentityControl.PartialLog
import Nook.IdentityControl.Verdict
import Nook.IdentityControl.Contested
import Nook.IdentityControl.Convergence
import Nook.EventLog.SecretOrigin
import Nook.Auth.Member
import Nook.Lib.Lineage
import Nook.Vault.SecretHistory
import Nook.Vault.SecretHistoryChain
import Nook.EventLog.CleanGraph
import Nook.EventLog.CleanStore
import Nook.EventLog.Builder
import Nook.Vault.EventSession
import Nook.Vault.EventSessionRun
import Nook.Vault.EventSessionWhole
import Nook.Vault.EventSessionInvariant
import Nook.EventDb.StoredLog
import Nook.EventDb.StoredRows
import Nook.EventDb.Frontier
import Nook.EventDb.StoredLogWhole
import Nook.EventDb.TabRun
import Nook.Lib.FirstMatch
import Nook.Auth.AppKey
import Nook.Auth.IdentityRecord
import Nook.Auth.IdentityLegacy
import Nook.Auth.IdentityReplication
import Nook.Auth.VaultGrants
import Nook.Auth.VaultGrantRun
import Nook.Auth.IdentityDirectory
import Nook.Auth.DirectoryOwnership
import Nook.Auth.DirectoryValidity
import Nook.Auth.DirectoryOperations
import Nook.Auth.DirectoryLoads
import Nook.Lib.Gf256
import Nook.Lib.Interpolation
import Nook.Sentinel.FieldElement
import Nook.Sentinel.SecretSharing
import Nook.Sentinel.SecretRecovery
import Nook.Sentinel.SecretPolynomial
import Nook.Sentinel.PolynomialRecovery
import Nook.Sentinel.WordList
import Nook.Sentinel.Mnemonic
import Nook.Sentinel.MnemonicBits
import Nook.Sentinel.MnemonicCode
import Nook.Sentinel.RootShares
import Nook.Sentinel.RootRecovery
import Nook.EventLog.Canonical
import Nook.EventLog.Location
import Nook.Sync.VaultSync
import Nook.Lib.Json
import Nook.Auth.VaultMeta
import Nook.Auth.VaultMetaRows
import Nook.Auth.VaultMetaState
import Nook.Auth.VaultMetaRoundTrip
import Nook.Auth.MemberRoster
import Nook.Auth.MemberRevocation
import Nook.Auth.RevokedEverywhere
import Nook.Auth.EpochOrder
import Nook.Auth.EpochRun
import Nook.Lib.Owned
import Nook.Auth.OwnedRecord
import Nook.Auth.OwnedDirectory
import Nook.Auth.LocalIdentityKeyring
import Nook.Auth.GivenBack
import Nook.EventLog.QuarantineTurns
import Nook.IdentityControl.StoredUnion
import Nook.IdentityControl.RejectedInsertion
import Nook.Lib.Radix
import Nook.Secrets.SetupKey
import Nook.Lib.PercentEncoding
import Nook.Secrets.Authenticator
import Nook.Secrets.OtpauthRoundTrip
import Nook.Recovery.TypedWords
import Nook.Secrets.EnrichedValues
import Nook.Secrets.FingerprintSeparation
import Nook.Secrets.GoogleAuthenticatorImport
import Nook.Secrets.NoteEnrichment
import Nook.Vault.VaultFormatRoundTrip
import Nook.Sync.ObjectKeys
import Nook.Sync.ProviderListKept
import Nook.Sync.ProviderSaveShape
import Nook.Sync.FanOut
import Nook.Sync.KeyringShares
import Nook.Sync.ProviderEnrollment
import Nook.Companion.CredentialFill
import Nook.Companion.LoginCapture
import Nook.IdentityControl.RevokedHolders
import Nook.IdentityControl.CurrentEpoch
import Nook.Auth.ReconciliationMarker
import Nook.Secrets.GoogleAuthenticatorBatch
import Nook.Auth.ReconciliationStore
import Nook.Auth.ReconciliationRun
import Nook.Sentinel.GenesisSession
import Nook.Sentinel.GenesisIssue
import Nook.Secrets.SecretListItem
import Nook.Vault.SearchCatalog
import Nook.Vault.SearchCatalogRebuild
import Nook.Vault.SearchCatalogStore
import Nook.Vault.SearchQuery
import Nook.Vault.SearchSession
