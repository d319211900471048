import Refearn.Engine.Proofs.Books
import Refearn.Engine.Proofs.Voids
import Refearn.Engine.Proofs.Releases
import Refearn.Engine.Proofs.Maturity
import Refearn.Engine.Proofs.Ceiling
import Refearn.Engine.Proofs.Lifecycle
import Refearn.Sales.Proofs.Executions
import Refearn.Sales.Proofs.Removals
import Refearn.Auth.Proofs.Sessions
import Refearn.Auth.Proofs.OneTimeRuns
import Refearn.Auth.Proofs.Passwords
import Refearn.Auth.Proofs.AcceptancePaths
import Refearn.Auth.Proofs.Guard
import Refearn.Notifications.Relay
import Refearn.Support.Serving
import Refearn.Notifications.Proofs.LeaseRuns
import Refearn.Campaigns.Proofs.Awards
import Refearn.Payouts.Proofs.Versions
import Refearn.Payouts.Proofs.VersionRuns
import Refearn.Memberships.Proofs.Uplines
import Refearn.Support.HashChain
import Refearn.Reports.Proofs.Seals
import Refearn.Support.TimeZone
import Refearn.Engine.Proofs.Totals
import Refearn.Reports.Proofs.Months
import Refearn.Wallet.Proofs.Eligibility
import Refearn.Platform.Proofs.Debt
import Refearn.Reports.Proofs.Financials
import Refearn.Web.Proofs.Rotation
import Refearn.Mobile.Proofs.Advancing
import Refearn.Hierarchy.Proofs.Capabilities
import Refearn.Engine.Proofs.BaseLines
import Refearn.Auth.Resolve
import Refearn.Engine.Proofs.Compression
import Refearn.Engine.Proofs.Fairness
import Refearn.Engine.Proofs.Matching
import Refearn.Plans.Plans
import Refearn.Plans.Proofs.BonusVersions
import Refearn.Plans.Proofs.Simulation
import Refearn.Campaigns.Proofs.Standings
import Refearn.Checks.Proofs.Words
import Refearn.Memberships.Administration
import Refearn.Memberships.Proofs.Administration
import Refearn.Memberships.Proofs.TreeView
import Refearn.Payouts.Proofs.Reconcile
import Refearn.Payouts.Proofs.Reconciled
import Refearn.Payouts.Proofs.Snapshots
import Refearn.Payouts.Proofs.Nacha
import Refearn.Payouts.Proofs.EventFold
import Refearn.Payouts.Proofs.AchFile
import Refearn.Reports.Exports
import Refearn.Reports.Proofs.Exports
import Refearn.Sales.Entry
import Refearn.Sales.Proofs.Currencies
import Refearn.Billing.Invoices
import Refearn.Billing.Proofs.Invoices
import Refearn.Checks.Proofs.Runs
import Refearn.Fraud.Proofs.Scan
import Refearn.Hierarchy.Members
import Refearn.Hierarchy.Proofs.Search
import Refearn.Invites.Issuance
import Refearn.Invites.Proofs.Issuance
import Refearn.Ranks.Ladder
import Refearn.Ranks.Proofs.Ladder
import Refearn.Ranks.Proofs.RankUps
import Refearn.Sales.Proofs.Replays
import Refearn.Secrets.Cipher
import Refearn.Secrets.Proofs.Cipher
import Refearn.Settings.Proofs.Updates
import Refearn.Support.ParentForest
import Refearn.Web.NetworkHierarchy
import Refearn.Web.Proofs.NetworkHierarchy
import Refearn.Webhooks.Dispatch
import Refearn.Webhooks.Proofs.Dispatch
import Refearn.Memberships.Proofs.ReferralCodes
import Refearn.Sales.Amounts
import Refearn.Sales.Proofs.Amounts
import Refearn.Sanctions.Proofs.Screen
import Refearn.Rbac.Proofs.Restart
import Refearn.Rbac.Proofs.Escalation
import Refearn.Payouts.Presentation
