import Tariff.Text.Blank
import Tariff.Text.Upper
import Tariff.Text.Quoted
import Tariff.Text.Width
import Tariff.Decimal.Printer
import Tariff.Decimal.Reader
import Tariff.Binary64.Reader
import Tariff.Binary64.Printer
import Tariff.Instant.Printer
import Tariff.Instant.Typed
import Tariff.Json.Draft
import Tariff.Json.Source
import Tariff.Yaml.Source
import Tariff.Currency.Codec
import Tariff.Version.Codec
import Tariff.Version.History
import Tariff.Proposal.Gate
import Tariff.Proposal.Codec
import Tariff.View.Pages
import Tariff.Config.Basic
import Tariff.Proposal.CheckInput
import Tariff.Files.Tree
import Tariff.Cache.Bank
import Tariff.Billing.Retry
import Tariff.Fault
import Tariff.Billing.Client
import Tariff.Backend.Store
import Tariff.Backend.Shelf
import Tariff.Command.Run
import Tariff.Main
import Tariff.Proofs.Proposal.Rules
import Tariff.Proofs.Command.Growth
import Tariff.Proofs.Command.Posts
import Tariff.Proofs.Command.Transparency
import Tariff.Proofs.Command.Hosts
import Tariff.Proofs.Backend.Interleaving
import Tariff.Proofs.Backend.Recency
import Tariff.Proofs.Billing.Invalidation
import Tariff.Proofs.Proposal.TypedAmount
import Tariff.Proofs.Proposal.PostedAmount
import Tariff.Proofs.Proposal.Resubmission
import Tariff.Proofs.Command.Room
import Tariff.Proofs.View.Outcome
import Tariff.Proofs.View.Latest
import Tariff.Proofs.Version.Conflicts
import Tariff.Proofs.Command.Atomicity
import Tariff.Proofs.Proposal.Antitone
import Tariff.Proofs.Proposal.Sight
import Tariff.Proofs.Billing.Rows
import Tariff.Proofs.Cache.History
import Tariff.Proofs.Backend.Loaded
import Tariff.Proofs.Url.Path
import Tariff.Proofs.Url.Base
import Tariff.Proofs.Billing.Address
import Tariff.Proofs.Proposal.AmountText
import Tariff.Proofs.Proposal.NamedBound
import Tariff.Proofs.View.Hint
import Tariff.Proofs.Billing.Retry
import Tariff.Proofs.Command.Setup
import Tariff.Proofs.Proposal.BareAmount
