import Bufi.Evm.Word
import Bufi.Evm.Hash
import Bufi.Evm.Mapping
import Bufi.Evm.Run
import Bufi.Evm.Abi
import Bufi.Evm.AbiEncode
import Bufi.Evm.Checks
import Bufi.Evm.Agree
import Bufi.Evm.LinkedSet
import Bufi.Evm.Erc20
import Bufi.Evm.Ledger
import Bufi.Js.Number
import Bufi.Js.Collections
import Bufi.Text.Digits
import Bufi.Text.Utf16
import Bufi.Threshold.Game
import Bufi.Gateway.Policy
import Bufi.Gateway.Rules
import Bufi.Treasury.Signatures
import Bufi.Treasury.Quorum
import Bufi.Treasury.BlobSafety
import Bufi.Treasury.Encoding
import Bufi.Treasury.State
import Bufi.Treasury.Queue
import Bufi.Treasury.Owners
import Bufi.Treasury.Timelock
import Bufi.Treasury.Epoch
import Bufi.Treasury.Erc1271
import Bufi.Treasury.Custody
import Bufi.Treasury.Pause
import Bufi.Guard.Core
import Bufi.Guard.Isolation
import Bufi.Guard.Parity
import Bufi.Session.Calldata
import Bufi.Session.LoupeComplete
import Bufi.Session.SpendBudget
import Bufi.Session.Windows
import Bufi.Weighted.Budget
import Bufi.Weighted.Order
import Bufi.Earn.Registry
import Bufi.Send.Quorum
import Bufi.Send.Receipt
import Bufi.Conduit.Composition
import Bufi.Grant.SpendFromYield
import Bufi.Grant.Roles
import Bufi.Grant.Face
import Bufi.Grant.FaceCalls
import Bufi.Grant.Meaning
import Bufi.Subgraph.Bindings
import Bufi.Subgraph.Links
import Bufi.Recipient.Soundness
import Bufi.Delegate.Policy
import Bufi.Delegate.Shares
import Bufi.Delegate.Base58
import Bufi.Guard.Trailer
import Bufi.Guard.Packaging
import Bufi.Conduit.Redeem
import Bufi.Subgraph.Exchange
import Bufi.Subgraph.Unrefunded
import Bufi.Earn.Exact
import Bufi.Grant.YieldLedger
import Bufi.Ledger.Steps
import Bufi.Ledger.Closing
import Bufi.Subgraph.Ratings
import Bufi.Document.Safety
import Bufi.Document.Publish
import Bufi.Document.Indexing
import Bufi.Text.Utf8
import Bufi.Text.JsonSort
import Bufi.Js.Json
import Bufi.Evidence.Canonicity
import Bufi.Evidence.Opening
import Bufi.Graph.Faithful
