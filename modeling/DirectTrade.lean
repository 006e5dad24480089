import DirectTrade.Library.Dict
import DirectTrade.Library.Outcome
import DirectTrade.Library.Linking
import DirectTrade.AtMostOnce
import DirectTrade.Moves
import DirectTrade.ReadIsolation
import DirectTrade.Delegation
import DirectTrade.RemoteAuthorities
import DirectTrade.Admissions
import DirectTrade.KeyOwnership
import DirectTrade.Independence
import DirectTrade.Foundation.Completeness
import DirectTrade.Foundation.Pins
import DirectTrade.Foundation.Leases
import DirectTrade.Foundation.Governance
import DirectTrade.Foundation.Attenuation
import DirectTrade.Foundation.Capacity
import DirectTrade.Foundation.Coordination
import DirectTrade.Foundation.Deliveries
import DirectTrade.Store.RecordChains
import DirectTrade.Store.Polling
import DirectTrade.Store.Revocation
import DirectTrade.Near.Ownership
import DirectTrade.Near.Relations
import DirectTrade.Business.Amounts
import DirectTrade.Business.Dates
import DirectTrade.Business.Invoice
import DirectTrade.Business.Spelling
import DirectTrade.Dependencies
import DirectTrade.Disclosure
import DirectTrade.Encoding.Base58
import DirectTrade.Encoding.Canonical
import DirectTrade.Encoding.Sha256
import DirectTrade.Flow.Act
import DirectTrade.Flow.Apply
import DirectTrade.Flow.Canonical
import DirectTrade.Flow.Contents
import DirectTrade.Flow.BookRuns
import DirectTrade.Flow.InventoryRuns
import DirectTrade.Flow.Pool
import DirectTrade.Flow.PoolRuns
import DirectTrade.Flow.Projection
import DirectTrade.Foundation.Closing
import DirectTrade.Foundation.Discovery
import DirectTrade.Foundation.KeySets
import DirectTrade.Foundation.Offers
import DirectTrade.Foundation.Plans
import DirectTrade.Foundation.Precedence
import DirectTrade.Foundation.Presentation
import DirectTrade.ImportOrder
import DirectTrade.Library.Evolution
import DirectTrade.Library.IndexedLog
import DirectTrade.Library.Postings
import DirectTrade.Library.Slice
import DirectTrade.Near.Audit
import DirectTrade.Near.Formation
import DirectTrade.Near.Matching
import DirectTrade.Near.Traces
import DirectTrade.Profiles.Fields
import DirectTrade.Profiles.Forecast
import DirectTrade.Profiles.Object
import DirectTrade.Profiles.Order
import DirectTrade.Profiles.Party
import DirectTrade.Profiles.Product
import DirectTrade.Revisions
