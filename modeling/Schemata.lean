import Schemata.Catalog.Callers
import Schemata.Catalog.Registry
import Schemata.Http.Application
import Schemata.Json.Text
import Schemata.Main
import Schemata.Query.Select
import Schemata.Server.Run
import Schemata.Service.Operations
import Schemata.Table.Fault
import Schemata.Table.Store
import Schemata.Proofs.Bytes.Range
import Schemata.Proofs.Table.Contents
import Schemata.Proofs.Bytes.BigEndian
import Schemata.Proofs.Catalog.DescriptorRow
import Schemata.Proofs.Catalog.Durability
import Schemata.Proofs.Catalog.FailedAppend
import Schemata.Proofs.Catalog.Isolation
import Schemata.Proofs.Catalog.Ledger
import Schemata.Proofs.Catalog.Lookups
import Schemata.Proofs.Catalog.Numbering
import Schemata.Proofs.Catalog.Serial
import Schemata.Proofs.Catalog.LockTable
import Schemata.Proofs.Catalog.Interrupted
import Schemata.Proofs.Catalog.Outcomes
import Schemata.Proofs.Table.Agreement
import Schemata.Proofs.Service.Demands
import Schemata.Proofs.Service.Statuses
import Schemata.Proofs.Catalog.Erasure
import Schemata.Proofs.Json.RoundTrip
import Schemata.Proofs.Json.SmallNames
import Schemata.Proofs.Json.Dropped
import Schemata.Proofs.Query.Addresses
import Schemata.Proofs.Query.Dotted
import Schemata.Proofs.Http.Versions
import Schemata.Proofs.Catalog.Unkeyed
import Schemata.Proofs.Service.Records
import Schemata.Proofs.Http.Forms
import Schemata.Proofs.Catalog.ReadBack
import Schemata.Proofs.Server.Closing
