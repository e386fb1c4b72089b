import TypedRecords.Catalog
import TypedRecords.Plain
import TypedRecords.Proofs.Chaining
import TypedRecords.Proofs.Deriving
import TypedRecords.Proofs.DurationText
import TypedRecords.Proofs.FirstPairs
import TypedRecords.Proofs.Guarding
import TypedRecords.Proofs.Instants
import TypedRecords.Proofs.Lookup
import TypedRecords.Proofs.Lossless
import TypedRecords.Proofs.Narrowing
import TypedRecords.Proofs.Places
import TypedRecords.Proofs.Querying
import TypedRecords.Proofs.Renaming
import TypedRecords.Proofs.Reordering
import TypedRecords.Proofs.Reporting
import TypedRecords.Proofs.RoundTrip
import TypedRecords.Proofs.SelfDecoding
import TypedRecords.Proofs.Sources
import TypedRecords.Proofs.TimestampOrder
import TypedRecords.Session
