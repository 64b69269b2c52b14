import ServiceCall.Main
import ServiceCall.Proofs.Bean
import ServiceCall.Proofs.Client.Ending
import ServiceCall.Proofs.Client.Query
import ServiceCall.Proofs.Retry.Course
import ServiceCall.Proofs.Shape.Reading
import ServiceCall.Proofs.Stub.Inventory
import ServiceCall.Proofs.Stub.Refusal
import ServiceCall.Registry
import ServiceCall.Tracking
import ServiceCall.TypedService
import ServiceCall.Proofs.Http.Breakage
import ServiceCall.Proofs.Registry
import ServiceCall.Proofs.Client.RequestId
import ServiceCall.Proofs.Retry.Timing
import ServiceCall.Proofs.Client.Confined
import ServiceCall.Proofs.Shape.Display
import ServiceCall.Proofs.Url.Keeping
import ServiceCall.Proofs.Client.Literal
import ServiceCall.Proofs.Json.Figures
import ServiceCall.Proofs.Json.Quoting
import ServiceCall.Proofs.Json.Spelling
import ServiceCall.Proofs.Json.Syntax
import ServiceCall.Proofs.Json.Document
import ServiceCall.Proofs.Client.Verdict
import ServiceCall.Proofs.Log.Line
import ServiceCall.Proofs.Client.Placing
import ServiceCall.Proofs.Contract.Written
import ServiceCall.Proofs.Http.Precedence
import ServiceCall.Proofs.Contract.Template
import ServiceCall.Proofs.Retry.Backoff
import ServiceCall.Proofs.Tracking
import ServiceCall.Url.International
import ServiceCall.Proofs.Url.International
