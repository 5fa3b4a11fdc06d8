import FunctionGateway.Authentication
import FunctionGateway.Capability
import FunctionGateway.Config
import FunctionGateway.ConfigFile
import FunctionGateway.Gateway
import FunctionGateway.Http.Header
import FunctionGateway.Http.Method
import FunctionGateway.Http.MethodSet
import FunctionGateway.Http.Request
import FunctionGateway.Http.Response
import FunctionGateway.Http.Target
import FunctionGateway.Metrics.Exposition
import FunctionGateway.Metrics.Ledger
import FunctionGateway.Name
import FunctionGateway.Number.Binary64
import FunctionGateway.Proofs.Authentication.Presenting
import FunctionGateway.Proofs.Http.Token
import FunctionGateway.Proofs.Metrics.Conservation
import FunctionGateway.Proofs.Metrics.Rendering
import FunctionGateway.Proofs.Routing.Agreement
import FunctionGateway.Proofs.Routing.Allowed
import FunctionGateway.Proofs.Routing.Apart
import FunctionGateway.Proofs.Routing.Attempts
import FunctionGateway.Proofs.Routing.Conflicting
import FunctionGateway.Proofs.Routing.Contents
import FunctionGateway.Proofs.Routing.Fixed
import FunctionGateway.Proofs.Routing.Grouping
import FunctionGateway.Proofs.Routing.Growth
import FunctionGateway.Proofs.Routing.Guarded
import FunctionGateway.Proofs.Routing.Insertion
import FunctionGateway.Proofs.Routing.Place
import FunctionGateway.Proofs.Routing.Reaching
import FunctionGateway.Proofs.Routing.Reading
import FunctionGateway.Proofs.Routing.Reference
import FunctionGateway.Proofs.Routing.Relabel
import FunctionGateway.Proofs.Routing.Search
import FunctionGateway.Proofs.Routing.Separate
import FunctionGateway.Proofs.Routing.Settling
import FunctionGateway.Proofs.Routing.Showing
import FunctionGateway.Proofs.Routing.Table
import FunctionGateway.Proofs.Routing.Violating
import FunctionGateway.Proofs.Server.Advance
import FunctionGateway.Proofs.Server.Endings
import FunctionGateway.Proofs.Server.Fates
import FunctionGateway.Proofs.Server.Order
import FunctionGateway.Proofs.Server.Serving
import FunctionGateway.Proofs.Server.Shutdown
import FunctionGateway.Proofs.Server.Stages
import FunctionGateway.Proofs.Server.Tally
import FunctionGateway.Proofs.Service.Assembling
import FunctionGateway.Proofs.Service.Concurrent
import FunctionGateway.Proofs.Service.Course
import FunctionGateway.Proofs.Service.Layering
import FunctionGateway.Proofs.Service.Nesting
import FunctionGateway.Proofs.Service.Polling
import FunctionGateway.Proofs.Service.Recording
import FunctionGateway.Proofs.Service.Stacking
import FunctionGateway.Proofs.Service.Timing
import FunctionGateway.Proofs.Service.Traffic
import FunctionGateway.Proofs.Surface.Binding
import FunctionGateway.Proofs.Surface.Constructing
import FunctionGateway.Proofs.Surface.Counting
import FunctionGateway.Proofs.Surface.Deadlines
import FunctionGateway.Proofs.Surface.Documented
import FunctionGateway.Proofs.Surface.Forms
import FunctionGateway.Proofs.Surface.Guarding
import FunctionGateway.Proofs.Surface.Listing
import FunctionGateway.Proofs.Surface.Management
import FunctionGateway.Proofs.Surface.Parallel
import FunctionGateway.Proofs.Surface.Proxying
import FunctionGateway.Proofs.Surface.Secrecy
import FunctionGateway.Proofs.Surface.Sending
import FunctionGateway.Proofs.Surface.Served
import FunctionGateway.Proofs.Surface.Session
import FunctionGateway.Proofs.Surface.Totals
import FunctionGateway.Proofs.Text.Base64
import FunctionGateway.Proofs.Text.Spelling
import FunctionGateway.Proofs.Text.Splitting
import FunctionGateway.Proofs.Text.Trimming
import FunctionGateway.Routing.PathTree
import FunctionGateway.Routing.Pattern
import FunctionGateway.Routing.Router
import FunctionGateway.Routing.Spec
import FunctionGateway.SecretMount
import FunctionGateway.Server.Connection
import FunctionGateway.Server.Drain
import FunctionGateway.Server.Lifecycle
import FunctionGateway.Server.Running
import FunctionGateway.Service.Backend
import FunctionGateway.Service.Basic
import FunctionGateway.Service.Scripted
import FunctionGateway.Service.Stack
import FunctionGateway.Surface
import FunctionGateway.Text.Base64
import FunctionGateway.Text.Blank
import FunctionGateway.Text.Hidden
import FunctionGateway.Text.Percent
import FunctionGateway.Text.Quoted
import FunctionGateway.Text.Utf8
import FunctionGateway.Time
import FunctionGateway.Toml.Complaint
import FunctionGateway.Toml.Document
import FunctionGateway.Toml.Numerals
import FunctionGateway.Toml.Strings
import FunctionGateway.Toml.Table
