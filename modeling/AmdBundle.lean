import AmdBundle.AbsMid.Basic
import AmdBundle.AbsMid.Marker
import AmdBundle.Amd.Handler
import AmdBundle.Amd.Items
import AmdBundle.Build
import AmdBundle.Dependency
import AmdBundle.Dojo.Adapter
import AmdBundle.Dojo.Binder
import AmdBundle.Dojo.Interceptor
import AmdBundle.Dojo.Plugin
import AmdBundle.Error
import AmdBundle.Factory
import AmdBundle.FilePath
import AmdBundle.FilePath.Bytes
import AmdBundle.FilePath.Kind
import AmdBundle.FileSystem.Basic
import AmdBundle.FileSystem.Tree
import AmdBundle.Graph.Basic
import AmdBundle.Graph.Order
import AmdBundle.HasExpr
import AmdBundle.Json.Basic
import AmdBundle.Json.Number
import AmdBundle.Json.Printer
import AmdBundle.Json.Reader
import AmdBundle.Loader.Basic
import AmdBundle.Loader.ConfigFile
import AmdBundle.Loader.Configured
import AmdBundle.LoaderConfig
import AmdBundle.Log.Directive
import AmdBundle.Log.FieldPattern
import AmdBundle.Log.Filter
import AmdBundle.Log.Level
import AmdBundle.ModuleId
import AmdBundle.Options
import AmdBundle.Pattern.Basic
import AmdBundle.Pattern.CharSet
import AmdBundle.Pattern.Machine
import AmdBundle.Pattern.Reader
import AmdBundle.Pattern.Search
import AmdBundle.Program.Basic
import AmdBundle.Program.Builder
import AmdBundle.Proofs.Dojo.Identity
import AmdBundle.Proofs.Factory.Creation
import AmdBundle.Proofs.Graph.Consistency
import AmdBundle.Resolver.Basic
import AmdBundle.Resolver.Files
import AmdBundle.Text.Blank
import AmdBundle.Text.Bytes
import AmdBundle.Text.Letter
import AmdBundle.Text.Lossy
import AmdBundle.Text.Percent
import AmdBundle.Text.Quoted
import AmdBundle.Text.Split
import AmdBundle.Walk.Hooks
import AmdBundle.Walk.Script
import AmdBundle.Walk.State
import AmdBundle.Walk.Traverse
import AmdBundle.Proofs.FilePath.Join
import AmdBundle.Proofs.Resolver.Cache
import AmdBundle.Proofs.Resolver.Place
import AmdBundle.Proofs.Dojo.Sharing
import AmdBundle.Proofs.Walk.AmdTable
import AmdBundle.Proofs.Amd.HostForm
import AmdBundle.Proofs.Walk.Visited
import AmdBundle.Proofs.Walk.Extension
import AmdBundle.Proofs.AbsMid.Marker
import AmdBundle.Proofs.AbsMid.Separators
import AmdBundle.Proofs.Graph.Order
import AmdBundle.Proofs.Build.Ends
import AmdBundle.Proofs.Build.Endless
import AmdBundle.Proofs.Walk.Offers
import AmdBundle.Proofs.Walk.Rounds
import AmdBundle.Proofs.Walk.References
import AmdBundle.Proofs.Walk.Transient
import AmdBundle.Proofs.Walk.Injection
import AmdBundle.Proofs.Loader.PathIds
import AmdBundle.Proofs.Build.ParsedIds
import AmdBundle.Proofs.Dojo.Reordering
import AmdBundle.Proofs.HasExpr.Folding
import AmdBundle.Proofs.Walk.CallIds
import AmdBundle.Proofs.Factory.Locality
import AmdBundle.Proofs.Graph.CheckedOrder
import AmdBundle.Proofs.Graph.Updates
import AmdBundle.Proofs.HasExpr.RoundTrip
import AmdBundle.Proofs.AbsMid.Acceptance
import AmdBundle.Proofs.ModuleId.Cancel
import AmdBundle.Proofs.Loader.KeyOrder
import AmdBundle.Proofs.Loader.Canonical
import AmdBundle.Proofs.Walk.Telling
import AmdBundle.Proofs.Walk.Notes
import AmdBundle.Proofs.Walk.LocalModules
import AmdBundle.Proofs.Walk.Bindings
import AmdBundle.Proofs.Walk.ListElements
import AmdBundle.Proofs.Resolver.Identifier
import AmdBundle.Proofs.Dojo.RawRequest
import AmdBundle.Proofs.Dojo.Aliases
import AmdBundle.Proofs.Resolver.Transparency
import AmdBundle.Proofs.Dojo.Relative
import AmdBundle.Proofs.Program.Building
import AmdBundle.Proofs.Loader.Substitution
