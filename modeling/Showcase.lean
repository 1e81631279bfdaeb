import Showcase.Json.Read
import Showcase.Main
import Showcase.Selection.Run
import Showcase.Server.Start
import Showcase.Proofs.Registry
import Showcase.Proofs.Text
import Showcase.Proofs.Deployment
import Showcase.Proofs.Artifact
import Showcase.Proofs.Selection
import Showcase.Proofs.Routes
import Showcase.Proofs.Links
import Showcase.Proofs.Disclosure
import Showcase.Proofs.Growth
import Showcase.Proofs.Walk
import Showcase.Proofs.Inspect
import Showcase.Proofs.Effects
import Showcase.Proofs.Export
import Showcase.Proofs.StaticSite
import Showcase.Proofs.Markup
import Showcase.Proofs.Follow
import Showcase.Proofs.Keeping
import Showcase.Proofs.Sources
import Showcase.Proofs.Copying
import Showcase.Proofs.Overlay
import Showcase.Proofs.Clashes
import Showcase.Proofs.Lookup
import Showcase.Proofs.Spelling
import Showcase.Proofs.Rerun
import Showcase.Proofs.Downloads
import Showcase.Proofs.Recast
import Showcase.Proofs.Json
import Showcase.Proofs.Exchange
import Showcase.Proofs.Settings
import Showcase.Proofs.Document
import Showcase.Proofs.Catalog
import Showcase.Proofs.Surfaces
import Showcase.Proofs.Reference
import Showcase.Proofs.Slashes
import Showcase.Proofs.Dispatch
import Showcase.Proofs.Template
import Showcase.Proofs.Occurrence
import Showcase.Proofs.Current
import Showcase.Proofs.Panes
import Showcase.Proofs.Acceptance
import Showcase.Proofs.Naming
import Showcase.Proofs.Resolver
import Showcase.Proofs.Disposition
import Showcase.Proofs.Overlap
import Showcase.Proofs.Rewording
import Showcase.Proofs.Nesting
import Showcase.Proofs.Grammar
import Showcase.Proofs.Members
import Showcase.Proofs.Keys
import Showcase.Proofs.Entities
