import ImportAlias.Disk.Tree
import ImportAlias.Proofs.Path.Location
import ImportAlias.Specifier.Transform
import ImportAlias.Proofs.Path.Reference
import ImportAlias.Proofs.Config.Absolute
import ImportAlias.Proofs.Alias.Lookup
import ImportAlias.Proofs.Alias.Resolution
import ImportAlias.Proofs.Specifier.Splice
import ImportAlias.Proofs.Specifier.Site
import ImportAlias.Proofs.Specifier.Idempotence
import ImportAlias.Proofs.Config.Anchoring
import ImportAlias.Proofs.Specifier.Collection
import ImportAlias.Proofs.Regex.Way
import ImportAlias.Proofs.Regex.Program
import ImportAlias.Proofs.Regex.Prefix
import ImportAlias.Proofs.Alias.Prefix
import ImportAlias.Proofs.Alias.Locality
import ImportAlias.Proofs.Config.Forms
import ImportAlias.Proofs.Config.Spelling
import ImportAlias.Proofs.Specifier.Escape
import ImportAlias.Proofs.Specifier.Contents
import ImportAlias.Proofs.Specifier.Nesting
import ImportAlias.Proofs.Disk.Walk
import ImportAlias.Proofs.Config.Probe
import ImportAlias.Proofs.Config.Roots
import ImportAlias.Proofs.Path.Canonical
import ImportAlias.Proofs.Config.Literals
import ImportAlias.Proofs.Specifier.Head
import ImportAlias.Proofs.Alias.Relocation
import ImportAlias.Proofs.Alias.Template
import ImportAlias.Proofs.Path.Ancestors
import ImportAlias.Proofs.Config.Normalization
import ImportAlias.Proofs.Options.Grammar
import ImportAlias.Proofs.Config.Nearest
import ImportAlias.Proofs.Path.Extension
import ImportAlias.Proofs.Config.Extensions
