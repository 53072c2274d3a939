import Inlay.Main
import Inlay.Proofs.Component.Branch
import Inlay.Proofs.Component.Open
import Inlay.Proofs.Build
import Inlay.Proofs.Component.Visited
import Inlay.Proofs.Dependency
import Inlay.Proofs.Manifest.Accepted
import Inlay.Proofs.Manifest.Agreement
import Inlay.Proofs.Manifest.Digests
import Inlay.Proofs.Manifest.Shape
import Inlay.Proofs.Origin.Block
import Inlay.Proofs.Path.Composition
import Inlay.Proofs.Path.Under
import Inlay.Proofs.Manifest.Shown
import Inlay.Proofs.Reference.Diagnosis
import Inlay.Proofs.Disk.Confined
import Inlay.Proofs.Disk.Text
import Inlay.Proofs.Component.SameFile
import Inlay.Proofs.Reference.Log
import Inlay.Proofs.CommandLine.Outcome
import Inlay.Proofs.CommandLine.Placement
import Inlay.Proofs.Image.Attribute
import Inlay.Proofs.Image.Extension
import Inlay.Proofs.Reference.Repeated
import Inlay.Proofs.Script.Plain
import Inlay.Proofs.Component.Handled
import Inlay.Proofs.Disk.Digest
