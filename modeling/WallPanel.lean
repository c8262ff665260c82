import WallPanel.Drawing.Exchange
import WallPanel.Editing.Session
import WallPanel.Main
import WallPanel.Proofs.Reading.Basic
import WallPanel.Proofs.Reading.Contents
import WallPanel.Proofs.Reading.Tally
import WallPanel.Proofs.Attribution.Accounting
import WallPanel.Proofs.Attribution.Basic
import WallPanel.Proofs.Attribution.Closing
import WallPanel.Proofs.Attribution.Curves
import WallPanel.Proofs.Attribution.Document
import WallPanel.Proofs.Attribution.Extent
import WallPanel.Proofs.Attribution.Faults
import WallPanel.Proofs.Attribution.Headers
import WallPanel.Proofs.Attribution.Inheritance
import WallPanel.Proofs.Editing.Atomicity
import WallPanel.Proofs.Editing.Batches
import WallPanel.Proofs.Editing.Changes
import WallPanel.Proofs.Editing.Codes
import WallPanel.Proofs.Editing.Containment
import WallPanel.Proofs.Editing.Deletion
import WallPanel.Proofs.Editing.Drift
import WallPanel.Proofs.Editing.FastenerDeletion
import WallPanel.Proofs.Editing.Identity
import WallPanel.Proofs.Editing.Lines
import WallPanel.Proofs.Editing.Ownership
import WallPanel.Proofs.Editing.Polygons
import WallPanel.Proofs.Editing.Records
import WallPanel.Proofs.Editing.Redrawing
import WallPanel.Proofs.Editing.Replacement
import WallPanel.Proofs.Editing.Rewriting
import WallPanel.Proofs.Editing.Rigidity
import WallPanel.Proofs.Editing.RoundTrip
import WallPanel.Proofs.Editing.RoutingDeletion
import WallPanel.Proofs.Editing.Saving
import WallPanel.Proofs.Editing.Sources
import WallPanel.Proofs.Editing.Steps
import WallPanel.Proofs.Editing.Translation
import WallPanel.Proofs.Building.Coherence
import WallPanel.Proofs.Building.Flushing
import WallPanel.Proofs.Building.Origins
import WallPanel.Proofs.Building.Relabel
import WallPanel.Proofs.Drawing.Arcs
import WallPanel.Proofs.Drawing.Chains
import WallPanel.Proofs.Geometry.Feeding
import WallPanel.Proofs.Geometry.Samples
import WallPanel.Proofs.Geometry.Turns
import WallPanel.Proofs.Number.Nearest
import WallPanel.Proofs.Number.Rounding
import WallPanel.Proofs.Number.Thousandths
import WallPanel.Proofs.Number.Widening
import WallPanel.Proofs.Statement.Addressing
import WallPanel.Proofs.Statement.Plain
import WallPanel.Proofs.Statement.Printing
import WallPanel.Proofs.Statement.Saved
import WallPanel.Proofs.Text.Copies
