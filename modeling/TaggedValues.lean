import TaggedValues.Command.Ending
import TaggedValues.Heap.History
import TaggedValues.Heap.Reach
import TaggedValues.Image.Grammar
import TaggedValues.Image.Manuscript
import TaggedValues.Image.Scan
import TaggedValues.Main
import TaggedValues.Native.Calls
import TaggedValues.Options.Grammar
import TaggedValues.Render.Descent
import TaggedValues.Render.Steps
import TaggedValues.Tree.Placement
import TaggedValues.Proofs.Heap.Building
import TaggedValues.Proofs.Heap.History
import TaggedValues.Proofs.Heap.Storing
import TaggedValues.Proofs.Image.Grammar
import TaggedValues.Proofs.Image.Joining
import TaggedValues.Proofs.Image.Layout
import TaggedValues.Proofs.Image.Manuscript
import TaggedValues.Proofs.Image.Scan
import TaggedValues.Proofs.Image.Spelling
import TaggedValues.Proofs.Render.Cutoff
import TaggedValues.Proofs.Render.DepthFault
import TaggedValues.Proofs.Render.FaultPlace
import TaggedValues.Proofs.Render.Unfolding
import TaggedValues.Proofs.Render.Work
import TaggedValues.Proofs.Machine
import TaggedValues.Proofs.Native
import TaggedValues.Proofs.Print
import TaggedValues.Proofs.Run
import TaggedValues.Proofs.Run.Image
import TaggedValues.Proofs.Tree.Placement
import TaggedValues.Proofs.Tree.Text
import TaggedValues.Proofs.Command
import TaggedValues.Proofs.Render.Locality
import TaggedValues.Proofs.Text.Ascii
import TaggedValues.Proofs.Render.Room
import TaggedValues.Proofs.Run.Growth
import TaggedValues.Proofs.Word.Making
import TaggedValues.Proofs.Render.Entering
import TaggedValues.Proofs.Image.Parts
import TaggedValues.Proofs.Image.Token
import TaggedValues.Proofs.Options.Requests
import TaggedValues.Proofs.Log.Reading
import TaggedValues.Command.Logging
import TaggedValues.Proofs.Command.Logging
