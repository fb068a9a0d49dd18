import Montage.Edit.Record
import Montage.Filter.Record
import Montage.Main
import Montage.Proofs.Edit.Absent
import Montage.Proofs.Edit.Ranges
import Montage.Proofs.Edit.StepPath
import Montage.Proofs.Engine.Chaining
import Montage.Proofs.Engine.Compiling
import Montage.Proofs.Engine.HandingBack
import Montage.Proofs.Engine.Numbering
import Montage.Proofs.Engine.Preparing
import Montage.Proofs.Engine.Processing
import Montage.Proofs.Engine.Steps
import Montage.Proofs.Files.Storage
import Montage.Proofs.Filter.Compiling
import Montage.Proofs.Filter.Gating
import Montage.Proofs.Filter.ReadBack
import Montage.Proofs.Preview.Values
import Montage.Proofs.Render.Ending
import Montage.Proofs.Render.Reports
import Montage.Proofs.Render.Saving
import Montage.Proofs.Segment.Linking
import Montage.Proofs.Segment.Removal
import Montage.Proofs.Session
import Montage.Proofs.Caption.Cues
import Montage.Proofs.Preview.Decoding
import Montage.Proofs.Likeness
import Montage.Proofs.Render.Listening
import Montage.Proofs.Engine.Observing
import Montage.Proofs.Caption.Sharing
import Montage.Proofs.Engine.Errands
import Montage.Proofs.Engine.Timeline
import Montage.Proofs.Settings
import Montage.Proofs.Edit.Unknown
import Montage.Proofs.Look.Matching
import Montage.Proofs.Edit.Wording
import Montage.Proofs.Engine.Sparing
import Montage.Proofs.Edit.Cropping
import Montage.Proofs.Edit.Placement
import Montage.Proofs.Edit.Trimming
import Montage.Proofs.Engine.Tidying
import Montage.Proofs.Engine.Probing
import Montage.Proofs.Caption.Schedule
import Montage.Proofs.Engine.FallingBack
import Montage.Proofs.Render.Releasing
import Montage.Proofs.Text.Lines
import Montage.Proofs.Caption.Listing
import Montage.Proofs.Caption.Returns
import Montage.Proofs.Caption.ReadBack
import Montage.Proofs.Engine.Expecting
import Montage.Proofs.Filter.Tempo
import Montage.Proofs.Preview.Addresses
import Montage.Proofs.Look.Naming
import Montage.Proofs.Color.Width
import Montage.Proofs.Template.Reading
import Montage.Proofs.Settings.Keeping
import Montage.Proofs.Media.Streams
import Montage.Proofs.Caption.Lasting
import Montage.Proofs.Edit.Zooming
import Montage.Proofs.Render.Subscribing
import Montage.Proofs.Edit.Entries
import Montage.Proofs.Render.Keeping
import Montage.Proofs.Look.Keys
import Montage.Proofs.Caption.Clock
