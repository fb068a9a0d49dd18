import Montage.Failure
import Montage.Files.Path
import Montage.Number.Numeral

/-!
# Media information

What is known of a media file: the size, rate and length of its picture, and its sound. It is read
from the description that an inspecting program prints. The first stream of each kind counts; a
rate may be a fraction.

## Main definitions

* `Montage.MediaInfo`: the information.
* `MediaInfo.ofDescription`: the information in a description.
* `MediaInfo.ofClip`: the little that opening a file tells.
-/

namespace Montage

/-- What is known of a media file. Values that are passed on as they are described may be anything.
-/
structure MediaInfo where
  path : Path
  width : Value
  height : Value
  rate : Value
  duration : Value
  codec : Value
  pixelFormat : Value
  bitrate : Option Int
  audioCodec : Value
  audioRate : Option Int
  audioChannels : Value
  deriving Inhabited

/-- The first streams of both kinds. -/
structure StreamChoice where
  video : Option Fields
  audio : Option Fields
  deriving Inhabited

namespace StreamChoice

/-- No stream has been chosen. -/
def none : StreamChoice := ⟨.none, .none⟩

/-- The stream is of the given kind. -/
def isOf (kind : String) (stream : Fields) : Bool :=
  match stream.get "codec_type" with
  | .string s => s = kind
  | _ => false

/-- Choose a stream if it is the first of its kind. -/
def add (c : StreamChoice) (stream : Fields) : StreamChoice :=
  if isOf "video" stream && c.video.isNone then { c with video := some stream }
  else if isOf "audio" stream && c.audio.isNone then { c with audio := some stream }
  else c

/-- The first streams of both kinds among the described ones. -/
def ofStreams (streams : List Value) : Except Fault StreamChoice :=
  streams.foldlM (fun c v => (v.fields "get").map c.add) none

end StreamChoice

namespace MediaInfo

/-- There is sound. -/
def hasAudio (i : MediaInfo) : Bool :=
  match i.audioCodec with
  | .null => false
  | _ => true

/-- Width and height in writing. -/
def resolution (i : MediaInfo) : String := i.width.text ++ "x" ++ i.height.text

/-- The information in fields. -/
def toFields (i : MediaInfo) : Fields :=
  let number : Option Int → Value
    | some n => .int n
    | none => .null
  [("path", .string i.path.text), ("width", i.width), ("height", i.height), ("fps", i.rate),
    ("duration", i.duration), ("codec", i.codec), ("pix_fmt", i.pixelFormat),
    ("bitrate", number i.bitrate), ("audio_codec", i.audioCodec),
    ("audio_sample_rate", number i.audioRate), ("audio_channels", i.audioChannels)]

/-- The rate where none is described. -/
def defaultRate : Binary64 := 30

/-- The number that a fraction writes. A divisor that is not positive gives the default rate. -/
def fraction (text : String) : Except Fault Binary64 := do
  match Path.splitAt '/' text.toList with
  | [a, b] =>
    let divisor ← Numeral.real (String.ofList b)
    if 0 < divisor then return (← Numeral.real (String.ofList a)) / divisor
    else return defaultRate
  | parts => .error (.value (.partCount 2 parts.length))

/-- The rate that a value describes. -/
def rateOf (v : Value) : Except Fault Binary64 :=
  let divided : Except Fault Bool := match v with
    | .string s => .ok (s.toList.contains '/')
    | .list vs => .ok (vs.any fun | .string s => s = "/" | _ => false)
    | .object fs => .ok (Fields.has fs "/")
    | v => .error (.type (.other ("argument of type '" ++ v.typeName ++ "' is not iterable")))
  match divided, v with
  | .error f, _ => .error f
  | .ok true, .string s => fraction s
  | .ok true, v => .error (.member v.typeName "split")
  | .ok false, v => v.toReal

/-- The value under a key, or another one where the key is missing. -/
def getOr (fs : Fields) (key : String) (default_ : Value) : Value := (fs.get? key).getD default_

/-- The information about the file `path` in a description. -/
def ofDescription (path : Path) (description : Value) : Except Failure MediaInfo := do
  let fs : Fields ← (description.fields "get").mapError .fault
  let streams ← ((getOr fs "streams" (.list [])).items).mapError Failure.fault
  let choice ← (StreamChoice.ofStreams streams).mapError Failure.fault
  match choice.video with
  | none =>
    .error (.edit (.execution ("No video stream found in: " ++ path.text) none "" none))
  | some video => (described fs video choice.audio).mapError .fault
where
  /-- The information of chosen streams. -/
  described (fs video : Fields) (audio : Option Fields) : Except Fault MediaInfo := do
    let rate ← rateOf (getOr video "r_frame_rate" (.string "30/1"))
    let format : Fields ← (getOr fs "format" (.object [])).fields "get"
    let duration := getOr format "duration" (.int 0)
    let duration ← (if duration.isTruthy then duration else .int 0).toReal
    let bitrate ← if (format.get "bit_rate").isTruthy then
        (format.get "bit_rate").toInt.map some
      else .ok none
    let audioRate ← audio.mapM fun a => (getOr a "sample_rate" (.int 0)).toInt
    .ok {
      path
      width := getOr video "width" (.int 0)
      height := getOr video "height" (.int 0)
      rate := .real rate
      duration := .real duration
      codec := getOr video "codec_name" (.string "unknown")
      pixelFormat := getOr video "pix_fmt" (.string "unknown")
      bitrate
      audioCodec := (audio.map fun a => a.get "codec_name").getD .null
      audioRate
      audioChannels := (audio.map fun a => a.get "channels").getD .null }

/-- The little that is known of a file after opening it. -/
def ofClip (path : Path) (c : Clip) : MediaInfo where
  path := path
  width := c.width
  height := c.height
  rate := if c.rate.isTruthy then c.rate else .int 30
  duration := if c.duration.isTruthy then c.duration else .real 0
  codec := .string "unknown"
  pixelFormat := .string "unknown"
  bitrate := none
  audioCodec := if c.audio.isTruthy then .string "unknown" else .null
  audioRate := none
  audioChannels := .null

end MediaInfo

end Montage
