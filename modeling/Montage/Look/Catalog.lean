import Montage.Look.Basic

/-!
# The built-in looks

Colour grades, effects and plain filters by name, with further names for some of them, and the
preview of the named curves.

## Main definitions

* `Montage.grades`, `Montage.effects`, `Montage.filters`: the looks.
* `Montage.curvePreview`: the preview of a curve.
-/

namespace Montage

/-- Steps of the preview service, one effect each. -/
def effectSteps (names : List String) : List Fields := names.map fun n => [("effect", .string n)]

/-- The preview of a named curve. -/
def curvePreview : List (String × List String) :=
  [("strong_contrast", ["contrast:30"]),
    ("medium_contrast", ["contrast:15"]),
    ("increase_contrast", ["contrast:20"]),
    ("lighter", ["brightness:15"]),
    ("darker", ["brightness:-15"]),
    ("vintage", ["sepia:50"]),
    ("cross_process", ["saturation:30", "contrast:20"])]

/-- The grade for names that are not known. -/
def neutralGrade : Grade := { name := "neutral", curve := .string "medium_contrast" }

/-- A decimal fraction as a binary number. -/
def decimal (numerator : Int) (denominator : Nat) : Binary64 :=
  .nearest (mkRat numerator denominator)

/-- A colour cast with a strength in percent. -/
def castOf (color : String) (percent : Nat) : Tint := .cast color (decimal percent 100)

/-- The built-in colour grades. -/
def grades : List Grade :=
  [{ name := "cinematic", curve := .string "strong_contrast",
     preview :=
       some ((effectSteps ["brightness:5", "contrast:10", "saturation:-10"]).map .object) },
    { name := "vintage", curve := .string "vintage" },
    { name := "warm", saturation := 20, tint := castOf "yellow" 40, art := .string "zorro" },
    { name := "cool", tint := castOf "blue" 40 },
    { name := "moody", brightness := .int (-20), contrast := 30 },
    { name := "dramatic", brightness := .int (-5), contrast := 40, saturation := .int (-20) },
    { name := "noir", contrast := 30, saturation := .int (-100) },
    { name := "black & white", saturation := .int (-100) },
    { name := "sepia", sepia := 100 },
    { name := "dreamy", brightness := 5, saturation := .int (-5) },
    { name := "pastel", brightness := 10, saturation := .int (-20) },
    { name := "vibrant", saturation := 40 },
    { name := "muted", saturation := .int (-30) },
    { name := "cyberpunk", brightness := 20, saturation := 50 },
    { name := "neon", brightness := 10, saturation := 60 },
    { name := "golden hour", saturation := 10, tint := castOf "gold" 30 },
    { name := "high contrast", contrast := 50 },
    { name := "teal orange", contrast := 15, saturation := 15, tint := castOf "teal" 15 },
    { name := "washed film", brightness := 5, contrast := .int (-20), saturation := .int (-20) },
    { name := "studio tone", brightness := 5, contrast := 10, saturation := 5 },
    { name := "soft skin", brightness := 5, contrast := .int (-5), saturation := .int (-5) },
    { name := "shadow boost", gamma := 20 },
    { name := "natural tone", contrast := 5, saturation := 5 },
    { name := "bright punch", brightness := 10, contrast := 20, saturation := 20 },
    { name := "orange tint", tint := castOf "orange" 30 },
    { name := "cinematic lut", curve := .string "strong_contrast", saturation := .int (-10),
      tint := castOf "teal" 10 },
    { name := "sunset glow", brightness := 5, saturation := 15, tint := castOf "#ff7e5f" 30 },
    neutralGrade]

/-- Further names of colour grades. -/
def gradeAliases : List (String × String) :=
  [("cinema", "cinematic"), ("film", "cinematic"), ("retro", "vintage"), ("b&w", "black & white"),
    ("bw", "black & white"), ("black and white", "black & white"),
    ("grayscale", "black & white"), ("greyscale", "black & white"),
    ("monochrome", "black & white"), ("teal and orange", "teal orange"),
    ("medium contrast", "neutral")]

/-- How sepia mixes red, green and blue into each of them, in thousandths. -/
def sepiaMatrix : List (List Int) := [[393, 769, 189], [349, 686, 168], [272, 534, 131]]

/-- An option with a fixed integer. -/
def fixedInt (n : Int) : OptionForm := .fixed (.int n)

/-- An option with a fixed fraction. -/
def fixedReal (numerator : Int) (denominator : Nat) : OptionForm :=
  .fixed (.real (decimal numerator denominator))

/-- An option with a fixed text. -/
def fixedText (s : String) : OptionForm := .fixed (.string s)

/-- An option with an integer that depends on the strength. -/
def wholeAmount (base span : Int) : OptionForm := .amount (.scaled (.int base) (.int span) true)

/-- An option with a fraction that depends on the strength, in hundredths. -/
def hundredths (base span : Int) : OptionForm :=
  .amount (.scaled (.real (decimal base 100)) (.real (decimal span 100)) false)

/-- The stage that mixes the colours to sepia. -/
def sepiaForm : StageForm :=
  ⟨"colorchannelmixer",
    [("rr", fixedReal 393 1000), ("rg", fixedReal 769 1000), ("rb", fixedReal 189 1000),
      ("gr", fixedReal 349 1000), ("gg", fixedReal 686 1000), ("gb", fixedReal 168 1000),
      ("br", fixedReal 272 1000), ("bg", fixedReal 534 1000), ("bb", fixedReal 131 1000)]⟩

/-- A filter for the picture enlarged or reduced by the size of a block. -/
def blockScale (operator : String) : StageForm :=
  let block : Amount := .scaled 4 16 true
  ⟨"scale", [("w", .ending ("iw" ++ operator) block), ("h", .ending ("ih" ++ operator) block),
    ("flags", fixedText "neighbor")]⟩

/-- The stage that darkens the corners. -/
def vignetteForm (angle : String) : StageForm :=
  ⟨"vignette", [("angle", .fixed (.expression angle))]⟩

/-- The effect for names that are not known. -/
def neutralEffect : Effect :=
  ⟨"neutral", [⟨"curves", [("preset", fixedText "medium_contrast")]⟩],
    some (effectSteps ["contrast:15"])⟩

/-- The built-in effects. -/
def effects : List Effect :=
  [⟨"blur", [⟨"boxblur", [("luma_radius", wholeAmount 2 4), ("luma_power", fixedInt 1)]⟩],
      some (effectSteps ["blur:300"])⟩,
    ⟨"glow", [⟨"eq", [("brightness", hundredths 5 10), ("contrast", hundredths 110 20)]⟩],
      some (effectSteps ["brightness:10", "contrast:20"])⟩,
    ⟨"sharpen",
      [⟨"unsharp", [("luma_msize_x", fixedInt 5), ("luma_msize_y", fixedInt 5),
        ("luma_amount", hundredths 50 100)]⟩],
      some (effectSteps ["sharpen:100"])⟩,
    ⟨"vignette", [vignetteForm "PI/4"], some (effectSteps ["vignette:50"])⟩,
    ⟨"vhs",
      [⟨"noise", [("alls", wholeAmount 10 20), ("allf", fixedText "t+u")]⟩,
        ⟨"rgbashift", [("rh", fixedInt (-2)), ("bh", fixedInt 2)]⟩],
      some (effectSteps ["noise:20"])⟩,
    ⟨"film grain", [⟨"noise", [("alls", wholeAmount 5 15), ("allf", fixedText "t")]⟩],
      some (effectSteps ["noise:10"])⟩,
    ⟨"bokeh", [⟨"boxblur", [("luma_radius", fixedInt 10), ("luma_power", fixedInt 5)]⟩],
      some (effectSteps ["blur:500"])⟩,
    ⟨"pixelate", [blockScale "/", blockScale "*"], some (effectSteps ["pixelate:20"])⟩,
    ⟨"distortion", [⟨"lenscorrection", [("k1", hundredths (-10) (-20)),
        ("k2", fixedReal (-5) 100)]⟩], none⟩,
    ⟨"chromatic aberration",
      [⟨"rgbashift", [("rh", wholeAmount (-2) (-6)), ("bh", wholeAmount 2 6)]⟩], none⟩,
    ⟨"dreamy glow",
      [⟨"boxblur", [("luma_radius", fixedInt 4), ("luma_power", fixedInt 2)]⟩,
        ⟨"eq", [("brightness", hundredths 5 10), ("saturation", fixedReal 12 10)]⟩],
      some (effectSteps ["blur:100", "brightness:10"])⟩,
    ⟨"soft focus", [⟨"boxblur", [("luma_radius", fixedInt 3), ("luma_power", fixedInt 1)]⟩],
      some (effectSteps ["blur:200"])⟩,
    ⟨"old film",
      [sepiaForm, ⟨"noise", [("alls", wholeAmount 10 10), ("allf", fixedText "t")]⟩,
        vignetteForm "PI/5"],
      some (effectSteps ["noise:15", "sepia:30"])⟩,
    ⟨"bloom",
      [⟨"gblur", [("sigma", .amount (.scaled 1 3 false))]⟩,
        ⟨"eq", [("brightness", hundredths 4 8), ("contrast", fixedReal 11 10)]⟩],
      some (effectSteps ["brightness:15", "blur:100"])⟩,
    ⟨"fisheye", [⟨"lenscorrection", [("k1", hundredths 20 40), ("k2", hundredths 10 20)]⟩], none⟩,
    ⟨"high contrast", [⟨"eq", [("contrast", hundredths 120 60)]⟩],
      some (effectSteps ["contrast:50"])⟩,
    ⟨"sepia", [sepiaForm], some (effectSteps ["sepia:100"])⟩]

/-- Further names of effects. -/
def effectAliases : List (String × String) :=
  [("grain", "film grain"), ("soft", "soft focus"), ("retro film", "old film"),
    ("chromatic", "chromatic aberration"), ("lens distortion", "distortion")]

/-- The built-in plain filters. -/
def filters : List Effect :=
  [⟨"grayscale", [⟨"hue", [("s", fixedInt 0)]⟩], some (effectSteps ["grayscale"])⟩,
    ⟨"blur", [⟨"boxblur", [("luma_radius", .amount (.level 2 true)), ("luma_power", fixedInt 1)]⟩],
      some (effectSteps ["blur:300"])⟩,
    ⟨"sharpen",
      [⟨"unsharp", [("luma_msize_x", fixedInt 5), ("luma_msize_y", fixedInt 5),
        ("luma_amount", .amount (.level (.real 1) false))]⟩],
      some (effectSteps ["sharpen:100"])⟩,
    ⟨"saturation", [⟨"eq", [("saturation", .amount (.level (.real (decimal 15 10)) false))]⟩],
      some (effectSteps ["saturation:50"])⟩,
    ⟨"noise reduction",
      [⟨"hqdn3d", [("luma_spatial", fixedInt 4), ("chroma_spatial", fixedInt 3),
        ("luma_tmp", fixedInt 6), ("chroma_tmp", fixedReal 45 10)]⟩], none⟩,
    ⟨"noise", [⟨"noise", [("alls", .amount (.level 20 true)), ("allf", fixedText "t+u")]⟩],
      some (effectSteps ["noise:20"])⟩,
    ⟨"sepia", [sepiaForm], some (effectSteps ["sepia:100"])⟩,
    ⟨"invert", [⟨"negate", []⟩], some (effectSteps ["negate"])⟩,
    ⟨"vignette", [vignetteForm "PI/4"], some (effectSteps ["vignette:50"])⟩]

/-- Further names of plain filters. A name with an underscore is never asked for, since keys have
none. -/
def filterAliases : List (String × String) :=
  [("b&w", "grayscale"), ("bw", "grayscale"), ("black & white", "grayscale"),
    ("black and white", "grayscale"), ("greyscale", "grayscale"), ("monochrome", "grayscale"),
    ("denoise", "noise reduction"), ("noise_reduction", "noise reduction"), ("negate", "invert")]

end Montage
