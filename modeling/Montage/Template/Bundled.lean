import Montage.Template.Basic

/-!
# Bundled templates

The templates that come with the library.

## Main definitions

* `Montage.bundledTemplates`: the templates.
-/

namespace Montage

namespace Template

/-- A colour grade. -/
def grade (preset : String) : TemplateStep :=
  ⟨.string "colorGrade", [("preset", .string preset)]⟩

/-- An effect with an intensity in tenths. -/
def effect (name : String) (tenths : Nat) : TemplateStep :=
  ⟨.string "applyEffect",
    [("effect", .string name), ("intensity", .real (.nearest ((tenths : Rat) / 10)))]⟩

/-- The bold white title of an opening. -/
def title : TemplateStep :=
  ⟨.string "addText",
    [("text", .string "WELCOME"), ("style", .string "bold"), ("position", .string "center"),
      ("fontSize", .int 72), ("fontColor", .string "white")]⟩

/-- A template of texts. -/
def entry (id name description category : String) (steps : List TemplateStep) : Template :=
  ⟨.string id, .string name, .string description, .string category, steps⟩

end Template

open Template in
/-- The templates that come with the library. -/
def bundledTemplates : List Template :=
  [entry "cinematic-intro" "Cinematic Intro"
      "Professional cinematic opening with dramatic color grading and bold title" "cinematic"
      [grade "cinematic", title, effect "dreamy glow" 7],
    entry "vlog-style" "Vlog Style" "Bright, vibrant look perfect for vlogs and lifestyle content"
      "vlog" [grade "golden hour", effect "soft focus" 3],
    entry "product-showcase" "Product Showcase"
      "Clean, professional look with subtle effects for product videos" "product"
      [grade "studio tone"],
    entry "social-media-ready" "Social Media Ready"
      "Vibrant, eye-catching style optimized for social platforms" "social"
      [grade "vibrant", effect "glow" 6],
    entry "corporate-professional" "Corporate Professional"
      "Clean, professional look for business and corporate content" "corporate"
      [grade "natural tone", effect "sharpen" 4],
    entry "retro-vintage" "Retro Vintage" "Classic vintage look with film grain and warm tones"
      "creative" [grade "vintage", effect "film grain" 8, effect "old film" 6],
    entry "cyberpunk-neon" "Cyberpunk Neon"
      "Futuristic neon aesthetic with high contrast and vibrant colors" "creative"
      [grade "cyberpunk"],
    entry "cinematic-trailer" "Cinematic Trailer"
      "Epic cinematic look with dramatic color grading and effects" "cinematic"
      [grade "cinematic", grade "high contrast", effect "dreamy glow" 8],
    entry "minimal-clean" "Minimal Clean" "Clean, minimal aesthetic with subtle enhancements"
      "product" [grade "natural tone", effect "soft focus" 2],
    entry "dramatic-noir" "Dramatic Noir" "Classic black and white with high contrast" "cinematic"
      [grade "noir", effect "high contrast" 9]]

end Montage
