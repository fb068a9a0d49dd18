import Mathlib.Tactic
import Montage.Preview.Compile
import Montage.Proofs.Filter.Gating
import Montage.Proofs.Value

/-!
# Windows in both renderings

A window of time is never dropped in silence. The filters of an operation carry it as a gate, or
there are no filters, or a warning says that they apply to the whole clip. The steps for the preview
service carry it in the layer of a text, and for all other edits a warning says that they apply
globally. Without a window there is nothing of the kind.

## Main definitions

* `Expression.Heeds`, `Descriptor.Heeds`: what becomes of the window of an operation.
* `Studio.PreviewsText`: the steps of a text, part by part.

## Main statements

* `Studio.heeds_of_compile`: a window is heeded by both renderings.
-/
namespace Montage

/-- The filters of the operation carry its window, or are empty, or say that the window was left
out. Without a window they have no gate and say nothing about one. -/
def Expression.Heeds (o : Operation) (e : Expression) : Prop :=
  match o.window with
  | some w =>
    ((specOf o.kind).windowed = true ∧ e.gate = some ⟨w.start, w.finish⟩) ∨
    ((specOf o.kind).windowed = true ∧ e.isEmpty = true) ∨
    ((specOf o.kind).windowed = false ∧ e.gate = none ∧ windowWarning o.kind ∈ e.warnings)
  | none => e.gate = none ∧ ∀ kind, windowWarning kind ∉ e.warnings

/-- The steps of a text are the text itself and the layer that lays it over the picture, which is
the only one that can have bounds. -/
def IsLayered (steps : List Fields) (start finish : Option Value) : Prop :=
  ∃ text layer, steps = [text, layer] ∧ text.get? "flags" = none ∧
    text.get? "start_offset" = none ∧ text.get? "end_offset" = none ∧
    layer.get? "flags" = some (.string "layer_apply") ∧
    layer.get? "start_offset" = start ∧ layer.get? "end_offset" = finish

/-- The steps of a text have the window of the operation, and those of other edits come with the
notice that they apply globally. Without a window there are no bounds and no notice. -/
def Descriptor.Heeds (o : Operation) (d : Descriptor) : Prop :=
  match o.window with
  | some w =>
    if o.kind.isText then
      IsLayered d.steps (some (numberPart w.start.toReal))
        (w.finish.map fun t => numberPart t.toReal)
    else Studio.windowNotice o.kind w ∈ d.warnings
  | none =>
    (o.kind.isText = true → IsLayered d.steps none none) ∧
      ∀ kind w, Studio.windowNotice kind w ∉ d.warnings

open Montage.Action

/-! ## Warnings about windows -/

theorem not_isRemark_windowWarning (kind : Kind) : ¬IsRemark (windowWarning kind) := by
  rw [IsRemark]
  cases kind <;> decide +kernel

theorem not_isRemark_windowNotice (kind : Kind) (w : Window) :
    ¬IsRemark (Studio.windowNotice kind w) := by
  have hhead : (Studio.windowNotice kind w).toList.head? = some 'P' := by
    unfold Studio.windowNotice
    generalize w.start.text = start
    generalize (w.finish.map Number.text).getD "None" = finish
    simp
  rw [IsRemark, hhead]
  decide

/-! ## Texts -/

theorem AreRemarks.previewSize {v : Value} {size : Int} {warnings : List String}
    (h : Montage.previewSize v = .ok (size, warnings)) : AreRemarks warnings := by
  have hclamped : ∀ w, previewSize.clamped w = .ok (size, warnings) → AreRemarks warnings := by
    intro w hw
    obtain ⟨n, -, hn⟩ := Outcome.map_eq_ok.mp hw
    rw [← (Prod.mk.inj hn).2]
    exact nofun
  unfold Montage.previewSize at h
  split at h
  · rw [← (Prod.mk.inj (Except.ok.inj h)).2]
    exact nofun
  · split at h
    · exact hclamped _ h
    · split at h
      · rw [← (Prod.mk.inj (Except.ok.inj h)).2]
        exact nofun
      · rw [← (Prod.mk.inj (Except.ok.inj h)).2]
        simp [AreRemarks, IsRemark]
  · exact hclamped _ h

/-- A colour gives one parameter, or what stands for a colour that is not known. -/
theorem colorPart_eq_ok {key notice : String} {v : Value} {fallback : Fields}
    {r : Fields × List String} (h : colorPart key v fallback notice = .ok r) :
    (∃ s c, v = .string s ∧ serviceColor s = .ok c ∧ r = ([(key, .string c)], [])) ∨
      r = (fallback, [notice]) := by
  cases v with
  | string s =>
      rcases hc : serviceColor s with e | c
      · simp only [colorPart, hc] at h
        exact .inr (Except.ok.inj h).symm
      · simp only [colorPart, hc] at h
        exact .inl ⟨s, c, rfl, hc, (Except.ok.inj h).symm⟩
  | _ => cases h

theorem AreRemarks.colorPart {key notice : String} {v : Value} {fallback : Fields}
    {r : Fields × List String} (hnotice : IsRemark notice)
    (h : Montage.colorPart key v fallback notice = .ok r) : AreRemarks r.2 := by
  rcases colorPart_eq_ok h with ⟨s, c, -, -, rfl⟩ | rfl
  · exact nofun
  · exact List.forall_mem_singleton.mpr hnotice

/-- The bounds of a window as parameters: the start, and the end if there is one. -/
theorem windowParts_eq_ok {window : Option Window} {parts : Fields}
    (h : windowParts window = .ok parts) :
    parts = (window.map fun w => ("start_offset", numberPart w.start.toReal)).toList ++
      ((window.bind Window.finish).map fun t => ("end_offset", numberPart t.toReal)).toList := by
  have hreal : ∀ {n : Number} {x : Binary64}, n.toReal? = .ok x → x = n.toReal := by
    intro n x hx
    rw [Number.toReal?] at hx
    split_ifs at hx
    exact (Except.ok.inj hx).symm
  cases window with
  | none => exact (Except.ok.inj h).symm
  | some w =>
      obtain ⟨start, hstart, h⟩ := Outcome.bind_eq_ok.mp h
      rw [hreal hstart] at h
      obtain ⟨from_, finish⟩ := w
      cases finish with
      | none => exact (Except.ok.inj h).symm
      | some t =>
          obtain ⟨finish, hfinish, h⟩ := Outcome.bind_eq_ok.mp h
          rw [hreal hfinish] at h
          exact (Except.ok.inj h).symm

/-- A place is one of those that have an anchor. -/
theorem returns_gravity {position inset : Value} :
    Returns (gravity position inset) fun place =>
      ∃ entry ∈ anchors, place = anchorStep entry.1 entry.2 inset := by
  unfold gravity
  dsimp only
  split
  · next anchor hlookup => exact .pure ⟨_, mem_of_lookup hlookup, rfl⟩
  · exact .after fun _ => .pure ⟨("bottom", "south"), by simp [anchors], rfl⟩

theorem keys_anchorStep {key anchor : String} {inset : Value} :
    ∀ f ∈ anchorStep key anchor inset, f.1 ∈ ["gravity", "x", "y"] := by
  rw [anchorStep]
  split_ifs <;> simp

theorem keys_colorPart {key notice : String} {v : Value} {fallback : Fields}
    {r : Fields × List String} (hfallback : ∀ f ∈ fallback, f.1 = key)
    (h : colorPart key v fallback notice = .ok r) : ∀ f ∈ r.1, f.1 = key := by
  rcases colorPart_eq_ok h with ⟨s, c, -, -, rfl⟩ | rfl
  · exact List.forall_mem_singleton.mpr rfl
  · exact hfallback

namespace Studio

variable {s : Studio}

/-- The steps of a text and the warnings about it, part by part. -/
inductive PreviewsText (s : Studio) (p : TextParams) (window : Option Window) :
    List Fields × List String → Prop
  | parts {size : Int × List String} {bold : Bool} {color back : Fields × List String}
      {anchor : String × String} {bounds : Fields} (hsize : previewSize p.size = .ok size)
      (hcolor : colorPart "color" (.string p.color) [("color", .string "white")]
        ("Unknown text colour '" ++ p.color ++ "', using white") = .ok color)
      (hback : if p.background.isTruthy then colorPart "background" p.background []
          ("Unknown background colour '" ++ p.background.text ++ "', ignored") = .ok back
        else back = ([], []))
      (hanchor : anchor ∈ anchors) (hbounds : windowParts window = .ok bounds) :
      PreviewsText s p window
        ([("overlay", .string ("text:" ++
              ((s.settings.preview.get? "font_family").getD (.string "Arial")).text ++ "_" ++
              intText size.1 ++ (if bold then "_bold" else "") ++ ":" ++ overlayText p.text)) ::
            (color.1 ++ back.1),
          ("flags", .string "layer_apply") :: (anchorStep anchor.1 anchor.2
            ((s.settings.preview.get? "inset").getD (.int 20)) ++ bounds)],
          size.2 ++ color.2 ++ back.2)

theorem returns_previewText {p : TextParams} {window : Option Window} :
    Returns (s.previewText p window) (PreviewsText s p window) := by
  refine (returns_ofFault fun _ h => h).bind ?_
  rintro ⟨size, sizes⟩ hsize
  refine .after fun bold => (returns_ofFault fun _ h => h).bind ?_
  rintro ⟨color, colors⟩ hcolor
  dsimp -zeta only
  extract_lets inset rest
  have hrest : ∀ back, (if p.background.isTruthy then colorPart "background" p.background []
        ("Unknown background colour '" ++ p.background.text ++ "', ignored") = .ok back
      else back = ([], [])) → Returns (rest back) (PreviewsText s p window) := by
    rintro ⟨back, backs⟩ hback
    refine returns_gravity.bind ?_
    rintro _ ⟨anchor, hanchor, rfl⟩
    refine (returns_ofFault fun _ h => h).bind fun bounds hbounds => ?_
    have hparts : PreviewsText s p window _ :=
      @PreviewsText.parts s p window (size, sizes) bold (color, colors) (back, backs) anchor bounds
        hsize hcolor hback hanchor hbounds
    exact .pure hparts
  split_ifs with hbackground
  · refine (returns_ofFault fun _ h => h).bind fun back hback => hrest back ?_
    rwa [if_pos hbackground]
  · refine hrest ([], []) ?_
    rw [if_neg hbackground]

/-- **The steps of a text** have the bounds of its window in their layer, and nowhere else. -/
theorem PreviewsText.isLayered {p : TextParams} {window : Option Window}
    {r : List Fields × List String} (h : PreviewsText s p window r) :
    IsLayered r.1 (window.map fun w => numberPart w.start.toReal)
      ((window.bind Window.finish).map fun t => numberPart t.toReal) ∧ AreRemarks r.2 := by
  obtain @⟨size, bold, color, back, anchor, bounds, hsize, hcolor, hback, hanchor, hbounds⟩ := h
  have hcolors : (∀ f ∈ color.1, f.1 = "color") ∧ AreRemarks color.2 :=
    ⟨keys_colorPart (by simp) hcolor, .colorPart (by simp [IsRemark]) hcolor⟩
  have hbacks : (∀ f ∈ back.1, f.1 = "background") ∧ AreRemarks back.2 := by
    split_ifs at hback
    · exact ⟨keys_colorPart (List.forall_mem_nil _) hback, .colorPart (by simp [IsRemark]) hback⟩
    · rw [hback]
      exact ⟨List.forall_mem_nil _, List.forall_mem_nil _⟩
  rw [windowParts_eq_ok hbounds]
  have htext : ∀ overlay key, key ∉ ["overlay", "color", "background"] →
      Fields.get? (("overlay", overlay) :: (color.1 ++ back.1)) key = none := by
    intro overlay key hkey
    simp only [List.mem_cons, List.not_mem_nil, or_false, not_or] at hkey
    rw [Fields.get?_cons, if_neg hkey.1, Fields.get?_append_of_ne, Fields.get?_eq_none]
    · exact fun f hf => hbacks.1 f hf ▸ Ne.symm hkey.2.2
    · exact fun f hf => hcolors.1 f hf ▸ Ne.symm hkey.2.1
  have hlayer : ∀ inset bounds key, key ∉ ["flags", "gravity", "x", "y"] →
      Fields.get? (("flags", .string "layer_apply") ::
        (anchorStep anchor.1 anchor.2 inset ++ bounds)) key = Fields.get? bounds key := by
    intro inset bounds key hkey
    rw [Fields.get?_cons, if_neg (by rintro rfl; simp at hkey), Fields.get?_append_of_ne]
    rintro f hf rfl
    exact hkey (List.mem_cons_of_mem _ (keys_anchorStep f hf))
  refine ⟨⟨_, _, rfl, htext _ "flags" (by decide), htext _ "start_offset" (by decide),
    htext _ "end_offset" (by decide), rfl, ?_, ?_⟩, ?_⟩
  · rw [hlayer _ _ _ (by decide)]
    cases window <;> rfl
  · rw [hlayer _ _ _ (by decide)]
    rcases window with - | ⟨start, - | finish⟩ <;> rfl
  · simp only [AreRemarks, List.forall_mem_append]
    exact ⟨⟨AreRemarks.previewSize hsize, hcolors.2⟩, hbacks.2⟩

/-- **The warnings about an edit** are remarks on what it asks for, and only texts have bounds. -/
theorem returns_previewEdit {window : Option Window} (edit : Edit) :
    Returns (s.previewEdit window edit) fun r =>
      (edit.kind.isText = true → IsLayered r.1 (window.map fun w => numberPart w.start.toReal)
        ((window.bind Window.finish).map fun t => numberPart t.toReal)) ∧ AreRemarks r.2 := by
  have heffect {found : Found Effect} (hnotices : AreRemarks found.notices) :
      Returns (previewEdit.effect found) fun r => AreRemarks r.2 :=
    .after fun _ => .after fun _ => .pure hnotices
  cases edit with
  | trim p => exact .pure ⟨nofun, nofun⟩
  | removeClip p => exact returns_refuse
  | colorGrade p =>
      exact .after fun _ => .after fun _ => .after fun _ => .pure ⟨nofun, AreRemarks.grade⟩
  | applyEffect p => exact (heffect .effect).mono fun _ h => ⟨nofun, h⟩
  | addText p =>
      exact returns_previewText.mono fun _ h => h.isLayered.imp_left fun hsteps _ => hsteps
  | customText p =>
      exact returns_previewText.mono fun _ h => h.isLayered.imp_left fun hsteps _ => hsteps
  | filter p => exact (heffect .filter).mono fun _ h => ⟨nofun, h⟩
  | addCaptions p => exact returns_refuse
  | adjustIntensity p =>
      simp only [previewEdit]
      split
      · exact .after fun _ => .pure ⟨nofun, nofun⟩
      · exact .pure ⟨nofun, nofun⟩
  | adjustZoom p => exact .after fun _ => .pure ⟨nofun, nofun⟩
  | adjustSpeed p => exact .pure ⟨nofun, nofun⟩
  | rotate p => exact .pure ⟨nofun, nofun⟩
  | crop p => exact .pure ⟨nofun, nofun⟩

/-! ## Operations -/

theorem returns_compileOperation_heeds (o : Operation) :
    Returns (s.compileOperation o) (Expression.Heeds o) := by
  refine (returns_compileOperation o).mono ?_
  rintro e ⟨e₀, he₀, he⟩
  rw [Expression.Heeds]
  cases hwindow : o.window with
  | none =>
      simp only [hwindow] at he
      subst he
      exact ⟨he₀.gate_eq, fun kind hmem => not_isRemark_windowWarning kind (he₀.remarks _ hmem)⟩
  | some w =>
      simp only [hwindow] at he
      cases he with
      | gated hwindowed hvideo => exact .inl ⟨hwindowed, rfl⟩
      | empty hwindowed hvideo =>
          refine .inr (.inl ⟨hwindowed, ?_⟩)
          simp [Expression.isEmpty, hvideo, he₀.audio_eq hwindowed]
      | warned hwindowed =>
          refine .inr (.inr ⟨hwindowed, he₀.gate_eq, ?_⟩)
          simp [Expression.warn]

theorem returns_previewOperation_heeds (o : Operation) (r : Resource) :
    Returns (s.previewOperation o r) (Descriptor.Heeds o) := by
  refine (returns_previewEdit o.edit).bind fun (steps, warnings) ⟨hsteps, hwarnings⟩ => ?_
  refine .after fun _ => .after fun _ => .pure ?_
  rw [Descriptor.Heeds]
  cases hwindow : o.window with
  | none =>
      refine ⟨fun htext => ?_, fun kind w hmem => ?_⟩
      · simpa [hwindow] using hsteps htext
      · refine not_isRemark_windowNotice kind w (hwarnings _ ?_)
        simpa using hmem
  | some w =>
      cases htext : o.kind.isText with
      | true => simpa [hwindow] using hsteps htext
      | false => simp

/-- **A window is never dropped in silence**, neither by the filters nor by the preview, and nothing
is limited that has no window. -/
theorem heeds_of_compile (s : Studio) (o : Operation) (σ σ' : Session) :
    (∀ e, (s.compileOperation o).exec σ = (.ok e, σ') → e.Heeds o) ∧
      ∀ r d, (s.previewOperation o r).exec σ = (.ok d, σ') → d.Heeds o :=
  ⟨fun e h => returns_compileOperation_heeds o σ e (congrArg Prod.fst h),
    fun r d h => returns_previewOperation_heeds o r σ d (congrArg Prod.fst h)⟩

theorem heeds_compile_title :
    let s : Studio := ⟨.default, .builtIn⟩
    let w : Window := ⟨.int 1, some (.int 4)⟩
    let look : Operation := ⟨.applyEffect ⟨"vhs", .nearest (1 / 2)⟩, some w⟩
    let title : Operation := ⟨.addText ⟨"Hi", "top", .null, "red", .null, .null, .null⟩, some w⟩
    let σ : Session := .of default [] []
    (∃ e σ', (s.compileOperation look).exec σ = (.ok e, σ') ∧ e.Heeds look) ∧
      ∃ d σ', (s.previewOperation title .video).exec σ = (.ok d, σ') ∧ d.Heeds title := by
  intro s w look title σ
  have hcompile : ((s.compileOperation look).exec σ).1.isOk = true := by decide +kernel
  have hpreview : ((s.previewOperation title .video).exec σ).1.isOk = true := by decide +kernel
  obtain ⟨e, σ₁, he⟩ := exists_exec_of_isOk hcompile
  obtain ⟨d, σ₂, hd⟩ := exists_exec_of_isOk hpreview
  exact ⟨⟨e, σ₁, he, (heeds_of_compile s look σ σ₁).1 e he⟩,
    d, σ₂, hd, (heeds_of_compile s title σ σ₂).2 .video d hd⟩

end Studio

end Montage
