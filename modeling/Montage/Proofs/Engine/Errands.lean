import Montage.Proofs.Engine.Moving

/-!
# Expressions that were handed back

Who asks for filters only is handed back an expression that lists the file of its captions. What is
asked of the engine later leaves this file as it is, unless the same captions are rendered: as the
same captions share one file, their rendering deletes it.

## Main definitions

* `Errand`: what is asked of an engine, one after another.
* `Engine.attendAll`: the expressions that were handed back, and the session after errands.
* `Handout.IsUsable`: an expression whose files are there still.
* `Errand.AreApart`, `Errand.GoTogether`: errands that write different files, and of which none
  disturbs another one.

## Main statements

* `Engine.moves_answer`: what one errand does to the stored files.
* `Engine.isUsable_attendAll`: expressions stay usable as long as the errands go together.
* `Engine.not_isUsable_rendered`: an expression is lost if its captions are rendered later.
-/
namespace Montage

open Montage.Action

/-- What is asked of an engine: to do an edit, or to compile it to filters only. -/
inductive Errand
  | process (r : Request) (t : Target) (backend : Value) (index : Int)
  | compile (kind params : Value) (window : Option Window)

namespace Errand

/-- The operation that is compiled to filters. -/
def operation? : Errand → Option Operation
  | process r _ backend _ => if isPreview backend then none else r.prepare.toOption
  | compile kind params window => (checkedOperation kind params window .video).toOption

/-- The subtitle document of that operation. -/
def document? (settings : Settings) (c : Errand) : Option String :=
  c.operation?.bind (Operation.document? settings)

/-- The file to which the operation is rendered. -/
def output? : Errand → Option Path
  | process _ t backend _ => if isPreview backend then none else t.output
  | compile .. => none

end Errand

/-- The expression that is handed back for an errand, if there is one. -/
def Engine.answer (e : Engine) : Errand → Action (Option Expression)
  | .process r t backend index => do
    return (← e.process r t backend index).product.bind Product.expression?
  | .compile kind params window => do return some (← e.studio.checkedFilter kind params window)

variable {settings : Settings} {e : Engine} {s σ : Session}

/-- **What one errand does to the stored files**: the steps of its document. The file of an
expression that is handed back is there. -/
theorem Engine.moves_answer (htemp : e.studio.settings.tempPath.WellFormed) (c : Errand)
    (houtput : ∀ p, c.output? = some p → p.WellFormed) :
    Moves (e.studio.settings.FileStep (c.document? e.studio.settings) c.output?) (e.answer c) σ
      fun x? f => ∀ x ∈ x?, c.output? = none ∧
        f.HasListed e.studio.settings (c.document? e.studio.settings) x.scratch := by
  cases c with
  | process r t backend index =>
      refine (moves_process htemp houtput fun h => ?_).bind fun result s₁ hresult => .pure ?_
      · simp [Errand.document?, Errand.operation?, Errand.output?, h]
      · exact fun x hx => hresult x hx
  | compile kind params window =>
      have hchecked : Moves (e.studio.settings.FileStep
          ((Errand.compile kind params window).document? e.studio.settings) none)
          (ofFailure (checkedOperation kind params window .video)) σ fun o f =>
            checkedOperation kind params window .video = .ok o := moves_of_eq rfl fun _ h => h
      refine (hchecked.bind (R := fun x f => f.HasListed e.studio.settings
        ((Errand.compile kind params window).document? e.studio.settings) x.scratch)
        fun o s₁ ho => ?_).bind fun x s₂ hx => .pure ?_
      · have hdocument : (Errand.compile kind params window).document? e.studio.settings =
            o.document? e.studio.settings := by
          simp [Errand.document?, Errand.operation?, ho, Except.toOption]
        rw [hdocument]
        exact Studio.moves_compileOperation o
      · rintro _ ⟨⟩
        exact ⟨rfl, hx⟩

/-! ## Errand after errand -/

/-- An expression that was handed back for an errand. -/
structure Handout where
  errand : Errand
  expression : Expression

/-- Every file that the expression lists is there, and holds the document that was written for its
errand. -/
def Handout.IsUsable (settings : Settings) (f : Storage) (h : Handout) : Prop :=
  ∀ path ∈ h.expression.scratch, ∃ d, h.errand.document? settings = some d ∧
    path = (settings.captionFile d).text ∧ f.Holds (.ofString path) d

theorem Handout.isUsable_iff (htemp : settings.tempPath.WellFormed) {f : Storage} {h : Handout} :
    h.IsUsable settings f ↔ ∀ path ∈ h.expression.scratch, ∃ d,
      h.errand.document? settings = some d ∧ path = (settings.captionFile d).text ∧
        f.Holds (settings.captionFile d) d := by
  refine forall₂_congr fun path _ => exists_congr fun d => and_congr_right fun _ => ?_
  refine and_congr_right ?_
  rintro rfl
  rw [Settings.ofString_captionFile htemp]

namespace Engine

/-- What was handed back, and the session, after one more errand. -/
def attend (e : Engine) (state : List Handout × Session) (c : Errand) : List Handout × Session :=
  match (e.answer c).exec state.2 with
  | (.ok (some x), s) => (state.1 ++ [⟨c, x⟩], s)
  | (_, s) => (state.1, s)

/-- What was handed back, and the session, after errands. -/
def attendAll (e : Engine) (errands : List Errand) (s : Session) : List Handout × Session :=
  errands.foldl e.attend ([], s)

end Engine

/-- Captions that the first errand compiles only are not rendered by the second one. -/
def Errand.Spares (settings : Settings) (c c' : Errand) : Prop :=
  ∀ d, c.document? settings = some d → c.output? = none → c'.document? settings = some d →
    c'.output? = none

/-- What the errands write is kept apart: different documents have different names, the files of
captions are in order at first, and no output is one of them. -/
structure Errand.AreApart (settings : Settings) (s : Session) (errands : List Errand) : Prop where
  names : Set.InjOn captionFileName {d | ∃ c ∈ errands, c.document? settings = some d}
  orderly : ∀ c ∈ errands, ∀ d, c.document? settings = some d → s.files.IsOrderly settings d
  wellFormed : ∀ c ∈ errands, ∀ p, c.output? = some p → p.WellFormed
  outputs : ∀ c ∈ errands, ∀ c' ∈ errands, ∀ p d, c.output? = some p →
    c'.document? settings = some d → p.place ≠ (settings.captionFile d).place

/-- None of the errands disturbs another one: what they write is kept apart, and captions that were
compiled only are not rendered later. -/
structure Errand.GoTogether (settings : Settings) (s : Session) (errands : List Errand) : Prop
    extends Errand.AreApart settings s errands where
  order : errands.Pairwise (Errand.Spares settings)

/-- The state after some of the errands: the files of captions are in order, and what was handed
back is usable. -/
structure Engine.Attended (settings : Settings) (errands done : List Errand)
    (state : List Handout × Session) : Prop where
  orderly : ∀ c ∈ errands, ∀ d, c.document? settings = some d →
    state.2.files.IsOrderly settings d
  errand : ∀ h ∈ state.1, h.errand ∈ done ∧ h.errand.output? = none
  usable : ∀ h ∈ state.1, h.IsUsable settings state.2.files

namespace Engine

variable {errands done : List Errand} {c c' : Errand} {state : List Handout × Session}
  {f g : Storage} {d' : String}

/-- The steps of an errand leave the files of captions in order. -/
theorem isOrderly_of_moves
    (h : Relation.ReflTransGen (settings.FileStep (c.document? settings) c.output?) f g)
    (hup : ".." ∉ settings.tempPath.parts) (hapart : Errand.AreApart settings s errands)
    (hc : c ∈ errands) (hc' : c' ∈ errands) (hd' : c'.document? settings = some d')
    (hf : f.IsOrderly settings d') : g.IsOrderly settings d' := by
  induction h with
  | refl => exact hf
  | tail _ hstep ih =>
      refine hstep.isOrderly hup (fun d hd hname => ?_) (fun p hp => ?_) ih
      · exact hapart.names ⟨c, hc, hd⟩ ⟨c', hc', hd'⟩ hname
      · exact hapart.outputs c hc c' hc' p d' hp hd'

/-- The steps of an errand spare the file of another document, and of the same one unless it is
rendered. -/
theorem holds_of_moves
    (h : Relation.ReflTransGen (settings.FileStep (c.document? settings) c.output?) f g)
    (hapart : Errand.AreApart settings s errands) (hc : c ∈ errands)
    (hc' : c' ∈ errands) (hd' : c'.document? settings = some d')
    (hrender : c.document? settings = some d' → c.output? = none)
    (hf : f.Holds (settings.captionFile d') d') : g.Holds (settings.captionFile d') d' := by
  induction h with
  | refl => exact hf
  | tail _ hstep ih =>
      refine hstep.holds (fun d hd houtput hplace => ?_) (fun p hp => ?_) ih
      · -- What would delete this file has the same document, and so does not render.
        have hname := Settings.captionFileName_eq_of_place hplace
        obtain rfl := hapart.names ⟨c', hc', hd'⟩ ⟨c, hc, hd⟩ hname
        exact houtput (hrender hd)
      · exact hapart.outputs c hc c' hc' p d' hp hd'

/-- The steps of one more errand leave what was handed back usable. -/
theorem Attended.moved (h : Attended settings errands done state)
    (htemp : settings.tempPath.WellFormed) (hup : ".." ∉ settings.tempPath.parts)
    (hapart : Errand.AreApart settings s errands) (hsub : done ⊆ errands) (hc : c ∈ errands)
    (hspares : ∀ c' ∈ done, c'.Spares settings c) {s' : Session}
    (hmoves : Relation.ReflTransGen (settings.FileStep (c.document? settings) c.output?)
      state.2.files s'.files) :
    Attended settings errands (done ++ [c]) (state.1, s') where
  orderly c' hc' d hd := isOrderly_of_moves hmoves hup hapart hc hc' hd (h.orderly c' hc' d hd)
  errand handout hmem := by
    obtain ⟨hdone, hcompiled⟩ := h.errand handout hmem
    exact ⟨List.mem_append_left _ hdone, hcompiled⟩
  usable handout hmem := by
    obtain ⟨hdone, hcompiled⟩ := h.errand handout hmem
    have husable := h.usable handout hmem
    rw [Handout.isUsable_iff htemp] at husable ⊢
    intro path hpath
    obtain ⟨d, hd, htext, hholds⟩ := husable path hpath
    exact ⟨d, hd, htext, holds_of_moves hmoves hapart hc (hsub hdone) hd
      (hspares handout.errand hdone d hd hcompiled) hholds⟩

/-- An expression that lists no file but one that is there is usable, as that file is in order. -/
theorem Attended.handed (h : Attended settings errands (done ++ [c]) state)
    (htemp : settings.tempPath.WellFormed) (hc : c ∈ errands) (hcompiled : c.output? = none)
    {x : Expression} (hlisted : state.2.files.HasListed settings (c.document? settings) x.scratch) :
    Attended settings errands (done ++ [c]) (state.1 ++ [⟨c, x⟩], state.2) where
  orderly := h.orderly
  errand := by
    refine List.forall_mem_append.mpr ⟨h.errand, ?_⟩
    rw [List.forall_mem_singleton]
    exact ⟨List.mem_append_right _ (List.mem_singleton_self c), hcompiled⟩
  usable := by
    refine List.forall_mem_append.mpr ⟨h.usable, ?_⟩
    rw [List.forall_mem_singleton, Handout.isUsable_iff htemp]
    intro path hpath
    obtain ⟨d, hd, htext, hthere⟩ := hlisted path hpath
    exact ⟨d, hd, htext, (h.orderly c hc d hd).resolve_left hthere⟩

/-- **One more errand** leaves what was handed back usable, and so is what it hands back. -/
theorem Attended.attend (h : Attended e.studio.settings errands done state)
    (htemp : e.studio.settings.tempPath.WellFormed)
    (hup : ".." ∉ e.studio.settings.tempPath.parts)
    (hapart : Errand.AreApart e.studio.settings s errands) (hsub : done ⊆ errands)
    (hc : c ∈ errands) (hspares : ∀ c' ∈ done, c'.Spares e.studio.settings c) :
    Attended e.studio.settings errands (done ++ [c]) (e.attend state c) := by
  obtain ⟨hmoves, hhanded⟩ :=
    moves_answer (e := e) (σ := state.2) htemp c (hapart.wellFormed c hc)
  rw [Engine.attend]
  rcases hexec : (e.answer c).exec state.2 with ⟨r, s'⟩
  rw [hexec] at hmoves hhanded
  have hbefore := h.moved htemp hup hapart hsub hc hspares hmoves
  rcases r with failure | _ | x
  · exact hbefore
  · exact hbefore
  · obtain ⟨hcompiled, hlisted⟩ := hhanded _ rfl x rfl
    exact hbefore.handed htemp hc hcompiled hlisted

/-- An errand that is next does not render what was compiled only before. -/
theorem spares_of_take (hgo : Errand.GoTogether settings s errands) {n : Nat}
    (hn : n < errands.length) : ∀ c ∈ errands.take n, c.Spares settings errands[n] := by
  have hsplit : (errands.take n ++ errands.drop n).Pairwise (Errand.Spares settings) := by
    rw [List.take_append_drop]
    exact hgo.order
  have hmem : errands[n] ∈ errands.drop n := by
    rw [List.drop_eq_getElem_cons hn]
    exact List.mem_cons_self
  exact fun c hc => (List.pairwise_append.mp hsplit).2.2 c hc errands[n] hmem

/-- **Errand after errand**: what was handed back stays usable, by induction on their number. -/
theorem attended_attendAll (htemp : e.studio.settings.tempPath.WellFormed)
    (hup : ".." ∉ e.studio.settings.tempPath.parts)
    (hgo : Errand.GoTogether e.studio.settings s errands) (n : Nat) :
    Attended e.studio.settings errands (errands.take n) (e.attendAll (errands.take n) s) := by
  induction n with
  | zero => exact ⟨hgo.orderly, fun _ h => absurd h List.not_mem_nil,
      fun _ h => absurd h List.not_mem_nil⟩
  | succ n ih =>
      rw [List.take_add_one]
      cases hnext : errands[n]? with
      | none =>
          -- All errands were attended before.
          rw [Option.toList_none, List.append_nil]
          exact ih
      | some c =>
          obtain ⟨hn, rfl⟩ := List.getElem?_eq_some_iff.mp hnext
          rw [Option.toList_some, attendAll, List.foldl_append]
          exact ih.attend htemp hup hgo.toAreApart (List.take_subset _ _) (List.getElem_mem hn)
            (spares_of_take hgo hn)

/-- **Expressions stay usable**: as long as the errands go together, every file that is listed by an
expression handed back before is there after each errand, with the document that was written for
it. -/
theorem isUsable_attendAll (e : Engine) (htemp : e.studio.settings.tempPath.WellFormed)
    (hup : ".." ∉ e.studio.settings.tempPath.parts)
    (hgo : Errand.GoTogether e.studio.settings s errands) (n : Nat) :
    ∀ h ∈ (e.attendAll (errands.take n) s).1,
      h.IsUsable e.studio.settings (e.attendAll (errands.take n) s).2.files :=
  (attended_attendAll htemp hup hgo n).usable

/-! ## Captions that are rendered after all -/

section

variable {r : Request} {t t' : Target} {output : Path} {document : String}

/-- The session after an errand, whatever was handed back. -/
theorem attend_snd : (e.attend state c).2 = ((e.answer c).exec state.2).2 := by
  rw [attend]
  split
  · rename_i h
    rw [h]
  · rename_i h
    rw [h]

/-- A request is reported without any change of the stored files. -/
theorem files_answer_process {kind backend : Value} {index : Int} (hkind : r.kindText = .ok kind) :
    ((e.answer (.process r t backend index)).exec s).2.files =
      ((e.perform r t backend).exec (e.announced r index s)).2.files := by
  have hprocess : (e.process r t backend index).exec s = _ := exec_process hkind
  rcases hperform : (e.perform r t backend).exec (e.announced r index s) with ⟨outcome, s'⟩
  rw [hperform] at hprocess
  rw [answer, exec_bind_of_ok hprocess]
  cases outcome <;> rfl

/-- What was handed back before an errand is not taken back. -/
theorem mem_attend {h : Handout} (hmem : h ∈ state.1) : h ∈ (e.attend state c).1 := by
  rw [attend]
  split
  · exact List.mem_append_left _ hmem
  · exact hmem

variable (hr : r.IsGiven) (hdocument : r.document? e.studio.settings = some document)
  (hcaptions : s.files.WithCaptions e.studio.settings document g)

include hr hdocument hcaptions

/-- Captions that are compiled only are handed back with their file. -/
theorem exists_answer_captions (index : Int) (houtput : t.output = none) :
    ∃ x s', (e.answer (.process r t (.string "authoritative") index)).exec s = (.ok (some x), s') ∧
      s'.files = g ∧ x.scratch = [(e.studio.settings.captionFile document).text] := by
  obtain ⟨kind, hkind⟩ := Request.exists_kindText hr
  obtain ⟨o, d, x, hprepare, hdraft, hcompiled, hscratch⟩ :=
    Workshop.exists_draft_captions (w := e.workshop) (t := t) (s := e.announced r index s)
      hdocument hcaptions
  obtain ⟨outcome, hattempt, hproduct⟩ : ∃ outcome,
      (e.workshop.authoritative.attempt o t).exec (e.announced r index s) =
        (.ok outcome, { e.announced r index s with files := g }) ∧
      outcome.product = some (.compiled (.expression x)) := by
    rw [Workshop.authoritative]
    dsimp only
    rw [houtput]
    dsimp only
    rw [exec_bind_of_ok hdraft]
    exact ⟨_, rfl, by rw [hcompiled]⟩
  have hprocess : (e.process r t (.string "authoritative") index).exec s = _ :=
    exec_process hkind
  rw [exec_perform hprepare, hattempt] at hprocess
  refine ⟨x, e.concluded kind index (.ok outcome) { e.announced r index s with files := g },
    (exec_bind_of_ok hprocess).trans ?_, rfl, hscratch⟩
  have hexpression : (resultOf kind index (.ok outcome)).product.bind Product.expression? =
      some x := by
    rw [resultOf, hproduct]
    rfl
  rw [hexpression]
  rfl

variable (hholds : g.Holds (e.studio.settings.captionFile document) document)
  (htemp : e.studio.settings.tempPath.WellFormed)
  (hsource : (Target.given? t.source).isNone = false) (houtput : t.output = some output)
  (hduration : t.duration.isSome = true) (hsound : t.hasAudio.isSome = true)
  (hwf : output.WellFormed)
  (hapart : output.place ≠ (e.studio.settings.captionFile document).place)

include hholds htemp hsource houtput hduration hsound hwf hapart

/-- **Captions that are rendered** lose their file, however the rendering ends. -/
theorem entry?_answer_captions (index : Int) :
    Storage.entry? ((e.answer (.process r t (.string "authoritative") index)).exec s).2.files
      (e.studio.settings.captionFile document).place = none := by
  obtain ⟨kind, hkind⟩ := Request.exists_kindText hr
  obtain ⟨o, d, x, hprepare, hdraft, hcompiled, hscratch⟩ :=
    Workshop.exists_draft_captions (w := e.workshop) (t := t) (s := e.announced r index s)
      hdocument hcaptions
  obtain ⟨command, outcome, files, -, hgone, hrender⟩ := Workshop.exists_renderDraft e.workshop o t
    output (s := { e.announced r index s with files := g }) hcompiled hscratch
    (Path.wellFormed_child htemp document) fun command hcommand => by
      refine (changed_render (D := ∅) hcommand).files.holds ?_ hholds
      rw [Path.ofString_text hwf]
      exact hapart.symm
  rw [files_answer_process hkind, exec_perform hprepare,
    Workshop.exec_authoritative hsource houtput hduration hsound hdraft, hrender]
  exact hgone

/-- **An expression is lost** if its captions are rendered after they were compiled only, whatever
becomes of the rendering. -/
theorem not_isUsable_rendered (hcompiled : t'.output = none) (index index' : Int) :
    ¬∀ h ∈ (e.attendAll [.process r t' (.string "authoritative") index,
        .process r t (.string "authoritative") index'] s).1,
      h.IsUsable e.studio.settings (e.attendAll [.process r t' (.string "authoritative") index,
        .process r t (.string "authoritative") index'] s).2.files := by
  obtain ⟨x, s', hanswer, rfl, hscratch⟩ :=
    exists_answer_captions hr hdocument hcaptions index hcompiled
  have hfirst : e.attend ([], s) (.process r t' (.string "authoritative") index) =
      ([⟨.process r t' (.string "authoritative") index, x⟩], s') := by
    rw [attend, hanswer]
    rfl
  have hgone := entry?_answer_captions hr hdocument (hcaptions.again hholds) hholds htemp hsource
    houtput hduration hsound hwf hapart index'
  rw [attendAll, List.foldl_cons, List.foldl_cons, List.foldl_nil, hfirst]
  intro husable
  obtain ⟨d, -, -, hthere⟩ := husable _ (mem_attend (List.mem_singleton_self _))
    (e.studio.settings.captionFile document).text (by simp [hscratch])
  rw [attend_snd, Settings.ofString_captionFile htemp] at hthere
  rcases (Storage.holds_iff.mp hthere).2 with hentry | hentry
  · rw [hgone] at hentry
    cases hentry
  · rw [hgone] at hentry
    cases hentry

end

end Engine

/-! ## Errands about a greeting -/

open Engine

/-- The greeting is compiled to filters. -/
def compileGreeting : Errand :=
  .process greeting ⟨some "in.mp4", none, none, .video, none, none⟩ (.string "authoritative") 0

/-- The greeting is rendered. -/
def renderGreeting : Errand := .process greeting film (.string "authoritative") 1

/-- A film is rotated. -/
def renderRotation : Errand := .process rotation film (.string "authoritative") 1

/-- A request that draws captions has the same document as an errand. -/
theorem Errand.document?_process {r : Request} {t : Target} {d : String} (index : Int)
    (h : r.document? settings = some d) :
    (Errand.process r t (.string "authoritative") index).document? settings = some d := by
  obtain ⟨p, style, hprepare, hfile, hcues, hstyle, hdocument⟩ := Request.exists_of_document? h
  have hpreview : isPreview (.string "authoritative") = false := by decide
  rw [Errand.document?, Errand.operation?, hpreview, if_neg Bool.false_ne_true, hprepare]
  simp [Operation.document?, Except.toOption, hfile, hcues, hstyle, hdocument]

theorem document?_renderRotation : renderRotation.document? settings = none := by
  have hpreview : isPreview (.string "authoritative") = false := by decide
  rw [renderRotation, Errand.document?, Errand.operation?, hpreview, if_neg Bool.false_ne_true,
    prepare_rotation]
  rfl

/-- Errands about a greeting keep apart what they write. -/
theorem areApart_greeting {errands : List Errand} {launch : Launch}
    (herrands : ∀ c ∈ errands, c ∈ [compileGreeting, renderGreeting, renderRotation]) :
    Errand.AreApart .default (filmSession launch) errands := by
  have hdocument : ∀ c ∈ errands, ∀ d, c.document? .default = some d → d = greetingDocument := by
    intro c hc d hd
    have hgreeting (index : Int) (t : Target) :=
      Errand.document?_process (t := t) index document?_greeting
    obtain rfl | rfl | rfl : c = compileGreeting ∨ c = renderGreeting ∨ c = renderRotation := by
      simpa using herrands c hc
    · exact Option.some.inj (hd.symm.trans (hgreeting 0 _))
    · exact Option.some.inj (hd.symm.trans (hgreeting 1 _))
    · rw [document?_renderRotation] at hd
      cases hd
  have houtput : ∀ c ∈ errands, ∀ p, c.output? = some p → p = .ofString "out.mp4" := by
    intro c hc p hp
    obtain rfl | rfl | rfl : c = compileGreeting ∨ c = renderGreeting ∨ c = renderRotation := by
      simpa using herrands c hc
    · cases hp
    · exact Option.some.inj (hp.symm.trans (by decide))
    · exact Option.some.inj (hp.symm.trans (by decide))
  refine ⟨?_, fun c hc d hd => .inl ?_, fun c hc p hp => ?_, fun c hc c' hc' p d hp hd => ?_⟩
  · rintro d ⟨c, hc, hd⟩ d' ⟨c', hc', hd'⟩ -
    rw [hdocument c hc d hd, hdocument c' hc' d' hd']
  · rw [place_captionFile_default]
    simp [filmSession, Session.of, Storage.entry?, Storage.lookup_cons]
  · rw [houtput c hc p hp]
    exact Path.wellFormed_ofString _
  · have hplace : (Path.ofString "out.mp4").place = ["out.mp4"] := by decide
    rw [houtput c hc p hp, hplace, place_captionFile_default]
    simp

/-- The directory for temporary files is made where nothing but a film is stored. -/
theorem exists_makeDirs_filmSession (launch : Launch) :
    ∃ f, (filmSession launch).files.makeDirs Settings.default.tempPath = .ok f ∧
      f.entry? ["tmp"] = some .directory ∧ f.entry? ["tmp", "vedit"] = some .directory ∧
      ∀ d, f.entry? (Settings.default.captionFile d).place = none := by
  refine ⟨⟨[(["in.mp4"], .text "v"), (["tmp"], .directory), (["tmp", "vedit"], .directory)]⟩, ?_,
    rfl, rfl, fun d => ?_⟩
  · have hempty : Storage.entry? (filmSession launch).files ["tmp"] = none := rfl
    have htmp : Storage.entry? ((filmSession launch).files.put ["tmp"] .directory) ["tmp"] =
        some .directory := rfl
    have hempty' : Storage.entry? ((filmSession launch).files.put ["tmp"] .directory)
        ["tmp", "vedit"] = none := rfl
    rw [tempPath_default, Storage.makeDirs]
    simp only [Storage.makeDirsFrom, List.nil_append, List.cons_append, locate_tmp,
      locate_vedit htmp, hempty, hempty']
    rfl
  · rw [place_captionFile_default]
    simp [Storage.entry?, Storage.lookup_cons]

/-- The file of captions can be written where nothing but a film is stored. -/
theorem exists_withCaptions_filmSession (launch : Launch) (document : String) :
    ∃ g, (filmSession launch).files.WithCaptions .default document g ∧
      g.Holds (Settings.default.captionFile document) document := by
  obtain ⟨f, hdirs, htmp, hvedit, hempty⟩ := exists_makeDirs_filmSession launch
  have hnone := hempty document
  have hlocate := locate_captionFile_default document htmp hvedit
  have habsent : f.exists? (Settings.default.captionFile document) = .ok false := by
    rw [Storage.exists?_eq_ok (by simp [hlocate]), Storage.lookup_eq_none hnone]
    rfl
  have htakes : f.TakesFile (Settings.default.captionFile document) := by
    refine ⟨hlocate, by simp [hnone], ?_⟩
    rw [place_captionFile_default]
    exact hvedit
  obtain ⟨g, hwrite⟩ := Outcome.isOk_iff.mp (Storage.isOk_write_iff.mpr htakes)
  exact ⟨g, ⟨f, hdirs, .inr ⟨habsent, hwrite⟩⟩, (Storage.changed_of_write (D := ∅) hwrite).2⟩

/-- A greeting that is compiled before and after a film is rotated stays usable. -/
theorem isUsable_greeting :
    Settings.default.tempPath.WellFormed ∧ ".." ∉ Settings.default.tempPath.parts ∧
      Errand.GoTogether .default (filmSession .plain)
        [compileGreeting, renderRotation, compileGreeting] ∧
      ∀ h ∈ (plainEngine.attendAll ([compileGreeting, renderRotation, compileGreeting].take 3)
          (filmSession .plain)).1,
        h.IsUsable .default (plainEngine.attendAll
          ([compileGreeting, renderRotation, compileGreeting].take 3)
          (filmSession .plain)).2.files := by
  have hup : ".." ∉ Settings.default.tempPath.parts := by decide
  have hapart : Errand.AreApart .default (filmSession .plain)
      [compileGreeting, renderRotation, compileGreeting] := areApart_greeting (by simp)
  have hspares : compileGreeting.Spares .default compileGreeting := fun _ _ _ _ => rfl
  have hrotated : compileGreeting.Spares .default renderRotation := by
    intro d _ _ hd
    rw [document?_renderRotation] at hd
    cases hd
  have hrotation : renderRotation.Spares .default compileGreeting := fun _ _ _ _ => rfl
  have hgo : Errand.GoTogether .default (filmSession .plain)
      [compileGreeting, renderRotation, compileGreeting] :=
    { hapart with order := by simp [hspares, hrotated, hrotation] }
  exact ⟨wellFormed_tempPath_default, hup, hgo,
    isUsable_attendAll plainEngine wellFormed_tempPath_default hup hgo 3⟩

/-- **The greeting is lost** when it is rendered after it was compiled, although both errands keep
apart what they write. -/
theorem not_isUsable_greeting :
    Errand.AreApart .default (filmSession .plain) [compileGreeting, renderGreeting] ∧
      ¬∀ h ∈ (plainEngine.attendAll [compileGreeting, renderGreeting] (filmSession .plain)).1,
        h.IsUsable .default (plainEngine.attendAll [compileGreeting, renderGreeting]
          (filmSession .plain)).2.files := by
  obtain ⟨g, hcaptions, hholds⟩ := exists_withCaptions_filmSession .plain greetingDocument
  have hplace : (Path.ofString "out.mp4").place = ["out.mp4"] := by decide
  have hapart : (Path.ofString "out.mp4").place ≠
      (Settings.default.captionFile greetingDocument).place := by
    rw [hplace, place_captionFile_default]
    simp
  refine ⟨areApart_greeting (by simp), ?_⟩
  have hgiven : greeting.IsGiven := trivial
  exact not_isUsable_rendered (e := plainEngine) (t := film) hgiven document?_greeting hcaptions
    hholds wellFormed_tempPath_default rfl rfl rfl rfl (Path.wellFormed_ofString "out.mp4") hapart
    rfl 0 1

end Montage
