import Montage.Proofs.Engine.Inspecting
import Montage.Proofs.Segment.Removal

/-!
# Sources of unreported length

A description need not tell how long a file is. Where nothing is known of the length, a removal is
planned all the same, and the rest of the source is kept up to its end. But a duration of zero is
read of a description without a duration, and it counts as a known one. The end of such a source
lies before every span, so every removal from it is skipped.

## Main definitions

* `RemovalParams.IsProper`: the span starts at zero or later, and ends after its start.
* `Workshop.UsesOpenPlan`: an attempt at a removal that keeps the source up to its end, wherever
  that is.

## Main statements

* `Workshop.exists_probe`: what is known of an inspected source of unreported length.
* `Workshop.exec_authoritative_of_local`: a removal from such a source is skipped.
* `Workshop.usesOpenPlan_iff`: when the source is kept up to its end.
-/
namespace Montage

open Montage.Action

variable {s s' : Session} {t t' : Target} {o : Operation} {p : RemovalParams} {v : Value}

/-! ## Plans of a removal -/

/-- The span starts at zero or later, and ends after its start. -/
structure RemovalParams.IsProper (p : RemovalParams) : Prop where
  start : 0 ≤ p.start
  order : p.start < p.finish

/-- Why a removal from a source without a length is skipped. -/
def RemovalParams.beyondZero (p : RemovalParams) : String :=
  SkipCause.beyondSource.message (.real p.start) (.real p.finish) (some (.real 0))

namespace RemovalParams.IsProper

variable (h : p.IsProper)

include h

theorem start_ne_nan : p.start ≠ .nan := by
  intro hnan
  have hstart := h.start
  rw [hnan] at hstart
  exact absurd hstart (by decide)

theorem finish_ne_nan : p.finish ≠ .nan := by
  intro hnan
  have horder := h.order
  rw [hnan] at horder
  cases hstart : p.start <;> rw [hstart] at horder <;> cases horder

theorem not_start_lt : ¬Number.real p.start < .real 0 := by
  have hstart := (Binary64.le_iff (by decide) h.start_ne_nan).mp h.start
  exact fun hlt => hstart.not_gt ((Binary64.lt_iff h.start_ne_nan (by decide)).mp hlt)

theorem not_finish_le : ¬Number.real p.finish ≤ .real p.start := by
  have horder := (Binary64.lt_iff h.start_ne_nan h.finish_ne_nan).mp h.order
  exact fun hle => horder.not_ge ((Binary64.le_iff h.finish_ne_nan h.start_ne_nan).mp hle)

/-- Where nothing is known of the length of the source, the removal is planned. -/
theorem exists_planRemoval :
    ∃ plan, planRemoval (.real p.start) (.real p.finish) none = .ok plan ∧
      (Compiled.plan plan).IsWritable := by
  refine ⟨_, planRemoval_eq_ok_iff.mpr
    ⟨skipCause?_eq_none_iff.mpr ⟨h.not_start_lt, h.not_finish_le, nofun⟩, rfl⟩, ?_⟩
  rw [Compiled.IsWritable, SegmentPlan.keptSpans]
  split <;> simp [Span.isWritable, Number.beyondReal]

/-- A source that ends at zero ends before the span. -/
theorem planRemoval_zero : planRemoval (.real p.start) (.real p.finish) (some (.real 0)) =
    .error .beyondSource := by
  have hbeyond : (Number.real 0) ≤ .real p.start := h.start
  rw [planRemoval, SegmentPlan.remove, skipCause?, if_neg h.not_start_lt, if_neg h.not_finish_le]
  simp only [if_pos hbeyond]

end RemovalParams.IsProper

/-! ## Drafts of a removal -/

/-- A removal that can be planned is drafted. -/
theorem exec_draftRemoval_of_plan {plan : SegmentPlan Number}
    (hplan : planRemoval (.real p.start) (.real p.finish) t.duration = .ok plan)
    (hwritable : (Compiled.plan plan).IsWritable) :
    ∃ d s', d.compiled = .plan plan ∧ (Workshop.draftRemoval p t).exec s = (.ok (.ok d), s') := by
  obtain ⟨graph, hgraph⟩ : ∃ graph, plan.graph (t.hasAudio.getD true) = .ok graph :=
    Outcome.isOk_iff.mp (SegmentPlan.isOk_graph_iff.mpr hwritable)
  refine ⟨⟨.plan plan, [], [("filter_graph", .string graph)]⟩, s, rfl, ?_⟩
  unfold Workshop.draftRemoval
  rw [hplan]
  dsimp only
  rw [hgraph, exec_bind_of_ok (exec_ofFault _)]
  rfl

/-- A removal that cannot be planned is skipped. -/
theorem exec_draftRemoval_of_cause {cause : SkipCause}
    (hplan : planRemoval (.real p.start) (.real p.finish) t.duration = .error cause) :
    ∃ s', (Workshop.draftRemoval p t).exec s = (.ok (.error (Workshop.skip
      [cause.message (.real p.start) (.real p.finish) t.duration])), s') := by
  unfold Workshop.draftRemoval
  rw [hplan]
  exact ⟨_, rfl⟩

/-! ## Probing a target -/

/-- A local source is a file that is there. -/
theorem Target.exists?_of_isLocal {files : Storage} (h : t.isLocal files = .ok true) :
    (given? t.source).isNone = false ∧ files.exists? (.ofString (t.source.getD "")) = .ok true := by
  rw [isLocal] at h
  cases hgiven : given? t.source with
  | none =>
      rw [hgiven] at h
      cases h
  | some source =>
      rw [hgiven] at h
      dsimp only at h
      rw [(Option.filter_eq_some_iff.mp hgiven).1]
      split_ifs at h
      · cases h
      · exact ⟨rfl, h⟩

namespace Workshop

variable {w : Workshop}

/-- The removal is planned for a source that ends nobody knows where, and comes to a draft. -/
def UsesOpenPlan (w : Workshop) (o : Operation) (p : RemovalParams) (t : Target) (s : Session) :
    Prop :=
  ∃ d plan, w.DraftsInto o t s d ∧ d.compiled = .plan plan ∧
    planRemoval (.real p.start) (.real p.finish) none = .ok plan

theorem draft_eq (hedit : o.edit = .removeClip p) : w.draft o t = draftRemoval p t := by
  rw [draft, hedit]

/-- A source that is no stored file is not inspected. -/
theorem exec_probe_of_not_local (hlocal : t.isLocal s.files = .ok false) :
    (w.probe t).exec s = (.ok t, s) := by
  unfold probe
  split_ifs
  · rfl
  · rw [exec_bind_of_ok exec_files, hlocal, exec_bind_of_ok (exec_ofFault _)]
    rfl

/-- A local source of unknown length is inspected, and is taken to end at zero where its description
tells no duration. -/
theorem exists_probe (hduration : t.duration = none) (hlocal : t.isLocal s.files = .ok true)
    (hdescription : s.description w.studio.settings.prober (.ofString (t.source.getD "")) =
      .ok v) (hlacks : v.LacksDuration) :
    ∃ (known : MediaInfo → Target) (s' : Session), (w.probe t).exec s =
        ((MediaInfo.ofDescription (.ofString (t.source.getD "")) v).map known, s') ∧
      ∀ info, MediaInfo.ofDescription (.ofString (t.source.getD "")) v = .ok info →
        (known info).duration = some (.real 0) := by
  refine ⟨fun info => { t with
      duration := t.duration.or info.duration.count?
      hasAudio := some (t.hasAudio.getD info.hasAudio) },
    { s with probed := s.probed ++
      [(w.studio.settings.prober.text, (Path.ofString (t.source.getD "")).text)] }, ?_, ?_⟩
  · unfold probe
    rw [hduration, Option.isSome_none, Bool.false_and, if_neg Bool.false_ne_true,
      exec_bind_of_ok exec_files, hlocal, exec_bind_of_ok (exec_ofFault _), Bool.not_true,
      if_neg Bool.false_ne_true, exec_bind,
      exec_inspect (Target.exists?_of_isLocal hlocal).2 hdescription]
    cases MediaInfo.ofDescription (.ofString (t.source.getD "")) v <;> rfl
  · intro info hinfo
    dsimp only
    rw [hduration, Option.none_or, MediaInfo.duration_of_lacksDuration hinfo hlacks]
    rfl

/-- A target of unknown length is probed only if its source can be looked for. -/
theorem exists_isLocal_of_probe (hduration : t.duration = none)
    (h : (w.probe t).exec s = (.ok t', s')) : ∃ found, t.isLocal s.files = .ok found := by
  cases hlocal : t.isLocal s.files with
  | ok found => exact ⟨found, rfl⟩
  | error c =>
      unfold probe at h
      rw [hduration, Option.isSome_none, Bool.false_and, if_neg Bool.false_ne_true,
        exec_bind_of_ok exec_files, hlocal] at h
      exact nomatch (Prod.mk.inj h).1

/-! ## Removals from a source of unknown length -/

section

variable (hedit : o.edit = .removeClip p) (hproper : p.IsProper)

include hedit hproper

theorem exists_draft_of_zero (hzero : t.duration = some (.real 0)) :
    ∃ s', (w.draft o t).exec s = (.ok (.error (skip [p.beyondZero])), s') := by
  have hplan := hproper.planRemoval_zero
  rw [RemovalParams.beyondZero, ← hzero]
  rw [← hzero] at hplan
  obtain ⟨s', hdraft⟩ := exec_draftRemoval_of_cause (s := s) (t := t) hplan
  exact ⟨s', draft_eq hedit ▸ hdraft⟩

variable (hduration : t.duration = none)

include hduration

/-- A removal from a source that is no stored file is drafted with the open plan. -/
theorem usesOpenPlan_of_not_local (hlocal : t.isLocal s.files = .ok false) :
    w.UsesOpenPlan o p t s := by
  obtain ⟨plan, hplan, hwritable⟩ := hproper.exists_planRemoval
  obtain ⟨d, s', hd, hdraft⟩ := exec_draftRemoval_of_plan (s := s) (t := t)
    (hduration ▸ hplan) hwritable
  exact ⟨d, plan, ⟨t, s, s', exec_probe_of_not_local hlocal, draft_eq hedit ▸ hdraft⟩, hd, hplan⟩

variable
  (hdescription : s.description w.studio.settings.prober (.ofString (t.source.getD "")) = .ok v)
  (hlacks : v.LacksDuration)

include hdescription hlacks

/-- A removal from an inspected source comes to no draft. -/
theorem not_draftsInto_of_local (hlocal : t.isLocal s.files = .ok true) (d : Draft) :
    ¬w.DraftsInto o t s d := by
  rintro ⟨t', s₁, s₂, hprobe, hdraft⟩
  obtain ⟨known, s', hinspected, hzero⟩ := exists_probe hduration hlocal hdescription hlacks
  obtain ⟨hread, rfl⟩ := Prod.mk.inj (hinspected.symm.trans hprobe)
  obtain ⟨info, hinfo, rfl⟩ := Outcome.map_eq_ok.mp hread
  obtain ⟨s'', hskip⟩ := exists_draft_of_zero hedit hproper (hzero info hinfo)
  exact nomatch Except.ok.inj (Prod.mk.inj (hskip.symm.trans hdraft)).1

/-- **A removal from an inspected source** of which something is read is skipped. -/
theorem exec_authoritative_of_local {output : Path} {info : MediaInfo}
    (houtput : t.output = some output) (hlocal : t.isLocal s.files = .ok true)
    (hinfo : MediaInfo.ofDescription (.ofString (t.source.getD "")) v = .ok info) :
    ∃ s', (w.authoritative.attempt o t).exec s = (.ok (skip [p.beyondZero]), s') := by
  obtain ⟨known, s₁, hprobe, hzero⟩ := exists_probe hduration hlocal hdescription hlacks
  rw [hinfo] at hprobe
  obtain ⟨s₂, hdraft⟩ := exists_draft_of_zero hedit hproper (hzero info hinfo)
  exact ⟨s₂, exec_authoritative_of_skip (Target.exists?_of_isLocal hlocal).1 houtput hprobe hdraft⟩

/-- **A source of unreported length** is kept up to its end just if it is no stored file. A stored
one is taken to end at zero, so that every removal from it is skipped. -/
theorem usesOpenPlan_iff {output : Path} (houtput : t.output = some output) :
    (w.UsesOpenPlan o p t s ↔ t.isLocal s.files = .ok false) ∧
      (t.isLocal s.files = .ok true →
        ∀ info, MediaInfo.ofDescription (.ofString (t.source.getD "")) v = .ok info →
          ∃ s', (w.authoritative.attempt o t).exec s = (.ok (skip [p.beyondZero]), s')) := by
  refine ⟨⟨?_, usesOpenPlan_of_not_local hedit hproper hduration⟩, fun hlocal info =>
    exec_authoritative_of_local hedit hproper hduration hdescription hlacks houtput hlocal⟩
  rintro ⟨d, _, hdraft, -⟩
  obtain ⟨_, _, _, hprobe, -⟩ := id hdraft
  obtain ⟨found, hfound⟩ := exists_isLocal_of_probe hduration hprobe
  cases found with
  | false => exact hfound
  | true =>
      exact absurd hdraft
        (not_draftsInto_of_local hedit hproper hduration hdescription hlacks hfound d)

end

end Workshop

/-! ## A film of unreported length -/

namespace Engine

/-- The removal of the second second. -/
def removal : RemovalParams := ⟨.finite 1, .finite 2⟩

/-- The film at an address. -/
def remoteFilm : Target := { unknownFilm with source := some "http://in.mp4" }

theorem isProper_removal : removal.IsProper := ⟨by decide +kernel, by decide +kernel⟩

theorem lacksDuration_barePicture : barePicture.LacksDuration := by
  rintro _ _ ⟨⟩ ⟨⟩
  rfl

/-- A film at an address is kept up to its end, and a stored one is not. -/
theorem usesOpenPlan_films :
    plainEngine.workshop.UsesOpenPlan ⟨.removeClip removal, none⟩ removal remoteFilm
        (answeringSession (.data barePicture)) ∧
      ¬plainEngine.workshop.UsesOpenPlan ⟨.removeClip removal, none⟩ removal unknownFilm
        (answeringSession (.data barePicture)) := by
  have hlocal : unknownFilm.isLocal (answeringSession (.data barePicture)).files = .ok true :=
    exists?_answeringSession _
  constructor
  · exact (Workshop.usesOpenPlan_iff rfl isProper_removal rfl rfl lacksDuration_barePicture
      rfl).1.mpr (by decide +kernel)
  · intro h
    have hremote := (Workshop.usesOpenPlan_iff rfl isProper_removal rfl rfl
      lacksDuration_barePicture rfl).1.mp h
    cases hlocal.symm.trans hremote

/-- **A stored film of unreported length** is left as it is: its end is taken to lie before the span
that is cut out. -/
theorem skips_unknownFilm : ∃ s',
    (plainEngine.workshop.authoritative.attempt ⟨.removeClip removal, none⟩ unknownFilm).exec
      (answeringSession (.data barePicture)) = (.ok (Workshop.skip
        ["removeClip start (1.0) is beyond the source duration (0.0), nothing to remove"]),
          s') := by
  have hlocal : unknownFilm.isLocal (answeringSession (.data barePicture)).files = .ok true :=
    exists?_answeringSession _
  have hreason : removal.beyondZero =
      "removeClip start (1.0) is beyond the source duration (0.0), nothing to remove" := by
    decide +kernel
  obtain ⟨info, hinfo⟩ : ∃ info, MediaInfo.ofDescription (.ofString "in.mp4") barePicture =
      .ok info := Outcome.isOk_iff.mp (by decide +kernel)
  rw [← hreason]
  exact Workshop.exec_authoritative_of_local rfl isProper_removal rfl rfl
    lacksDuration_barePicture rfl hlocal hinfo

end Engine

end Montage
