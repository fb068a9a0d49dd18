import Montage.Proofs.Render.Tracker

/-!
# A tracker that is told anything

What happens to a rendering is reported in any order: shares come before the start, starts come
after the end, and a rendering ends twice. Whatever is reported, the share that a tracker keeps lies
between zero and a hundred and never falls, the first end is told and no other one, and nothing but
a start is told after it.

## Main definitions

* `Report`: what a tracker is told, and `Tracker.receive`, `Tracker.after`: what becomes of it.
* `Report.IsNumeric`: a report whose share is not the number that is none.
* `Tracker.Orderly`: what holds of a tracker at all times.

## Main statements

* `Tracker.Orderly.receive`: one report keeps a tracker orderly, and its share does not fall.
* `Tracker.orderly_after`: the same for any reports.
* `Tracker.after_isOrderly`: what a tracker that was told anything has told itself.
-/
namespace Montage

/-- What a tracker is told. -/
inductive Report
  | start (command : String)
  | stage (name : String)
  | share (percent : Value) (message : String) (stage : Option String)
  | complete (message : String)
  | fail (message : String)

/-- A share that is reported is not the number that is none. It may be no number at all, and any
number else. -/
def Report.IsNumeric : Report → Prop
  | share percent _ _ => percent.toReal ≠ .ok .nan
  | _ => True

namespace Tracker

/-- The tracker after one report. -/
def receive (t : Tracker) : Report → Tracker
  | .start command => t.start command
  | .stage name => t.setStage name
  | .share percent message stage => (t.updateBy percent message stage).1
  | .complete message => t.complete message
  | .fail message => t.fail message

/-- The tracker after some reports. -/
def after (t : Tracker) (reports : List Report) : Tracker := reports.foldl receive t

/-- What holds of a tracker at all times. The shares are those of all events but starts, and the
share that is kept was not exceeded. -/
structure Orderly (t : Tracker) : Prop where
  share : t.percent.IsShare
  rising : t.events.Pairwise fun e e' =>
    e.kind ≠ .start → e'.kind ≠ .start → e.percent ≤ e'.percent
  highest : ∀ e ∈ t.events, e.kind ≠ .start → e.percent ≤ t.percent
  ended : t.finished = true ↔ ∃ e ∈ t.events, e.kind.isTerminal = true
  last : t.events.Pairwise fun e e' => e.kind.isTerminal = true → e'.kind = .start
  full : ∀ e ∈ t.events, e.kind = .complete → t.percent = 100

variable {t t' : Tracker} {e : RenderEvent}

private theorem isShare_hundred : (100 : Binary64).IsShare := ⟨by decide, by decide⟩

theorem orderly_of (operation : String) (listeners : List Listener) :
    (of operation listeners).Orderly where
  share := show (0 : Binary64).IsShare from ⟨by decide, by decide⟩
  rising := .nil
  highest := by simp [of]
  ended := by simp [of]
  last := .nil
  full := by simp [of]

namespace Orderly

/-- A rendering that goes on has told of no end. -/
theorem isTerminal_eq_false (h : t.Orderly) (hopen : t.finished = false) (he : e ∈ t.events) :
    e.kind.isTerminal = false := by
  by_contra hterminal
  have hend := h.ended.mpr ⟨e, he, Bool.eq_true_of_not_eq_false hterminal⟩
  rw [hopen] at hend
  cases hend

/-- A tracker with the same events, share and end is as orderly. -/
theorem congr (h : t.Orderly) (hevents : t'.events = t.events) (hpercent : t'.percent = t.percent)
    (hfinished : t'.finished = t.finished) : t'.Orderly where
  share := hpercent ▸ h.share
  rising := hevents ▸ h.rising
  highest := by simpa only [hevents, hpercent] using h.highest
  ended := by simpa only [hevents, hfinished] using h.ended
  last := hevents ▸ h.last
  full := by simpa only [hevents, hpercent] using h.full

/-- A start is told at any time, and changes nothing else. -/
theorem emit_start (h : t.Orderly) (hkind : e.kind = .start) : (t.emit e).Orderly where
  share := h.share
  rising := by
    rw [emit, List.pairwise_append]
    exact ⟨h.rising, List.pairwise_singleton _ _, by simp [hkind]⟩
  highest := List.forall_mem_append.mpr ⟨h.highest, by simp [hkind]⟩
  ended := by simpa [emit, or_and_right, exists_or, hkind, RenderEventKind.isTerminal] using h.ended
  last := by
    rw [emit, List.pairwise_append]
    exact ⟨h.last, List.pairwise_singleton _ _, by simp [hkind]⟩
  full := List.forall_mem_append.mpr ⟨h.full, by simp [hkind]⟩

/-- A rendering that goes on tells of a share that does not fall, or of its end. -/
theorem advance (h : t.Orderly) (hopen : t.finished = false) (hrise : t.percent ≤ e.percent)
    (hshare : e.percent.IsShare) (hfull : e.kind = .complete → e.percent = 100)
    (hevents : t'.events = t.events ++ [e]) (hpercent : t'.percent = e.percent)
    (hfinished : t'.finished = e.kind.isTerminal) : t'.Orderly := by
  have hbelow : ∀ o ∈ t.events, o.kind ≠ .start → o.percent ≤ e.percent := fun o ho hstart =>
    Binary64.le_trans_of_le (h.highest o ho hstart) hrise
  have hnone : ∀ o ∈ t.events, o.kind.isTerminal = false := fun o => h.isTerminal_eq_false hopen
  constructor
  case share => rwa [hpercent]
  case rising =>
    rw [hevents, List.pairwise_append]
    refine ⟨h.rising, List.pairwise_singleton _ _, fun o ho o' ho' hstart _ => ?_⟩
    rw [List.mem_singleton.mp ho']
    exact hbelow o ho hstart
  case highest =>
    rw [hevents, hpercent]
    exact List.forall_mem_append.mpr
      ⟨hbelow, by simpa using fun _ => Binary64.le_refl_of_ne_nan hshare.ne_nan⟩
  case ended =>
    rw [hevents, hfinished]
    refine ⟨fun hend => ⟨e, by simp, hend⟩, fun ⟨o, ho, hend⟩ => ?_⟩
    rcases List.mem_append.mp ho with ho | ho
    · cases (hnone o ho).symm.trans hend
    · rwa [← List.mem_singleton.mp ho]
  case last =>
    rw [hevents, List.pairwise_append]
    refine ⟨h.last, List.pairwise_singleton _ _, fun o ho _ _ hend => ?_⟩
    cases (hnone o ho).symm.trans hend
  case full =>
    rw [hevents, hpercent]
    refine List.forall_mem_append.mpr ⟨fun o ho hcomplete => ?_, by simpa using hfull⟩
    have hend := hnone o ho
    rw [hcomplete] at hend
    cases hend

variable {p : Binary64}

/-- **A share.** It is told unless it falls, or comes after the end. -/
theorem update (h : t.Orderly) (hp : p ≠ .nan) (message : String) (stage : Option String) :
    (t.update p message stage).Orderly ∧ t.percent ≤ (t.update p message stage).percent := by
  have hkept := Binary64.le_refl_of_ne_nan h.share.ne_nan
  have hclamp := isShare_clamp hp
  simp only [Tracker.update]
  split_ifs with hfinished hfall
  · exact ⟨h, hkept⟩
  · exact ⟨h.congr rfl rfl rfl, hkept⟩
  · have hopen : t.finished = false := Bool.eq_false_of_not_eq_true hfinished
    have hrise : t.percent ≤ clamp p := Binary64.le_of_not_lt hclamp.ne_nan h.share.ne_nan hfall
    exact ⟨h.advance hopen (e := ⟨.progress, _, _, _, _⟩) hrise hclamp (by simp) rfl rfl hopen,
      hrise⟩

/-- A share that is any value. One that is no number changes nothing but the stage. -/
theorem updateBy (h : t.Orderly) {percent : Value} (hpercent : percent.toReal ≠ .ok .nan)
    (message : String) (stage : Option String) :
    (t.updateBy percent message stage).1.Orderly ∧
      t.percent ≤ (t.updateBy percent message stage).1.percent := by
  have hkept := Binary64.le_refl_of_ne_nan h.share.ne_nan
  rw [Tracker.updateBy]
  cases hreal : percent.toReal with
  | ok p => exact h.update (fun hp => hpercent (hp ▸ hreal)) message stage
  | error f =>
    dsimp only
    split_ifs
    · exact ⟨h, hkept⟩
    · exact ⟨h.congr rfl rfl rfl, hkept⟩

/-- **A success** is told unless the rendering has ended. -/
theorem complete (h : t.Orderly) (message : String) :
    (t.complete message).Orderly ∧ t.percent ≤ (t.complete message).percent := by
  rw [Tracker.complete]
  split_ifs with hfinished
  · exact ⟨h, Binary64.le_refl_of_ne_nan h.share.ne_nan⟩
  · exact ⟨h.advance (Bool.eq_false_of_not_eq_true hfinished) (e := ⟨.complete, 100, _, _, _⟩)
      h.share.2 isShare_hundred (fun _ => rfl) rfl rfl rfl, h.share.2⟩

/-- **A failure** is told unless the rendering has ended. -/
theorem fail (h : t.Orderly) (message : String) :
    (t.fail message).Orderly ∧ t.percent ≤ (t.fail message).percent := by
  have hkept := Binary64.le_refl_of_ne_nan h.share.ne_nan
  rw [Tracker.fail]
  split_ifs with hfinished
  · exact ⟨h, hkept⟩
  · exact ⟨h.advance (Bool.eq_false_of_not_eq_true hfinished) (e := ⟨.error, t.percent, _, _, _⟩)
      hkept h.share (by simp) rfl rfl rfl, hkept⟩

/-- **One report** keeps a tracker orderly, and the share does not fall. -/
theorem receive (h : t.Orderly) {r : Report} (hr : r.IsNumeric) :
    (t.receive r).Orderly ∧ t.percent ≤ (t.receive r).percent := by
  have hkept := Binary64.le_refl_of_ne_nan h.share.ne_nan
  cases r with
  | start command => exact ⟨h.emit_start rfl, hkept⟩
  | stage name => exact ⟨h.congr rfl rfl rfl, hkept⟩
  | share percent message stage => exact h.updateBy hr message stage
  | complete message => exact h.complete message
  | fail message => exact h.fail message

end Orderly

/-- **Any reports** keep a tracker orderly, and the share does not fall. -/
theorem orderly_after (h : t.Orderly) {reports : List Report}
    (hreports : ∀ r ∈ reports, r.IsNumeric) :
    (t.after reports).Orderly ∧ t.percent ≤ (t.after reports).percent := by
  induction reports generalizing t with
  | nil => exact ⟨h, Binary64.le_refl_of_ne_nan h.share.ne_nan⟩
  | cons r rest ih =>
    obtain ⟨hr, hrest⟩ := List.forall_mem_cons.mp hreports
    obtain ⟨hone, hrise⟩ := h.receive hr
    obtain ⟨hall, hrise'⟩ := ih hone hrest
    exact ⟨hall, Binary64.le_trans_of_le hrise hrise'⟩

/-- What one report lets a tracker tell, to each of its listeners. A share that is told is the one
that is kept from then on. -/
theorem exists_receive_eq (t : Tracker) (r : Report) :
    ∃ told, (t.receive r).events = t.events ++ told ∧ (t.receive r).listeners = t.listeners ∧
      (t.receive r).deliveries = t.deliveries ++ told.flatMap (fun e => t.listeners.map (·, e)) ∧
      ∀ e ∈ told, e.kind = .progress → e.percent = (t.receive r).percent := by
  have hnone {t' : Tracker} (hevents : t'.events = t.events)
      (hlisteners : t'.listeners = t.listeners) (hdeliveries : t'.deliveries = t.deliveries) :
      ∃ told, t'.events = t.events ++ told ∧ t'.listeners = t.listeners ∧
        t'.deliveries = t.deliveries ++ told.flatMap (fun e => t.listeners.map (·, e)) ∧
        ∀ e ∈ told, e.kind = .progress → e.percent = t'.percent :=
    ⟨[], by simp [hevents], hlisteners, by simp [hdeliveries], nofun⟩
  cases r with
  | start command => exact ⟨[_], rfl, rfl, by simp [receive, start, emit], by simp⟩
  | stage name => exact hnone rfl rfl rfl
  | share percent message stage =>
    rw [receive, updateBy]
    cases percent.toReal with
    | ok p =>
      simp only [update]
      split_ifs
      · exact hnone rfl rfl rfl
      · exact hnone rfl rfl rfl
      · exact ⟨[_], rfl, rfl, by simp [emit], by simp [emit]⟩
    | error f =>
      dsimp only
      split_ifs
      · exact hnone rfl rfl rfl
      · exact hnone rfl rfl rfl
  | complete message =>
    rw [receive, complete]
    split_ifs
    · exact hnone rfl rfl rfl
    · exact ⟨[_], rfl, rfl, by simp [emit], by simp⟩
  | fail message =>
    rw [receive, fail]
    split_ifs
    · exact hnone rfl rfl rfl
    · exact ⟨[_], rfl, rfl, by simp [emit], by simp⟩

theorem exists_told (t : Tracker) (r : Report) :
    ∃ told, (t.receive r).events = t.events ++ told ∧
      ∀ e ∈ told, e.kind = .progress → e.percent = (t.receive r).percent := by
  obtain ⟨told, hevents, -, -, hshares⟩ := t.exists_receive_eq r
  exact ⟨told, hevents, hshares⟩

/-- Once a rendering has ended, a report other than a stage does not change its state. -/
theorem toFields_receive (hfinished : t.finished = true) {r : Report}
    (hr : ∀ name, r ≠ .stage name) : (t.receive r).toFields = t.toFields := by
  cases r with
  | start command => rfl
  | stage name => exact absurd rfl (hr name)
  | share percent message stage =>
    rw [receive, updateBy]
    cases percent.toReal with
    | ok p => simp only [update, hfinished, if_true]
    | error f => simp only [hfinished, if_true]
  | complete message => simp only [receive, complete, hfinished, if_true]
  | fail message => simp only [receive, fail, hfinished, if_true]

/-- No end is followed by another one, so there is at most one. -/
theorem Orderly.countP_isTerminal_le (h : t.Orderly) :
    t.events.countP (·.kind.isTerminal) ≤ 1 := by
  have hlast := h.last
  generalize t.events = events at hlast
  induction events with
  | nil => exact Nat.zero_le 1
  | cons e rest ih =>
    obtain ⟨he, hrest⟩ := List.pairwise_cons.mp hlast
    by_cases hend : e.kind.isTerminal = true
    · have hnone : rest.countP (·.kind.isTerminal) = 0 :=
        List.countP_eq_zero.mpr fun o ho => by simp [he o ho hend, RenderEventKind.isTerminal]
      simp [hend, hnone]
    · simpa [hend] using ih hrest

/-- **Whatever is reported** to the tracker of a new rendering, in any order and at any time: the
share that it keeps lies between zero and a hundred, and it is no smaller after more reports; the
shares of all events but starts never fall; the next report lets it tell of no share but the one
that it then keeps; at most one end is told, nothing but starts follow it, and the rendering counts
as ended exactly if it was told; after a success the share is a hundred; and once the rendering has
ended no report but a stage changes its state. -/
theorem after_isOrderly (operation : String) (listeners : List Listener)
    {earlier later : List Report} (hnumeric : ∀ r ∈ earlier ++ later, r.IsNumeric) :
    let t := (of operation listeners).after earlier
    t.percent.IsShare ∧ t.percent ≤ (t.after later).percent ∧
    (t.events.filter (·.kind ≠ .start)).Pairwise (fun e e' => e.percent ≤ e'.percent) ∧
    (∀ r, ∃ told, (t.receive r).events = t.events ++ told ∧
      ∀ e ∈ told, e.kind = .progress → e.percent = (t.receive r).percent) ∧
    t.events.countP (·.kind.isTerminal) ≤ 1 ∧
    t.events.Pairwise (fun e e' => e.kind.isTerminal = true → e'.kind = .start) ∧
    (t.finished = true ↔ ∃ e ∈ t.events, e.kind.isTerminal = true) ∧
    (∀ e ∈ t.events, e.kind = .complete → t.percent = 100) ∧
    (t.finished = true →
      ∀ r, (∀ name, r ≠ .stage name) → (t.receive r).toFields = t.toFields) := by
  intro t
  obtain ⟨hearlier, hlater⟩ := List.forall_mem_append.mp hnumeric
  have h : t.Orderly := (orderly_after (orderly_of operation listeners) hearlier).1
  refine ⟨h.share, (orderly_after h hlater).2, ?_, t.exists_told, h.countP_isTerminal_le, h.last,
    h.ended, h.full, fun hfinished r => toFields_receive hfinished⟩
  rw [List.pairwise_filter]
  exact h.rising.imp fun hle he he' => hle (of_decide_eq_true he) (of_decide_eq_true he')

/-- A share before the start and one that is too large, a success, and then a failure. -/
theorem after_isOrderly_late :
    let earlier : List Report := [.share (.real 40) "" none, .start "ffmpeg",
      .share (.real (.infinite false)) "" (some "encode"), .complete "done", .fail "late"]
    let t := (of "trim" []).after earlier
    (∀ r ∈ earlier ++ [.start "ffmpeg"], r.IsNumeric) ∧ t.finished = true ∧
      t.events.map (·.kind) = [.progress, .start, .progress, .complete] ∧ t.percent = 100 ∧
      (t.receive (.share (.real 70) "" (some "late"))).toFields = t.toFields := by
  intro earlier t
  have hnumeric : ∀ r ∈ earlier ++ [.start "ffmpeg"], r.IsNumeric := by
    simp [earlier, Report.IsNumeric, Value.toReal, Number.toReal?]
    decide
  obtain ⟨-, -, -, -, -, -, -, hfull, hkept⟩ := after_isOrderly "trim" [] hnumeric
  have hfinished : t.finished = true := by decide
  have hcomplete : ⟨.complete, 100, "done", "encode", none⟩ ∈ t.events := by decide
  exact ⟨hnumeric, hfinished, by decide, hfull _ hcomplete rfl, hkept hfinished _ (by simp)⟩

end Tracker

end Montage
